import ClusterView.Demo

/-!
# Command line

The program takes options for the number of participants, the memory of each, a
configuration file, JSON output and diagnostics. Options may be written long or short,
with their value in the next argument, after an equals sign, or attached to the short
form; short flags may share one dash. No option may be repeated, and whatever follows a
double dash is handed to the runtime.

## Sections
- §1: Options
- §2: Reading values
- §3: Reading arguments
- §4: The program
-/

namespace ClusterView.CommandLine

/-! ## §1 Options -/

/-- **Options** as given. -/
structure Options where
  /-- Number of participants, instead of the configured one. -/
  participants : Option UInt64
  /-- Memory per participant, instead of the configured amount. -/
  memory : Option UInt64
  config : Option String
  json : Bool
  verbose : Bool
  runtimeArgs : List String
deriving DecidableEq, Repr

def Options.none : Options := ⟨.none, .none, .none, false, false, []⟩

inductive Detour where
  | help
  | version
  /-- The arguments are wrong. -/
  | misuse (reason : String)
deriving DecidableEq, Repr

inductive Setting where
  | participants
  | memory
  | config
deriving DecidableEq, Repr

inductive Flag where
  | json
  | verbose
  | help
  | version
deriving DecidableEq, Repr

/-- The long form of an option. -/
def long? : String → Option (Setting ⊕ Flag)
  | "participants" => some (.inl .participants)
  | "memory" => some (.inl .memory)
  | "config" => some (.inl .config)
  | "json" => some (.inr .json)
  | "verbose" => some (.inr .verbose)
  | "help" => some (.inr .help)
  | "version" => some (.inr .version)
  | _ => none

/-- The short form of an option. -/
def short? : Char → Option (Setting ⊕ Flag)
  | 'p' => some (.inl .participants)
  | 'm' => some (.inl .memory)
  | 'c' => some (.inl .config)
  | 'v' => some (.inr .verbose)
  | 'h' => some (.inr .help)
  | 'V' => some (.inr .version)
  | _ => none

/-! ## §2 Reading values -/

/-- The value of a decimal digit. -/
def digit? (c : Char) : Option Nat := if c.isDigit then some (c.toNat - 48) else none

/-- Decimal digits as a number. -/
def digits? : List Char → Option Nat
  | [] => none
  | chars => (chars.mapM digit?).map Json.valueOfDigits

/-- A natural number below 2 ^ 64 in decimal digits, with a plus sign or without one. -/
def word? (text : String) : Option UInt64 :=
  let digits := match text.toList with
    | '+' :: rest => rest
    | chars => chars
  (digits? digits).bind fun n => if n < UInt64.size then some (UInt64.ofNat n) else none

/-- Reject an option that was given before. -/
def once {α : Type} (before : Option α) : Except Detour Unit :=
  if before.isSome then .error (.misuse "an option cannot be used multiple times") else .ok ()

/-- A number for an option. -/
def number (text : String) : Except Detour UInt64 :=
  match word? text with
  | some n => .ok n
  | none => .error (.misuse "invalid value for an option")

def assign (o : Options) (setting : Setting) (text : String) : Except Detour Options :=
  match setting with
  | .participants => do
      once o.participants
      return { o with participants := some (← number text) }
  | .memory => do
      once o.memory
      return { o with memory := some (← number text) }
  | .config => do
      once o.config
      if text.isEmpty then throw (.misuse "a value is required for an option")
      return { o with config := some text }

def raise (o : Options) : Flag → Except Detour Options
  | .json =>
      if o.json then .error (.misuse "an option cannot be used multiple times")
      else .ok { o with json := true }
  | .verbose =>
      if o.verbose then .error (.misuse "an option cannot be used multiple times")
      else .ok { o with verbose := true }
  | .help => .error .help
  | .version => .error .version

/-! ## §3 Reading arguments -/

/-- Short options that share a dash. The rest after an option with a value is its value,
less a leading equals sign; without a rest the value is still to come. -/
def readShort (o : Options) : List Char → Except Detour (Options × Option Setting)
  | [] => .ok (o, none)
  | c :: rest =>
      match short? c with
      | none => .error (.misuse "unexpected argument")
      | some (.inr flag) => do readShort (← raise o flag) rest
      | some (.inl setting) =>
          match rest with
          | [] => .ok (o, some setting)
          -- one equals sign is left out, any further one belongs to the value
          | '=' :: value => do return (← assign o setting (String.ofList value), none)
          | value => do return (← assign o setting (String.ofList value), none)

/-- A long option, with the value after its equals sign if there is one. -/
def readLong (o : Options) (text : List Char) : Except Detour (Options × Option Setting) :=
  let name := String.ofList (text.takeWhile (· != '='))
  let value := match text.dropWhile (· != '=') with
    | [] => none
    | _ :: value => some (String.ofList value)
  match long? name, value with
  -- an unknown name is the fault that counts, with a value or without one
  | none, _ => .error (.misuse "unexpected argument")
  | some (.inr _), some _ => .error (.misuse "unexpected value for an option")
  | some (.inr flag), none => do return (← raise o flag, none)
  | some (.inl setting), some value => do return (← assign o setting value, none)
  | some (.inl setting), none => .ok (o, some setting)

/-- Read arguments one after the other; an option may still be waiting for its value. -/
def readAll (o : Options) : (waiting : Option Setting) → List String → Except Detour Options
  | none, [] => .ok o
  | some _, [] => .error (.misuse "a value is required for an option")
  | waiting, arg :: rest =>
      match waiting, arg.toList with
      -- what follows is the runtime's, options included
      | none, ['-', '-'] => .ok { o with runtimeArgs := rest }
      | none, '-' :: '-' :: text => do
          let (o, waiting) ← readLong o text
          readAll o waiting rest
      | none, '-' :: c :: text => do
          let (o, waiting) ← readShort o (c :: text)
          readAll o waiting rest
      | none, _ => .error (.misuse "unexpected argument")
      -- a single dash may be a value, an option may not
      | some _, '-' :: _ :: _ => .error (.misuse "a value is required for an option")
      | some setting, _ => do readAll (← assign o setting arg) none rest

def read (args : List String) : Except Detour Options := readAll .none none args

/-! ## §4 The program -/

/-- **Outcome** of a run of the program. -/
structure Outcome where
  exit : UInt8
  stdout : String
  stderr : String
  /-- The diagnostic events of the run. -/
  events : List Event
deriving DecidableEq, Repr

/-- Name and version. -/
def versionText : String := "zoneview 0.1.0"

/-- What the options are. -/
def helpText : String :=
  "\n".intercalate
    [ "Demo driver running zoneview over an in-process cluster",
      "",
      "Usage: zoneview [OPTIONS] [-- <RUNTIME_ARGS>...]",
      "",
      "Arguments:",
      "  [RUNTIME_ARGS]...  Arguments passed through to the runtime",
      "",
      "Options:",
      "  -p, --participants <PARTICIPANTS>  Number of participants (overrides the config file)",
      "  -m, --memory <MEMORY>              Memory per participant in bytes (overrides the config file)",
      "  -c, --config <CONFIG>              Cluster configuration as JSON",
      "      --json                         Print the summary as JSON",
      "  -v, --verbose                      Enable debug diagnostics",
      "  -h, --help                         Print help",
      "  -V, --version                      Print version" ]

/-- **The configuration that counts**: the file's, or the default one, with what the
options put in place of it. -/
def configure (o : Options) (file : Config) : Config :=
  { file with
    participants := o.participants.getD file.participants
    memoryPerParticipant := o.memory.getD file.memoryPerParticipant }

/-- Load the configuration that the options ask for. -/
def load (o : Options) (readFile : String → Except IoError Bytes) : Except CommError Config :=
  match o.config with
  | none => .ok (configure o .standard)
  | some path => (Config.ofFile (readFile path)).map (configure o)

/-- The summary as the options ask for it. -/
def report (o : Options) (s : Summary) : String :=
  if o.json then s.toJson.indented 0 ++ "\n"
  else String.join (s.lines.map (· ++ "\n"))

/-- **Run the program** with options. -/
def execute (supply : Nat → WorldId) (o : Options) (readFile : String → Except IoError Bytes) :
    Outcome :=
  match load o readFile with
  | .error e => ⟨1, "", "Error: " ++ e.message ++ "\n", []⟩
  | .ok config =>
      let (result, site) := Demo.run (Site.fresh supply) config o.runtimeArgs
      let output := site.workplace.output
      let events := site.workplace.engine.events
      match result with
      | .ok summary => ⟨0, output.stdout ++ report o summary, output.stderr, events⟩
      | .error e => ⟨1, output.stdout, output.stderr ++ "Error: " ++ e.message ++ "\n", events⟩

/-- **Run the program** with arguments. -/
def run (supply : Nat → WorldId) (args : List String)
    (readFile : String → Except IoError Bytes) : Outcome :=
  match read args with
  | .ok o => execute supply o readFile
  | .error .help => ⟨0, helpText ++ "\n", "", []⟩
  | .error .version => ⟨0, versionText ++ "\n", "", []⟩
  | .error (.misuse reason) => ⟨2, "", "error: " ++ reason ++ "\n", []⟩

end ClusterView.CommandLine
