import ClusterView.CommandLine
import ClusterView.Proofs.Configurations
import ClusterView.Proofs.Demonstration

/-!
# What the program prints

The program runs the demo on the configuration that its options and its file come to. If that is
consistent it reports the summary, as text or as JSON with the same figures, and otherwise it
reports nothing at all.

## Sections
- §1: Options as arguments
- §2: Reports
- §3: The program
-/

namespace ClusterView

namespace CommandLine

/-! ## §1 Options as arguments -/

/-- The long name of an option with a value. -/
def Setting.name : Setting → String
  | .participants => "participants"
  | .memory => "memory"
  | .config => "config"

/-- The long name of an option without value. -/
def Flag.name : Flag → String
  | .json => "json"
  | .verbose => "verbose"
  | .help => "help"
  | .version => "version"

/-- An option with its value, as one argument. -/
def argument (setting : Setting) (value : String) : String := "--" ++ setting.name ++ "=" ++ value

/-- **Arguments for options**, each in its long form. -/
def written (o : Options) : List String :=
  (o.participants.map fun n => argument .participants n.toNat.repr).toList ++
    ((o.memory.map fun n => argument .memory n.toNat.repr).toList ++
      ((o.config.map (argument .config)).toList ++
        ((if o.json then ["--" ++ Flag.json.name] else []) ++
          ((if o.verbose then ["--" ++ Flag.verbose.name] else []) ++ "--" :: o.runtimeArgs))))

section Arguments

variable {o o' : Options} {setting : Setting} {flag : Flag} {arg value : String}
  {rest : List String} {c : Char} {text : List Char}

theorem word?_repr (n : UInt64) : word? n.toNat.repr = some n := by
  have hdigit : ∀ d < 10, digit? (Nat.digitChar d) = some d := by decide
  have hplus : ∀ d < 10, Nat.digitChar d ≠ '+' := by decide
  have hread := Json.mapM_decimal Nat.digitChar hdigit n.toNat
  have hvalue := Json.valueOfDigits_decimal n.toNat
  have htext := Json.toList_repr n.toNat
  have hlt : ∀ d ∈ Json.decimal n.toNat, d < 10 := fun d => Json.lt_of_mem_decimal
  obtain ⟨d, rest, hdigits⟩ : ∃ d rest, Json.decimal n.toNat = d :: rest := by
    rcases Json.decimal_cases n.toNat with ⟨-, hzero⟩ | ⟨d, rest, -, hdigits⟩
    · exact ⟨0, [], hzero⟩
    · exact ⟨d, rest, hdigits⟩
  rw [hdigits] at hread hvalue htext hlt
  have hsize : n.toNat < UInt64.size := n.toNat_lt_size
  rw [word?, htext, List.map_cons]
  -- a sign would come before all digits
  split
  · rename_i hsign
    exact absurd (List.cons.inj hsign).1 (hplus d (hlt d (List.mem_cons_self ..)))
  · rw [digits?, ← List.map_cons, hread, Option.map_some, hvalue, Option.bind_some, if_pos hsize,
      UInt64.ofNat_toNat]
    exact List.cons_ne_nil _ _

theorem number_repr (n : UInt64) : number n.toNat.repr = .ok n := by
  rw [number, word?_repr]

theorem readAll_long (harg : arg.toList = '-' :: '-' :: c :: text)
    (hlong : readLong o (c :: text) = .ok (o', none)) :
    readAll o none (arg :: rest) = readAll o' none rest := by
  simp only [readAll, harg, hlong]
  rfl

/-- **An option with a value** is read as it is assigned. -/
theorem readAll_argument (h : assign o setting value = .ok o') :
    readAll o none (argument setting value :: rest) = readAll o' none rest := by
  have hlong : readLong o (setting.name.toList ++ '=' :: value.toList) =
      (do return (← assign o setting (String.ofList value.toList), none)) := by
    cases setting <;> rfl
  rw [String.ofList_toList, h] at hlong
  cases setting with
  | participants => exact readAll_long (by simp only [argument, String.toList_append]; rfl) hlong
  | memory => exact readAll_long (by simp only [argument, String.toList_append]; rfl) hlong
  | config => exact readAll_long (by simp only [argument, String.toList_append]; rfl) hlong

/-- **An option without value** is read as it is raised. -/
theorem readAll_flag (h : raise o flag = .ok o') :
    readAll o none (("--" ++ flag.name) :: rest) = readAll o' none rest := by
  have hlong : readLong o flag.name.toList = (do return (← raise o flag, none)) := by
    cases flag <;> rfl
  rw [h] at hlong
  cases flag with
  | json => exact readAll_long rfl hlong
  | verbose => exact readAll_long rfl hlong
  | help => cases h
  | version => cases h

/-- An option may be left out. -/
theorem readAll_given {α : Type} {given : Option α} {text : α → String}
    (hnone : given = none → o' = o)
    (hsome : ∀ a, given = some a → assign o setting (text a) = .ok o') :
    readAll o none ((given.map fun a => argument setting (text a)).toList ++ rest) =
      readAll o' none rest := by
  cases given with
  | none => rw [hnone rfl, Option.map_none, Option.toList_none, List.nil_append]
  | some a => exact readAll_argument (hsome a rfl)

theorem readAll_raised {raised : Bool} (hno : raised = false → o' = o)
    (hyes : raised = true → raise o flag = .ok o') :
    readAll o none ((if raised then ["--" ++ flag.name] else []) ++ rest) =
      readAll o' none rest := by
  cases raised with
  | false => rw [hno rfl, if_neg Bool.false_ne_true, List.nil_append]
  | true => exact readAll_flag (hyes rfl)

end Arguments

/-- **All options can be given**, except for an empty path. -/
theorem read_written (o : Options) (h : o.config ≠ some "") : read (written o) = .ok o := by
  obtain ⟨participants, memory, config, json, verbose, runtimeArgs⟩ := o
  have hparticipants : ∀ rest, readAll .none none
      ((participants.map fun n => argument .participants n.toNat.repr).toList ++ rest) =
        readAll ⟨participants, none, none, false, false, []⟩ none rest := by
    refine fun rest => readAll_given (fun hnone => by rw [hnone]; rfl) fun n hn => ?_
    rw [assign, number_repr, hn]
    rfl
  have hmemory : ∀ rest, readAll ⟨participants, none, none, false, false, []⟩ none
      ((memory.map fun n => argument .memory n.toNat.repr).toList ++ rest) =
        readAll ⟨participants, memory, none, false, false, []⟩ none rest := by
    refine fun rest => readAll_given (fun hnone => by rw [hnone]) fun n hn => ?_
    rw [assign, number_repr, hn]
    rfl
  have hconfig : ∀ rest, readAll ⟨participants, memory, none, false, false, []⟩ none
      ((config.map (argument .config)).toList ++ rest) =
        readAll ⟨participants, memory, config, false, false, []⟩ none rest := by
    refine fun rest => readAll_given (fun hnone => by rw [hnone]) fun path hpath => ?_
    have hgiven : path.isEmpty = false := by
      simpa [hpath] using h
    rw [assign, hgiven, hpath]
    rfl
  have hjson : ∀ rest, readAll ⟨participants, memory, config, false, false, []⟩ none
      ((if json then ["--" ++ Flag.json.name] else []) ++ rest) =
        readAll ⟨participants, memory, config, json, false, []⟩ none rest :=
    fun rest => readAll_raised (fun hno => by rw [hno]) fun hyes => by rw [hyes]; rfl
  have hverbose : ∀ rest, readAll ⟨participants, memory, config, json, false, []⟩ none
      ((if verbose then ["--" ++ Flag.verbose.name] else []) ++ rest) =
        readAll ⟨participants, memory, config, json, verbose, []⟩ none rest :=
    fun rest => readAll_raised (fun hno => by rw [hno]) fun hyes => by rw [hyes]; rfl
  rw [read, written, hparticipants, hmemory, hconfig, hjson, hverbose]
  rfl

end CommandLine

/-! ## §2 Reports -/

namespace Json

/-- Items are read one by one. -/
theorem ofTrees_map {α : Type} {entries : List α} {depth : Nat} {tree : α → Tree}
    {value : α → Json} (h : ∀ e ∈ entries, ofTree depth (tree e) = some (value e)) :
    ofTrees depth (entries.map tree) = some (entries.map value) := by
  induction entries with
  | nil => rfl
  | cons e entries ih =>
    obtain ⟨he, hentries⟩ := List.forall_mem_cons.mp h
    simp [ofTrees, he, ih hentries]

theorem ofTree_naturalTree (depth : Nat) (n : UInt64) :
    ofTree depth (Config.naturalTree n) = some (.natural n) := by
  rw [Config.naturalTree, ofTree, Number.ofText_naturalText]
  rfl

theorem ofTree_piecesOfText (depth : Nat) (s : String) :
    ofTree depth (.string (piecesOfText s)) = some (.string s) := by
  rw [ofTree, piecesOfText, textOfPieces_piecesOf]
  rfl

end Json

namespace Summary

/-- **Shown**: the JSON value has the five figures of the summary. -/
structure ShownBy (s : Summary) (json : Json) : Prop where
  participants : (json.member? "participants").bind Json.integer? = some s.participants
  rankSum : (json.member? "rank_sum").bind Json.integer? = some s.rankSum.toNat
  memory : (json.member? "memory").bind Json.items? = some (s.memory.map .natural)
  labels : (json.member? "labels").bind Json.items? = some (s.labels.map .string)
  likeRoot : (json.member? "like_root").bind Json.integer? = some s.likeRoot

/-- **The tree of a summary**. -/
theorem tree?_toJson (s : Summary) :
    s.toJson.tree? = some (.object
      [ (Json.piecesOfText "participants", Config.naturalTree (UInt64.ofNat s.participants)),
        (Json.piecesOfText "rank_sum", Config.naturalTree s.rankSum),
        (Json.piecesOfText "memory", .array (s.memory.map Config.naturalTree)),
        (Json.piecesOfText "labels",
          .array (s.labels.map fun label => .string (Json.piecesOfText label))),
        (Json.piecesOfText "like_root", Config.naturalTree (UInt64.ofNat s.likeRoot)) ]) := by
  have hmemory : Json.itemTrees? (s.memory.map .natural) =
      some (s.memory.map Config.naturalTree) :=
    Json.itemTrees?_map fun _ _ => rfl
  have hlabels : Json.itemTrees? (s.labels.map .string) =
      some (s.labels.map fun label => .string (Json.piecesOfText label)) :=
    Json.itemTrees?_map fun _ _ => rfl
  have hnatural : ∀ n, (Json.natural n).tree? = some (Config.naturalTree n) := fun _ => rfl
  simp only [toJson, Json.tree?, Json.memberTrees?, hmemory, hlabels, hnatural]
  rfl

/-- **A summary in JSON** is read back with its figures, as far as they are numbers of 64
bits. -/
theorem read_toJson (s : Summary) (hparticipants : s.participants < UInt64.size)
    (hlikeRoot : s.likeRoot < UInt64.size) (level : Nat) :
    ∃ json, Json.ofBytes? Json.depthLimit (Bytes.ofText (s.toJson.indented level ++ "\n")) =
      some json ∧ s.ShownBy json := by
  -- of the limit of 127, the object takes one level and an array in it the next one
  have hmemory : Json.ofTrees 125 (s.memory.map Config.naturalTree) =
      some (s.memory.map .natural) :=
    Json.ofTrees_map fun n _ => Json.ofTree_naturalTree 125 n
  have hlabels : Json.ofTrees 125
      (s.labels.map fun label => .string (Json.piecesOfText label)) =
        some (s.labels.map .string) :=
    Json.ofTrees_map fun label _ => Json.ofTree_piecesOfText 125 label
  have hvalue : ∀ n < UInt64.size, (UInt64.ofNat n).toNat = n := fun n hn =>
    UInt64.toNat_ofNat_of_lt hn
  have hkey : ∀ key, Json.textOfPieces (Json.piecesOfText key) = some key :=
    Json.textOfPieces_piecesOf
  have hspells := ((s.toJson.isLaidOut _ s.tree?_toJson).2 level).spells_line
  -- members that were read are in the order of their keys
  refine ⟨.object
    [ ("labels", .array (s.labels.map .string)),
      ("like_root", .natural (UInt64.ofNat s.likeRoot)),
      ("memory", .array (s.memory.map .natural)),
      ("participants", .natural (UInt64.ofNat s.participants)),
      ("rank_sum", .natural s.rankSum) ], ?_, ?_, ?_, ?_, ?_, ?_⟩
  · rw [Json.ofBytes?, Json.Tree.ofBytes?_of_spells hspells]
    simp only [Option.bind_eq_bind, Option.bind_some, Json.depthLimit, Json.ofTree, Json.ofMembers,
      hkey, Json.ofTree_naturalTree, hmemory, hlabels, Option.map_some]
    rfl
  · show some ((UInt64.ofNat s.participants).toNat : Int) = some (s.participants : Int)
    rw [hvalue _ hparticipants]
  · rfl
  · rfl
  · rfl
  · show some ((UInt64.ofNat s.likeRoot).toNat : Int) = some (s.likeRoot : Int)
    rw [hvalue _ hlikeRoot]

/-- **Figures**: the summary is about ranks below `n` with these amounts of memory. -/
structure Covers (s : Summary) (n : Nat) (amount : Nat → UInt64) : Prop where
  participants : s.participants = n
  rankSum : s.rankSum = UInt64.ofNat (n * (n - 1) / 2)
  memory : s.memory = (List.range n).map amount
  labels : s.labels = (List.range n).map fun rank => s!"rank-{rank}"
  likeRoot : s.likeRoot = (List.range n).countP fun rank => amount rank = amount 0

/-- **Every rank has its line**, in order: none is cut off where memory and labels are put side
by side. -/
theorem Covers.lines {s : Summary} {n : Nat} {amount : Nat → UInt64} (h : s.Covers n amount) :
    s.lines = [s!"participants: {s.participants}", s!"rank sum:     {s.rankSum}"] ++
      ((List.range n).map fun rank => line rank (amount rank) s!"rank-{rank}") ++
      [s!"like root:    {s.likeRoot}"] := by
  rw [Summary.lines, h.memory, h.labels, List.zip_map', List.append_left_inj,
    List.append_right_inj]
  apply List.ext_getElem?
  intro rank
  by_cases hrank : rank < n <;> simp [hrank]

/-- **Reported**: the text has the figures of the summary, in lines with one for each rank in
order, or as JSON. -/
structure Reported (s : Summary) (n : Nat) (amount : Nat → UInt64) (json : Bool)
    (text : String) : Prop where
  lines : json = false → text = String.join
    (([s!"participants: {s.participants}", s!"rank sum:     {s.rankSum}"] ++
      ((List.range n).map fun rank => line rank (amount rank) s!"rank-{rank}") ++
      [s!"like root:    {s.likeRoot}"]).map (· ++ "\n"))
  json : json = true → ∃ value,
    Json.ofBytes? Json.depthLimit (Bytes.ofText text) = some value ∧ s.ShownBy value

/-- **A summary in JSON** has its figures whenever the number of participants is one of 64
bits. -/
theorem Covers.read_toJson {s : Summary} {n : UInt64} {amount : Nat → UInt64}
    (h : s.Covers n.toNat amount) (level : Nat) :
    ∃ json, Json.ofBytes? Json.depthLimit (Bytes.ofText (s.toJson.indented level ++ "\n")) =
      some json ∧ s.ShownBy json := by
  have hparticipants : s.participants < UInt64.size := h.participants ▸ n.toNat_lt_size
  have hlikeRoot : s.likeRoot ≤ s.participants := by
    rw [h.likeRoot, h.participants]
    exact List.countP_le_length.trans_eq List.length_range
  exact s.read_toJson hparticipants (hlikeRoot.trans_lt hparticipants) level

end Summary

/-! ## §3 The demo -/

namespace Demo

variable {config : Config}

theorem covers_summaryOf (config : Config) :
    (summaryOf config).Covers config.size config.memoryOf :=
  ⟨rfl, rfl, rfl, rfl, List.countP_eq_length_filter.symm⟩

/-- A consistent configuration is summed up, after the lines of progress. -/
theorem run_valid (supply : Nat → WorldId) (hvalid : config.validate = .ok ())
    (args : List String) :
    (run (Site.fresh supply) config args).1 = .ok (summaryOf config) ∧
      (run (Site.fresh supply) config args).2.workplace.output.stdout = transcript config := by
  have hsuccess :=
    (success_of_schedule (Site.HasRoom.fresh supply) hvalid args [] rfl).2.2
  have hstdout := congrArg Output.stdout hsuccess.output
  rw [run_eq hvalid]
  exact ⟨hsuccess.answer, hstdout.trans String.empty_append⟩

/-- An inconsistent configuration is refused. -/
theorem run_invalid {site : Site} {fault : CommError} (hfault : config.validate = .error fault)
    (args : List String) : run site config args = (.error (.cluster fault), site) := by
  simp only [run, Cluster.create, hfault]
  rfl

end Demo

namespace Config

/-- **Consistency**: there are participants, not too many of them, and overrides for no others. -/
theorem validate_eq_ok_iff {c : Config} :
    c.validate = .ok () ↔ c.participants ≠ 0 ∧ c.participants ≤ c.maxParticipants ∧
      ∀ e ∈ c.memoryOverrides.entries, e.1 < c.participants := by
  have hfault : c.validate = .ok () ↔ c.fault? = none := by
    rw [validate]
    cases c.fault? <;> simp
  rw [hfault, fault?]
  by_cases hzero : c.participants = 0
  · simp [hzero]
  · by_cases hmany : c.maxParticipants < c.participants
    · simp [hzero, hmany]
    · simp [hzero, hmany, UInt64.not_lt.mp hmany]

/-- An override for somebody who does not take part is a fault. -/
theorem validate_of_outside {c : Config} {rank : Nat}
    (hset : (c.memoryOverrides.find? rank).isSome) (hrank : c.size ≤ rank) :
    c.validate ≠ .ok () := by
  intro hvalid
  rw [Overrides.find?, Option.isSome_map, List.find?_isSome] at hset
  obtain ⟨e, he, heq⟩ := hset
  have hlt := UInt64.lt_iff_toNat_lt.mp ((validate_eq_ok_iff.mp hvalid).2.2 e he)
  have hnumber : e.1.toNat = rank := by simpa using heq
  rw [hnumber] at hlt
  exact absurd hrank (Nat.not_le.mpr hlt)

end Config

/-! ## §4 The program -/

namespace CommandLine

variable {supply : Nat → WorldId} {readFile : String → Except IoError Bytes} {o : Options}
  {config f : Config}

/-- **What options start from**: the configuration of the file they name, or else the default
one. -/
def StartsFrom (o : Options) (readFile : String → Except IoError Bytes) (f : Config) : Prop :=
  (o.config = none ∧ f = .standard) ∨
    ∃ path, o.config = some path ∧ Config.ofFile (readFile path) = .ok f

theorem StartsFrom.load (h : StartsFrom o readFile f) :
    load o readFile = .ok (configure o f) := by
  rcases h with ⟨hconfig, rfl⟩ | ⟨path, hconfig, hfile⟩
  · rw [CommandLine.load, hconfig]
  · simp only [CommandLine.load, hconfig, hfile]
    rfl

theorem run_of_read {args : List String} (h : read args = .ok o) :
    run supply args readFile = execute supply o readFile := by
  rw [run, h]

/-- **Success**: a consistent configuration is reported on. -/
theorem execute_valid (supply : Nat → WorldId) (hload : load o readFile = .ok config)
    (hvalid : config.validate = .ok ()) :
    (execute supply o readFile).exit = 0 ∧
      (execute supply o readFile).stdout =
        Demo.transcript config ++ report o (Demo.summaryOf config) := by
  obtain ⟨hanswer, hstdout⟩ := Demo.run_valid supply hvalid o.runtimeArgs
  rw [execute, hload]
  simp only [hanswer, hstdout, and_self]

/-- **Failure**: an inconsistent configuration leaves no output but the error. -/
theorem execute_invalid (supply : Nat → WorldId) (hload : load o readFile = .ok config)
    (hinvalid : config.validate ≠ .ok ()) :
    (execute supply o readFile).exit = 1 ∧ (execute supply o readFile).stdout = "" := by
  cases hfault : config.validate with
  | ok => exact absurd hfault hinvalid
  | error fault =>
    rw [execute, hload]
    simp only [Demo.run_invalid hfault]
    exact ⟨trivial, rfl⟩

/-- The report has the figures of the summary. -/
theorem reported {s : Summary} {n : UInt64} {amount : Nat → UInt64}
    (h : s.Covers n.toNat amount) : s.Reported n.toNat amount o.json (report o s) where
  lines hjson := by rw [report, hjson, if_neg Bool.false_ne_true, h.lines]
  json hjson := by
    rw [report, if_pos hjson]
    exact h.read_toJson 0

/-- **The effective cluster.** All options can be given as arguments. Whatever the arguments
are, the program succeeds exactly if the configuration that its options and its file come to is
consistent, where the options replace the number of participants and the common amount of memory.
Its output then consists of the lines of progress and the summary, with one line for each rank in
order or as JSON with the same figures. Otherwise there is no output, in particular if the number
of participants leaves an override without its rank. -/
theorem run_effective :
    (∀ o : Options, o.config ≠ some "" → read (written o) = .ok o) ∧
    ∀ (supply : Nat → WorldId) (readFile : String → Except IoError Bytes) (args : List String)
      (o : Options), read args = .ok o →
      (∀ path e, o.config = some path → Config.ofFile (readFile path) = .error e →
        (run supply args readFile).exit = 1 ∧ (run supply args readFile).stdout = "") ∧
      ∀ f, StartsFrom o readFile f →
        let common := o.memory.getD f.memoryPerParticipant
        let c : Config := ⟨o.participants.getD f.participants, common, f.memoryOverrides,
          f.maxParticipants⟩
        let amount (rank : Nat) := (f.memoryOverrides.find? rank).getD common
        let outcome := run supply args readFile
        (outcome.exit = 0 ↔ c.validate = .ok ()) ∧
        (c.validate = .ok () → ∃ s : Summary, s.Covers c.participants.toNat amount ∧
          ∃ text, outcome.stdout = Demo.transcript c ++ text ∧
            s.Reported c.participants.toNat amount o.json text) ∧
        (c.validate ≠ .ok () → outcome.exit = 1 ∧ outcome.stdout = "") ∧
        ∀ n rank, o.participants = some n → (f.memoryOverrides.find? rank).isSome →
          n.toNat ≤ rank → outcome.exit = 1 ∧ outcome.stdout = "" := by
  refine ⟨read_written, fun supply readFile args o hread => ⟨?_, ?_⟩⟩
  -- without its file, the program does not get to a configuration
  · intro path e hconfig hfile
    have hload : load o readFile = .error e := by
      simp only [load, hconfig, hfile]
      rfl
    rw [run_of_read hread, execute, hload]
    exact ⟨rfl, rfl⟩
  · intro f hstart common c amount outcome
    have hload : load o readFile = .ok c := hstart.load
    have hrun : outcome = execute supply o readFile := run_of_read hread
    have hsuccess := execute_valid supply hload
    have hfailure := execute_invalid supply hload
    have hcovers : (Demo.summaryOf c).Covers c.participants.toNat amount :=
      Demo.covers_summaryOf c
    rw [hrun]
    -- the configuration is validated only now, after the options have been put in
    refine ⟨⟨fun hexit => ?_, fun hvalid => (hsuccess hvalid).1⟩, fun hvalid =>
      ⟨_, hcovers, _, (hsuccess hvalid).2, reported hcovers⟩, hfailure,
      fun n rank hn hset hrank => ?_⟩
    · by_contra hinvalid
      rw [(hfailure hinvalid).1] at hexit
      exact absurd hexit (by decide)
    · have hsize : c.size ≤ rank := by
        show (o.participants.getD f.participants).toNat ≤ rank
        rwa [hn]
      exact hfailure (Config.validate_of_outside hset hsize)

/-- A file on three participants, of which the last one has an amount of memory of its own. -/
def unevenFile : String → Except IoError Bytes :=
  fun _ => .ok (Bytes.ofText Config.uneven.toJson.compact)

/-- The common amount is replaced for the other two, whereas two participants leave the third
one's memory without its rank. -/
theorem run_effective_uneven :
    ((run Fabric.counting ["--memory=7", "-c", "cluster.json"] unevenFile).exit = 0 ∧
      (run Fabric.counting ["--memory=7", "-c", "cluster.json"] unevenFile).stdout =
        "zoneview: 3 participants, runtime started here: true\nzoneview: rank sum 3\n" ++
        "participants: 3\nrank sum:     3\n  [0] rank-0     7 bytes\n  [1] rank-1     7 bytes\n" ++
        "  [2] rank-2     512 bytes\nlike root:    2\n") ∧
    (run Fabric.counting ["-p", "2", "-c", "cluster.json", "--json"] unevenFile).exit = 1 ∧
      (run Fabric.counting ["-p", "2", "-c", "cluster.json", "--json"] unevenFile).stdout = "" := by
  have hfile : Config.ofFile (unevenFile "cluster.json") = .ok Config.uneven :=
    Config.ofFile_toJson Config.uneven
  have hmore := (run_effective.2 Fabric.counting unevenFile ["--memory=7", "-c", "cluster.json"]
    ⟨none, some 7, some "cluster.json", false, false, []⟩ rfl).2 _ (.inr ⟨_, rfl, hfile⟩)
  have hfewer := (run_effective.2 Fabric.counting unevenFile
    ["-p", "2", "-c", "cluster.json", "--json"]
    ⟨some 2, none, some "cluster.json", true, false, []⟩ rfl).2 _ (.inr ⟨_, rfl, hfile⟩)
  refine ⟨⟨hmore.1.mpr rfl, ?_⟩, hfewer.2.2.2 2 2 rfl rfl (by decide)⟩
  obtain ⟨s, hcovers, text, hstdout, hreported⟩ := hmore.2.1 rfl
  have hsum : s.rankSum = 3 := hcovers.rankSum
  have hlike : s.likeRoot = 2 := hcovers.likeRoot.trans (by decide)
  have hcount : s.participants = 3 := hcovers.participants
  rw [hstdout, hreported.lines rfl, hsum, hlike, hcount]
  decide +kernel

end CommandLine

end ClusterView
