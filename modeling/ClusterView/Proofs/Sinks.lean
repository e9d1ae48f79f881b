import ClusterView.Logger
import ClusterView.Proofs.Keys

/-!
# Sinks of loggers

A logger writes to one sink at most: a standard stream, a file, or the capture of a writer. So
whatever is done with it leaves all other sinks alone, and what becomes of the logger itself
does not depend on the output either.

In use, a logger is called by the application until another one takes its place or the state
that it belongs to ends. A writer's capture gets the texts that the writer accepts until then,
and nothing afterwards.

A file's buffer makes no difference in the end. With each state of the sink goes the content
that the file has once the buffer is emptied (`FileSink.settled`). A write puts its bytes there,
behind those of the write before, whatever share of them is still in the buffer.

## Sections
- §1: Sinks
- §2: Writing to one sink
- §3: Files behind a buffer
- §4: Calls
- §5: Loggers in use
-/

namespace ClusterView

/-! ## §1 Sinks -/

/-- **Sink** of output. -/
inductive Sink where
  | stdout
  | stderr
  | file (place : Location)
  | capture (number : Nat)
deriving DecidableEq, Repr

/-- What a sink holds: a file holds bytes, any other sink text. -/
inductive Content where
  | text (t : String)
  | bytes (b : Bytes)
deriving DecidableEq, Repr

namespace Output

/-- **Content of a sink**, if there is such a file or capture. -/
def content (o : Output) : Sink → Option Content
  | .stdout => some (.text o.stdout)
  | .stderr => some (.text o.stderr)
  | .file place => (o.file? place).map .bytes
  | .capture number => o.captures[number]?.map .text

variable {o : Output} {s : Sink}

theorem content_writeFile {place : Location} (h : s ≠ .file place) (position : Nat)
    (bytes : Bytes) : (o.writeFile place position bytes).content s = o.content s := by
  cases s with
  | file other =>
    have hne : other ≠ place := fun hsame => h (congrArg Sink.file hsame)
    have hfalse : (other == place) = false := by simpa using hne
    simp only [content, file?, writeFile, setFile, List.lookup_cons, hfalse, lookup_filter_ne hne]
  | stdout | stderr | capture _ => rfl

theorem file?_writeFile (o : Output) (place : Location) (position : Nat) (bytes : Bytes) :
    (o.writeFile place position bytes).file? place =
      some (overwrite ((o.file? place).getD []) position bytes) :=
  List.lookup_cons_self

/-- A file that is created is empty, or has been emptied. -/
theorem file?_create {path : String} {place : Location} {o o' : Output}
    (h : o.create path = .ok (place, o')) : o'.file? place = some [] := by
  simp only [create, bind, Except.bind, pure, Except.pure] at h
  split at h
  · cases h
  · cases h
    exact List.lookup_cons_self

theorem content_appendCapture {number : Nat} (h : s ≠ .capture number) (text : String) :
    (o.appendCapture number text).content s = o.content s := by
  cases s with
  | capture other =>
    have hne : number ≠ other := fun hsame => h (congrArg Sink.capture hsame.symm)
    simp only [content, appendCapture, List.getElem?_set_ne hne]
  | stdout | stderr | file _ => rfl

/-- A capture that is there gets the text behind what it holds. -/
theorem content_appendCapture_self {number : Nat} {before : String}
    (h : o.content (.capture number) = some (.text before)) (text : String) :
    (o.appendCapture number text).content (.capture number) = some (.text (before ++ text)) := by
  obtain ⟨held, hheld, hsame⟩ := Option.map_eq_some_iff.mp h
  cases hsame
  obtain ⟨hlt, hget⟩ := List.getElem?_eq_some_iff.mp hheld
  simp [content, appendCapture, capture, hlt, hget]

end Output

/-! ## §2 Writing to one sink -/

namespace Logger

/-- **The sink** that a logger writes to. -/
def sink? : Logger → Option Sink
  | .stdout => some .stdout
  | .stderr => some .stderr
  | .null => none
  | .file f => some (.file f.place)
  | .writer w => some (.capture w.capture)

end Logger

namespace FileSink

variable {f : FileSink} {s : Sink}

theorem content_flush (h : s ≠ .file f.place) (o : Output) :
    (f.flush o).2.content s = o.content s :=
  Output.content_writeFile h _ _

/-- A write leaves the file where it is, and the other sinks alone. -/
theorem place_write (f : FileSink) (bytes : Bytes) (o : Output) :
    (f.write bytes o).1.place = f.place := by
  simp only [write]
  split <;> split <;> rfl

theorem content_write (h : s ≠ .file f.place) (bytes : Bytes) (o : Output) :
    (f.write bytes o).2.content s = o.content s := by
  simp only [write]
  split <;> split
  · exact (Output.content_writeFile h _ _).trans (content_flush h o)
  · exact Output.content_writeFile h _ _
  · exact content_flush h o
  · rfl

/-- What becomes of the buffer does not depend on the output. -/
theorem write_fst (f : FileSink) (bytes : Bytes) (o o' : Output) :
    (f.write bytes o).1 = (f.write bytes o').1 := by
  simp only [write]
  split <;> split <;> rfl

end FileSink

namespace Logger

variable {l : Logger} {s : Sink}

theorem sink?_write (l : Logger) (text : String) (o : Output) :
    (l.write text o).2.1.sink? = l.sink? := by
  cases l with
  | file f => exact congrArg (fun place => some (Sink.file place)) (f.place_write _ o)
  | writer w =>
    simp only [write]
    cases w.writeFault <;> rfl
  | stdout | stderr | null => rfl

theorem content_write (h : l.sink? ≠ some s) (text : String) (o : Output) :
    (l.write text o).2.2.content s = o.content s := by
  cases l with
  | stdout | stderr => cases s <;> first | rfl | exact absurd rfl h
  | null => rfl
  | file f => exact FileSink.content_write (fun hs => h (congrArg some hs.symm)) _ o
  | writer w =>
    simp only [write]
    cases w.writeFault with
    | some cause => rfl
    | none => exact Output.content_appendCapture (fun hs => h (congrArg some hs.symm)) text

theorem write_logger (l : Logger) (text : String) (o o' : Output) :
    (l.write text o).2.1 = (l.write text o').2.1 := by
  cases l with
  | file f => exact congrArg Logger.file (f.write_fst _ o o')
  | writer w =>
    simp only [write]
    cases w.writeFault <;> rfl
  | stdout | stderr | null => rfl

/-- All but the standard output stream take a text at once. -/
theorem writeAll_eq (hl : l ≠ .stdout) (text : String) (o : Output) :
    l.writeAll text o =
      if text.isEmpty then (.ok (), l, o)
      else ((l.write text o).1.map fun _ => (), (l.write text o).2) := by
  have hrest : (l.split text).2 = "" := by
    cases l with
    | stdout => exact absurd rfl hl
    | stderr | null | file _ | writer _ => rfl
  by_cases hempty : text.isEmpty
  · simp [writeAll, hempty]
  · simp only [writeAll, hempty, hrest]
    obtain ⟨answer, l', o'⟩ := l.write text o
    cases answer <;> rfl

theorem writeAll_writer (w : Writer) (text : String) (o : Output) :
    (Logger.writer w).writeAll text o =
      if text.isEmpty then (.ok (), .writer w, o)
      else (((Logger.writer w).write text o).1.map fun _ => (), ((Logger.writer w).write text o).2) :=
  writeAll_eq (by simp) text o

theorem sink?_flush (l : Logger) (o : Output) : (l.flush o).2.1.sink? = l.sink? := by
  cases l with
  | writer w =>
    simp only [flush]
    cases w.flushFault <;> rfl
  | stdout | stderr | null | file _ => rfl

theorem content_flush (h : l.sink? ≠ some s) (o : Output) :
    (l.flush o).2.2.content s = o.content s := by
  cases l with
  | stdout | stderr | null => rfl
  | file f => exact FileSink.content_flush (fun hs => h (congrArg some hs.symm)) o
  | writer w =>
    simp only [flush]
    cases w.flushFault with
    | some cause => rfl
    | none => exact Output.content_appendCapture (fun hs => h (congrArg some hs.symm)) flushMark

theorem content_close (h : l.sink? ≠ some s) (o : Output) :
    (l.close o).content s = o.content s := by
  cases l with
  | file f => exact FileSink.content_flush (fun hs => h (congrArg some hs.symm)) o
  | stdout | stderr | null | writer _ => rfl

/-- What a logger holds back in a buffer. -/
def pending : Logger → Bytes
  | .file f => f.buffer
  | _ => []

/-- **A logger that holds nothing back** can go out of use unnoticed. -/
theorem content_close_of_pending (h : l.pending = []) {o : Output} (hs : (o.content s).isSome) :
    (l.close o).content s = o.content s := by
  cases l with
  | stdout | stderr | null | writer _ => rfl
  | file f =>
    by_cases hplace : s = .file f.place
    · subst hplace
      obtain ⟨held, hheld⟩ := Option.isSome_iff_exists.mp ((Option.isSome_map ..).symm.trans hs)
      have hbuffer : f.buffer = [] := h
      show ((o.writeFile f.place f.position f.buffer).file? f.place).map Content.bytes =
        (o.file? f.place).map Content.bytes
      rw [Output.file?_writeFile, hbuffer, hheld]
      rfl
    · exact FileSink.content_flush hplace o

end Logger

/-! ## §3 Files behind a buffer -/

namespace Output

@[simp] theorem overwrite_nil (content : Bytes) (position : Nat) :
    overwrite content position [] = content := rfl

theorem overwrite_of_ne_nil {bytes : Bytes} (h : bytes ≠ []) (content : Bytes) (position : Nat) :
    overwrite content position bytes =
      content.take position ++ List.replicate (position - content.length) 0 ++ bytes ++
        content.drop (position + bytes.length) := by
  rw [overwrite, if_neg (by simpa using h)]

/-- **Two writes, one behind the other**, are one. -/
theorem overwrite_overwrite (content : Bytes) (position : Nat) (first second : Bytes) :
    overwrite (overwrite content position first) (position + first.length) second =
      overwrite content position (first ++ second) := by
  by_cases hfirst : first = []
  · simp [hfirst]
  by_cases hsecond : second = []
  · simp [hsecond]
  rw [overwrite_of_ne_nil hfirst, overwrite_of_ne_nil hsecond,
    overwrite_of_ne_nil (List.append_ne_nil_of_left_ne_nil hfirst second)]
  -- the first write has filled the file up to where the second one begins
  have hlength : (content.take position ++ List.replicate (position - content.length) 0 ++
      first).length = position + first.length := by
    simp only [List.length_append, List.length_take, List.length_replicate]
    omega
  rw [← List.append_assoc _ first second]
  generalize content.take position ++ List.replicate (position - content.length) 0 ++ first = head
    at hlength ⊢
  have hgap : position + first.length -
      (head ++ content.drop (position + first.length)).length = 0 := by
    rw [List.length_append, hlength]
    omega
  have hrest : (head ++ content.drop (position + first.length)).drop
      (position + first.length + second.length) =
        content.drop (position + (first ++ second).length) := by
    rw [← List.drop_drop, List.drop_left' hlength, List.drop_drop, List.length_append,
      Nat.add_assoc]
  rw [hgap, hrest, List.take_left' hlength, List.replicate_zero, List.append_nil]

/-- What is written at the end is appended. -/
theorem overwrite_length (content bytes : Bytes) :
    overwrite content content.length bytes = content ++ bytes := by
  by_cases hbytes : bytes = []
  · simp [hbytes]
  · simp [overwrite_of_ne_nil hbytes]

end Output

namespace FileSink

/-- **Content of the file** once the buffer is emptied. -/
def settled (f : FileSink) (o : Output) : Bytes :=
  Output.overwrite ((o.file? f.place).getD []) f.position f.buffer

/-- Where the next byte ends up. -/
def next (f : FileSink) : Nat := f.position + f.buffer.length

variable (f : FileSink) (bytes : Bytes) (o : Output)

/-- **A flush** brings the file to its content, and that stays as it is. -/
theorem content_flush_self :
    (f.flush o).2.content (.file f.place) = some (.bytes (f.settled o)) :=
  congrArg (Option.map Content.bytes) (Output.file?_writeFile o f.place f.position f.buffer)

theorem settled_flush : (f.flush o).1.settled (f.flush o).2 = f.settled o :=
  congrArg (Option.getD · []) (Output.file?_writeFile o f.place f.position f.buffer)

/-- **What a write does**: it may flush first, and goes past the buffer only if that is empty. -/
theorem write_eq : ∃ (g : FileSink) (o' : Output), g.settled o' = f.settled o ∧ g.next = f.next ∧
    (bufferSize ≤ bytes.length → g.buffer = []) ∧
    (bytes.length < bufferSize → f.buffer.length ≤ bufferSize →
      g.buffer.length + bytes.length ≤ bufferSize) ∧
    f.write bytes o = if bufferSize ≤ bytes.length then g.writeThrough bytes o'
      else ({ g with buffer := g.buffer ++ bytes }, o') := by
  have hpos : 0 < bufferSize := by decide
  by_cases hroom : bufferSize - f.buffer.length < bytes.length
  · refine ⟨(f.flush o).1, (f.flush o).2, f.settled_flush o, rfl, fun _ => rfl, ?_, ?_⟩
    · intro hsmall _
      exact (Nat.zero_add bytes.length).symm ▸ Nat.le_of_lt hsmall
    · simp only [write, if_pos hroom]
  · refine ⟨f, o, rfl, rfl, ?_, ?_, ?_⟩
    · intro hlarge
      exact List.length_eq_zero_iff.mp (by omega)
    · intro _ hfits
      omega
    · simp only [write, if_neg hroom]

/-- **A write** puts its bytes behind those of the write before. -/
theorem settled_write :
    (f.write bytes o).1.settled (f.write bytes o).2 =
      Output.overwrite (f.settled o) f.next bytes := by
  obtain ⟨g, o', hsettled, hnext, hempty, -, hwrite⟩ := f.write_eq bytes o
  rw [hwrite, ← hsettled, ← hnext]
  split
  · have hbuffer := hempty ‹_›
    simp only [writeThrough, settled, next, hbuffer, Output.file?_writeFile, Output.overwrite_nil,
      Option.getD_some, List.length_nil, Nat.add_zero]
  · exact (Output.overwrite_overwrite ..).symm

theorem next_write : (f.write bytes o).1.next = f.next + bytes.length := by
  obtain ⟨g, o', -, hnext, hempty, -, hwrite⟩ := f.write_eq bytes o
  rw [hwrite, ← hnext]
  split
  · simp only [writeThrough, next, hempty ‹_›, List.length_nil, Nat.add_zero]
  · simp only [next, List.length_append, Nat.add_assoc]

/-- The buffer is never larger than its size. -/
theorem length_buffer_write (h : f.buffer.length ≤ bufferSize) :
    (f.write bytes o).1.buffer.length ≤ bufferSize := by
  obtain ⟨g, o', -, -, hempty, hroom, hwrite⟩ := f.write_eq bytes o
  rw [hwrite]
  split
  · rw [show (g.writeThrough bytes o').1.buffer = g.buffer from rfl, hempty ‹_›]
    exact Nat.zero_le _
  · rw [List.length_append]
    exact hroom (Nat.lt_of_not_le ‹_›) h

end FileSink

namespace Logger

variable {l : Logger} {s : Sink}

/-! ## §4 Calls -/

/-- **Call** of an application on a logger. -/
inductive Call where
  | write (text : String)
  | writeAll (text : String)
  | flush
deriving DecidableEq, Repr

namespace Call

/-- **Perform** a call. A single write answers how many bytes were taken. -/
def perform : Call → Output → Logger → Except IoError (Option Nat) × Logger × Output
  | .write text, o, l => ((l.write text o).1.map some, (l.write text o).2)
  | .writeAll text, o, l => ((l.writeAll text o).1.map fun _ => none, (l.writeAll text o).2)
  | .flush, o, l => ((l.flush o).1.map fun _ => none, (l.flush o).2)

/-- The logger after a call, whatever the output. -/
def after (c : Call) (l : Logger) : Logger := (c.perform .empty l).2.1

variable {c : Call} {w : Writer} {o : Output}

/-- **Calls stay in their sink**: neither the logger's sink nor any other one changes hands. -/
theorem content_perform (h : l.sink? ≠ some s) (c : Call) (o : Output) :
    (c.perform o l).2.2.content s = o.content s := by
  cases c with
  | write text => exact content_write h text o
  | flush => exact content_flush h o
  | writeAll text =>
    by_cases hl : l = .stdout
    · subst hl
      rw [perform, writeAll_stdout]
      cases s <;> first | rfl | exact absurd rfl h
    · rw [perform, writeAll_eq hl]
      split
      · rfl
      · exact content_write h text o

theorem perform_logger (c : Call) (o : Output) (l : Logger) :
    (c.perform o l).2.1 = c.after l := by
  cases c with
  | write text => exact l.write_logger text o .empty
  | flush =>
    cases l with
    | writer w =>
      simp only [after, perform, Logger.flush]
      cases w.flushFault <;> rfl
    | stdout | stderr | null | file _ => rfl
  | writeAll text =>
    by_cases hl : l = .stdout
    · subst hl
      rw [after, perform, perform, writeAll_stdout, writeAll_stdout]
    · rw [after, perform, perform, writeAll_eq hl, writeAll_eq hl]
      split
      · rfl
      · exact l.write_logger text o .empty

theorem sink?_after (c : Call) (l : Logger) : (c.after l).sink? = l.sink? := by
  cases c with
  | write text => exact l.sink?_write text .empty
  | flush => exact l.sink?_flush .empty
  | writeAll text =>
    by_cases hl : l = .stdout
    · subst hl
      rw [after, perform, writeAll_stdout]
    · rw [after, perform, writeAll_eq hl]
      split
      · rfl
      · exact l.sink?_write text .empty

/-- What a call is about: a flush leaves a mark. -/
def text : Call → String
  | .write text | .writeAll text => text
  | .flush => flushMark

/-- **What a writer takes** from a call: everything, if it accepts the call. -/
def taken (w : Writer) (c : Call) : String :=
  match (c.perform .empty (.writer w)).1 with
  | .ok _ => c.text
  | .error _ => ""

@[simp] theorem after_writer (c : Call) (w : Writer) : c.after (.writer w) = .writer w := by
  cases c with
  | write text =>
    simp only [after, perform, Logger.write]
    cases w.writeFault <;> rfl
  | flush =>
    simp only [after, perform, Logger.flush]
    cases w.flushFault <;> rfl
  | writeAll text =>
    rw [after, perform, writeAll_writer]
    split
    · rfl
    · simp only [Logger.write]
      cases w.writeFault <;> rfl

/-- **A writer's capture** grows by what the writer takes. -/
theorem content_perform_writer {before : String}
    (h : o.content (.capture w.capture) = some (.text before)) (c : Call) :
    (c.perform o (.writer w)).2.2.content (.capture w.capture) =
      some (.text (before ++ c.taken w)) := by
  cases c with
  | write text =>
    simp only [perform, taken, Logger.write]
    cases w.writeFault with
    | some cause => simpa [Except.map] using h
    | none => exact Output.content_appendCapture_self h text
  | flush =>
    simp only [perform, taken, Logger.flush]
    cases w.flushFault with
    | some cause => simpa [Except.map] using h
    | none => exact Output.content_appendCapture_self h flushMark
  | writeAll text =>
    simp only [perform, taken, writeAll_writer]
    by_cases hempty : text.isEmpty
    · simpa [hempty, Except.map, Call.text, String.isEmpty_iff.mp hempty] using h
    · simp only [hempty, Logger.write]
      cases w.writeFault with
      | some cause => simpa [Except.map] using h
      | none => exact Output.content_appendCapture_self h text

/-- The bytes that a call writes, if nothing is refused. -/
def written : Call → Bytes
  | .write text | .writeAll text => Bytes.ofText text
  | .flush => []

/-- **A file logger's call** goes through, and puts its bytes behind those of the call before. -/
theorem perform_file (c : Call) (f : FileSink) (o : Output) :
    ∃ (count : Option Nat) (g : FileSink) (o' : Output),
      c.perform o (.file f) = (.ok count, .file g, o') ∧ g.place = f.place ∧
        g.settled o' = Output.overwrite (f.settled o) f.next c.written ∧
        g.next = f.next + c.written.length := by
  cases c with
  | write text =>
    exact ⟨_, _, _, rfl, f.place_write _ o, f.settled_write _ o, f.next_write _ o⟩
  | flush => exact ⟨_, _, _, rfl, rfl, f.settled_flush o, rfl⟩
  | writeAll text =>
    simp only [perform, writeAll_eq (l := .file f) (by simp), written]
    by_cases htext : text.isEmpty
    · have hnothing : Bytes.ofText "" = [] := by simp [Bytes.ofText]
      rw [String.isEmpty_iff.mp htext, hnothing]
      exact ⟨_, _, _, rfl, rfl, rfl, rfl⟩
    · rw [if_neg htext]
      exact ⟨_, _, _, rfl, f.place_write _ o, f.settled_write _ o, f.next_write _ o⟩

end Call

/-- A logger and the output after a number of calls. -/
def performAll (calls : List Call) (l : Logger) (o : Output) : Logger × Output :=
  calls.foldl (fun now c => (c.perform now.2 now.1).2) (l, o)

/-- Calls on a file logger that writes at the end of the file append their bytes. -/
theorem performAll_file (calls : List Call) {f : FileSink} {o : Output}
    (h : f.next = (f.settled o).length) :
    ∃ (g : FileSink) (o' : Output), performAll calls (.file f) o = (.file g, o') ∧
      g.place = f.place ∧ g.settled o' = f.settled o ++ calls.flatMap Call.written := by
  induction calls generalizing f o with
  | nil => exact ⟨f, o, rfl, rfl, (List.append_nil _).symm⟩
  | cons c calls ih =>
    obtain ⟨count, g, o', hperform, hplace, hsettled, hnext⟩ := c.perform_file f o
    rw [h, Output.overwrite_length] at hsettled
    have hend : g.next = (g.settled o').length := by
      rw [hnext, hsettled, List.length_append, h]
    obtain ⟨g', o'', hcalls, hplace', hsettled'⟩ := ih hend
    refine ⟨g', o'', ?_, hplace'.trans hplace, ?_⟩
    · rw [performAll, List.foldl_cons, hperform]
      exact hcalls
    · rw [hsettled', hsettled, List.flatMap_cons, List.append_assoc]

/-- **A file logger loses nothing**: when it goes out of use, the file that was opened for it
holds what the calls have written, in order. -/
theorem content_close_file {path : String} {l : Logger} {o opened : Output}
    (hopen : openFile path o = .ok (l, opened)) (calls : List Call) :
    ∃ place, l.sink? = some (.file place) ∧
      ((performAll calls l opened).1.close (performAll calls l opened).2).content (.file place) =
        some (.bytes (calls.flatMap Call.written)) := by
  cases hcreate : o.create path with
  | error cause => simp [openFile, hcreate] at hopen
  | ok created =>
    obtain ⟨place, emptied⟩ := created
    have hnew : l = .file ⟨place, 0, []⟩ ∧ opened = emptied := by
      simpa [openFile, hcreate, eq_comm] using hopen
    obtain ⟨rfl, rfl⟩ := hnew
    have hsettled : (⟨place, 0, []⟩ : FileSink).settled opened = [] := by
      rw [FileSink.settled, Output.file?_create hcreate]
      rfl
    obtain ⟨g, o', hcalls, hplace, hwritten⟩ :=
      performAll_file calls (f := ⟨place, 0, []⟩) (o := opened) (by rw [hsettled]; rfl)
    rw [hsettled, List.nil_append] at hwritten
    refine ⟨place, rfl, ?_⟩
    rw [hcalls, ← show g.place = place from hplace, ← hwritten]
    exact g.content_flush_self o'

/-! ## §5 Loggers in use -/

/-- **Turn** in the use of a logger: the application calls it, another one takes its place, or
the state that it belongs to ends and flushes it. -/
inductive Turn where
  | call (c : Call)
  | replace (l : Logger)
  | finish
deriving DecidableEq, Repr

namespace Turn

/-- What a turn makes of the logger and the output. -/
def act : Turn → Output → Logger → Logger × Output
  | .call c, o, l => (c.perform o l).2
  | .replace new, o, l => (new, l.close o)
  | .finish, o, l => (l.flush o).2

/-- The logger after a turn, whatever the output. -/
def after : Turn → Logger → Logger
  | .call c, l => c.after l
  | .replace new, _ => new
  | .finish, l => Call.after .flush l

theorem act_logger (t : Turn) (o : Output) (l : Logger) : (t.act o l).1 = t.after l := by
  cases t with
  | call c => exact c.perform_logger o l
  | replace new => rfl
  | finish => exact Call.perform_logger .flush o l

theorem content_act (h : l.sink? ≠ some s) (t : Turn) (o : Output) :
    (t.act o l).2.content s = o.content s := by
  cases t with
  | call c => exact Call.content_perform h c o
  | replace new => exact content_close h o
  | finish => exact Logger.content_flush h o

/-- **What a writer gets** from the turns after it was put in use: what it takes from the calls,
up to its replacement or its last flush. -/
def received (w : Writer) : List Turn → String
  | [] => ""
  | .call c :: rest => c.taken w ++ received w rest
  | .replace _ :: _ => ""
  | .finish :: _ => Call.taken w .flush

end Turn

/-- **In use** after a number of turns: the logger that was put in use last, and the calls that
were made on it since. -/
inductive InUse (first : Logger) : List Turn → Logger → List Call → Prop
  | first (calls : List Call) : InUse first (calls.map .call) first calls
  | replaced (earlier : List Turn) (l : Logger) (calls : List Call) :
      InUse first (earlier ++ .replace l :: calls.map .call) l calls

variable {first : Logger} {turns : List Turn} {calls : List Call}

theorem InUse.call (h : InUse first turns l calls) (c : Call) :
    InUse first (turns ++ [.call c]) l (calls ++ [c]) := by
  cases h with
  | first calls =>
    rw [← List.map_singleton (f := Turn.call), ← List.map_append]
    exact .first _
  | replaced earlier l calls =>
    rw [List.append_assoc, List.cons_append, ← List.map_singleton (f := Turn.call),
      ← List.map_append]
    exact .replaced earlier l _

/-- A logger after a number of calls. -/
def afterCalls (l : Logger) (calls : List Call) : Logger := calls.foldl (fun l c => c.after l) l

/-- **Step lemma**: a turn is one more call, or puts another logger in use. -/
theorem InUse.turn (h : InUse first turns l calls) {t : Turn} (hgoes : t ≠ .finish) :
    ∃ l' calls', InUse first (turns ++ [t]) l' calls' ∧
      t.after (l.afterCalls calls) = l'.afterCalls calls' := by
  cases t with
  | call c =>
    refine ⟨l, calls ++ [c], h.call c, ?_⟩
    simp only [Turn.after, afterCalls, List.foldl_append, List.foldl_cons, List.foldl_nil]
  | replace new => exact ⟨new, [], .replaced turns new [], rfl⟩
  | finish => exact absurd rfl hgoes

end Logger

end ClusterView
