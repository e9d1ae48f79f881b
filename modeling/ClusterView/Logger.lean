import ClusterView.LineBuffer
import ClusterView.Output
import ClusterView.ViewError

/-!
# Loggers

A logger is a place for text that an application chooses to print: a standard stream, a
file, a writer of the application's own, or nowhere. A file logger collects text in a
buffer; a text that does not fit the space left empties the buffer first, and one as
large as the whole buffer goes straight to the file. A logger that goes out of use
empties its buffer. The standard output stream may take only part of a text at once.

## Sections
- §1: Sinks
- §2: Loggers
- §3: Writing and flushing
- §4: Default loggers
-/

namespace ClusterView

/-! ## §1 Sinks -/

/-- **Buffered file**: the position after what has been written, and the bytes that have
not been written yet. -/
structure FileSink where
  place : Location
  /-- Where the next bytes go. -/
  position : Nat
  buffer : Bytes
deriving DecidableEq, Repr

namespace FileSink

/-- Size of the buffer in bytes. -/
def bufferSize : Nat := 8192

/-- Write bytes to the file at once. -/
def writeThrough (f : FileSink) (bytes : Bytes) (o : Output) : FileSink × Output :=
  ({ f with position := f.position + bytes.length }, o.writeFile f.place f.position bytes)

def flush (f : FileSink) (o : Output) : FileSink × Output :=
  let (g, o) := f.writeThrough f.buffer o
  ({ g with buffer := [] }, o)

/-- **Write** through the buffer. -/
def write (f : FileSink) (bytes : Bytes) (o : Output) : FileSink × Output :=
  -- a text that just fits the space left does not empty the buffer
  let (f, o) := if bufferSize - f.buffer.length < bytes.length then f.flush o else (f, o)
  if bufferSize ≤ bytes.length then f.writeThrough bytes o
  else ({ f with buffer := f.buffer ++ bytes }, o)

end FileSink

/-- **Writer**: a capture that gets every text, and a mark at every flush. It may refuse
texts, or flushes. -/
structure Writer where
  capture : Nat
  /-- Why texts are refused, if they are. -/
  writeFault : Option IoError
  /-- Why flushes are refused, if they are. -/
  flushFault : Option IoError
deriving DecidableEq, Repr

/-! ## §2 Loggers -/

inductive Logger where
  | stdout
  | stderr
  | null
  | file (f : FileSink)
  | writer (w : Writer)
deriving DecidableEq, Repr

namespace Logger

/-- **File logger** for a path; the file is emptied. -/
def openFile (path : String) (o : Output) : Except ViewError (Logger × Output) :=
  match o.create path with
  | .ok (place, o) => .ok (.file ⟨place, 0, []⟩, o)
  | .error cause => .error (.io cause)

/-- Does the logger discard everything? -/
def isNull : Logger → Bool
  | .null => true
  | _ => false

def kind : Logger → String
  | .stdout => "stdout"
  | .stderr => "stderr"
  | .null => "null"
  | .file _ => "file"
  | .writer _ => "writer"

def describe (l : Logger) : String :=
  Describe.record "Logger" [("kind", Describe.quoted l.kind)]

/-- **Duplicate**. A file or a writer has one logger only, since two would mix their
texts. -/
def duplicate : Logger → Except ViewError Logger
  | .file _ | .writer _ => .error (.notSupported "cloning a file or writer logger")
  | l => .ok l

/-! ## §3 Writing and flushing -/

/-- The part of a text that one write takes, and the part that it leaves. -/
def split (text : String) : Logger → String × String
  | .stdout => LineBuffer.split text
  | _ => (text, "")

/-- **Write** a text, and answer how many bytes of it were taken. -/
def write (text : String) (o : Output) : Logger → Except IoError Nat × Logger × Output
  | .stdout =>
      let taken := (LineBuffer.split text).1
      (.ok taken.utf8ByteSize, .stdout, { o with stdout := o.stdout ++ taken })
  | .stderr => (.ok text.utf8ByteSize, .stderr, { o with stderr := o.stderr ++ text })
  | .null => (.ok text.utf8ByteSize, .null, o)
  | .file f =>
      let (f, o) := f.write (Bytes.ofText text) o
      (.ok text.utf8ByteSize, .file f, o)
  | .writer w =>
      match w.writeFault with
      | some cause => (.error cause, .writer w, o)
      | none => (.ok text.utf8ByteSize, .writer w, o.appendCapture w.capture text)

/-- **Write all** of a text: what the first write leaves is written next, and an empty text
needs no write. A second write leaves nothing. -/
def writeAll (text : String) (o : Output) (l : Logger) : Except IoError Unit × Logger × Output :=
  if text.isEmpty then (.ok (), l, o)
  else
    -- what is left is known before the write, since the logger after it is another
    let rest := (l.split text).2
    match l.write text o with
    | (.ok _, l, o) =>
        if rest.isEmpty then (.ok (), l, o)
        else
          let (answer, l, o) := l.write rest o
          (answer.map fun _ => (), l, o)
    | (.error cause, l, o) => (.error cause, l, o)

/-- The standard output stream gets a text that is written as a whole. -/
theorem writeAll_stdout (text : String) (o : Output) :
    writeAll text o .stdout = (.ok (), .stdout, { o with stdout := o.stdout ++ text }) := by
  have whole := LineBuffer.split_append text
  have again := LineBuffer.split_split text
  by_cases none : text.isEmpty
  · simp [writeAll, String.isEmpty_iff.1 none]
  · by_cases rest : (LineBuffer.split text).2.isEmpty
    · rw [String.isEmpty_iff.1 rest, String.append_empty] at whole
      simp [writeAll, split, write, none, rest, whole]
    · simp [writeAll, split, write, none, rest, again, String.append_assoc, whole, Except.map]

/-- The mark that a writer's capture gets at a flush. -/
def flushMark : String := "|"

def flush (o : Output) : Logger → Except IoError Unit × Logger × Output
  | .file f =>
      let (f, o) := f.flush o
      (.ok (), .file f, o)
  | .writer w =>
      match w.flushFault with
      | some cause => (.error cause, .writer w, o)
      | none => (.ok (), .writer w, o.appendCapture w.capture flushMark)
  | l => (.ok (), l, o)

/-- **Go out of use**: a file's buffer is emptied, nothing else happens. -/
def close (o : Output) : Logger → Output
  | .file f => (f.flush o).2
  | _ => o

/-! ## §4 Default loggers -/

/-- **Defaults** for progress and debug output: the member of rank zero writes to the
standard streams, everybody else writes nowhere. -/
def rootOnly (rank : Option Nat) : Logger × Logger :=
  if rank = some 0 then (.stdout, .stderr) else (.null, .null)

end Logger

end ClusterView
