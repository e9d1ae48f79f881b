/-!
# Line buffer

The standard output stream takes a text up to its last line break as it is, and keeps the
unfinished line behind it in a buffer. An unfinished line that fills the buffer is left to
another write.

## Sections
- §1: The unfinished line
- §2: What one write takes
-/

namespace ClusterView.LineBuffer

/-! ## §1 The unfinished line -/

/-- Size of the buffer in bytes. -/
def size : Nat := 1024

/-- Everything up to the last line break. -/
def finished (chars : List Char) : List Char := (chars.reverse.dropWhile (· != '\n')).reverse

/-- Everything after the last line break. -/
def unfinished (chars : List Char) : List Char := (chars.reverse.takeWhile (· != '\n')).reverse

theorem finished_append_unfinished (chars : List Char) :
    finished chars ++ unfinished chars = chars := by
  rw [finished, unfinished, ← List.reverse_append, List.takeWhile_append_dropWhile,
    List.reverse_reverse]

theorem ne_newline_of_mem_unfinished {chars : List Char} {c : Char} (h : c ∈ unfinished chars) :
    c ≠ '\n' := by
  simpa using List.all_eq_true.1 (List.all_takeWhile) c (List.mem_reverse.1 h)

theorem finished_eq_nil {chars : List Char} (h : ∀ c ∈ chars, c ≠ '\n') : finished chars = [] := by
  have all : ∀ c ∈ chars.reverse, (c != '\n') = true := by simpa using h
  rw [finished, ← List.append_nil chars.reverse, List.dropWhile_append_of_pos all]
  rfl

/-! ## §2 What one write takes -/

/-- Does the unfinished line of a text have to wait for another write? -/
def Waits (text : String) : Prop :=
  finished text.toList ≠ [] ∧ size ≤ (String.ofList (unfinished text.toList)).utf8ByteSize

instance (text : String) : Decidable (Waits text) := inferInstanceAs (Decidable (_ ∧ _))

/-- **Split** a text into the part that one write takes and the part that it leaves. -/
def split (text : String) : String × String :=
  if Waits text then
    (String.ofList (finished text.toList), String.ofList (unfinished text.toList))
  else (text, "")

/-- No part is lost. -/
theorem split_append (text : String) : (split text).1 ++ (split text).2 = text := by
  unfold split
  split
  · rw [← String.ofList_append, finished_append_unfinished, String.ofList_toList]
  · simp

theorem ne_newline_of_mem_split {text : String} {c : Char} (h : c ∈ (split text).2.toList) :
    c ≠ '\n' := by
  unfold split at h
  split at h
  · exact ne_newline_of_mem_unfinished (by simpa using h)
  · simp at h

/-- The second write takes all that the first one leaves. -/
theorem split_split (text : String) : split (split text).2 = ((split text).2, "") := by
  have none_waits : ¬ Waits (split text).2 :=
    fun h => h.1 (finished_eq_nil fun _ => ne_newline_of_mem_split)
  generalize (split text).2 = rest at none_waits
  rw [split, if_neg none_waits]

end ClusterView.LineBuffer
