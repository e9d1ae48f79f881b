import ClusterView.Describe
import ClusterView.Hexadecimal

/-!
# World identifiers

Each start of a runtime draws an identifier, so that two incarnations of the same
runtime can be told apart. An identifier is a 128-bit number, written in the
8-4-4-4-12 layout of hexadecimal digits.

## Sections
- §1: Identifiers
- §2: Text
-/

namespace ClusterView

/-! ## §1 Identifiers -/

/-- **World identifier**: 128 bits that name one running instance of a runtime. -/
structure WorldId where
  /-- The bits, read as one number. -/
  value : BitVec 128
deriving DecidableEq, Repr

namespace WorldId

instance : Inhabited WorldId := ⟨⟨0⟩⟩

instance : Ord WorldId := ⟨fun a b => compare a.value.toNat b.value.toNat⟩

/-! ## §2 Text -/

/-- The 32 lower-case hexadecimal digits, most significant first. -/
def digits (w : WorldId) : List Char := Hexadecimal.digits 32 w.value.toNat

/-- The digits in groups of 8, 4, 4, 4 and 12, joined by hyphens. -/
def text (w : WorldId) : String :=
  let d := w.digits
  let group (start count : Nat) : String := String.ofList ((d.drop start).take count)
  "-".intercalate [group 0 8, group 8 4, group 12 4, group 16 4, group 20 12]

def describe (w : WorldId) : String :=
  Describe.wrapped "WorldId" w.text

end WorldId

end ClusterView
