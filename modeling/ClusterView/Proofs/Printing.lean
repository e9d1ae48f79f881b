import ClusterView.Proofs.Keys
import ClusterView.Proofs.Quoting

/-!
# Printed values

What is printed as JSON is read back. Two layouts are printed, one without blanks and one with
indentation, and a reader accepts any other one with blanks between the tokens; so the argument
goes through the tokens. A text spells a list of tokens (`Json.Spells`), which determines what
the lexer makes of it, and the tokens of a tree determine what the parser makes of them
(`Json.Tree.isParsed`).

A natural number needs some care: it has no mark at its end, so what follows must not go on with
it (`Json.Ends`).

## Sections
- §1: Decimal digits
- §2: Numbers in a text
- §3: Spelled tokens
- §4: The tokens of a tree
- §5: Values and their trees
- §6: Layouts
-/

namespace ClusterView.Json

/-! ## §1 Decimal digits -/

/-- **Decimal digits** of a number, without leading zeros. -/
def decimal (n : Nat) : List Nat := (Nat.toDigits 10 n).map fun c => c.toNat - 48

/-- The byte of a decimal digit. -/
def digitByte (d : Nat) : UInt8 := UInt8.ofNat (48 + d)

section Digits

variable {n d : Nat}

theorem decimal_of_lt (h : n < 10) : decimal n = [n] := by
  rw [decimal, Nat.toDigits_of_lt_base h]
  have hchar : ∀ d < 10, (Nat.digitChar d).toNat - 48 = d := by decide
  rw [List.map_singleton, hchar n h]

theorem decimal_of_le (h : 10 ≤ n) : decimal n = decimal (n / 10) ++ [n % 10] := by
  have hlast := decimal_of_lt (Nat.mod_lt n (show 0 < 10 by decide))
  have hdigits := Nat.toDigits_of_lt_base (Nat.mod_lt n (show 0 < 10 by decide))
  rw [decimal, Nat.toDigits_of_base_le (by decide) h, ← hdigits, List.map_append]
  exact congrArg _ hlast

/-- **Induction** along the digits, from the first one on. -/
theorem decimal_induction {P : Nat → Prop} (hlt : ∀ n < 10, P n)
    (hle : ∀ n, 10 ≤ n → P (n / 10) → P n) (n : Nat) : P n := by
  induction n using Nat.strongRecOn with
  | ind n ih =>
    by_cases hn : n < 10
    · exact hlt n hn
    · exact hle n (Nat.le_of_not_lt hn) (ih _ (by omega))

theorem lt_of_mem_decimal (h : d ∈ decimal n) : d < 10 := by
  induction n using decimal_induction with
  | hlt n hn =>
    rw [decimal_of_lt hn, List.mem_singleton] at h
    rwa [h]
  | hle n hn ih =>
    rw [decimal_of_le hn, List.mem_append, List.mem_singleton] at h
    rcases h with h | rfl
    · exact ih h
    · exact Nat.mod_lt n (by decide)

/-- The first digit is zero for zero only. -/
theorem decimal_cases (n : Nat) :
    n = 0 ∧ decimal n = [0] ∨ ∃ d rest, 0 < d ∧ decimal n = d :: rest := by
  induction n using decimal_induction with
  | hlt n hn =>
    rw [decimal_of_lt hn]
    rcases Nat.eq_zero_or_pos n with rfl | hpos
    · exact .inl ⟨rfl, rfl⟩
    · exact .inr ⟨n, [], hpos, rfl⟩
  | hle n hn ih =>
    rw [decimal_of_le hn]
    rcases ih with ⟨hzero, -⟩ | ⟨d, rest, hd, hdigits⟩
    · omega
    · exact .inr ⟨d, rest ++ [n % 10], hd, by rw [hdigits, List.cons_append]⟩

theorem valueOfDigits_decimal (n : Nat) : valueOfDigits (decimal n) = n := by
  induction n using decimal_induction with
  | hlt n hn =>
    rw [decimal_of_lt hn]
    simp [valueOfDigits]
  | hle n hn ih =>
    rw [decimal_of_le hn, valueOfDigits, List.foldl_append, ← valueOfDigits, ih]
    exact Nat.div_add_mod n 10

theorem digit?_digitByte : ∀ d < 10, digit? (digitByte d) = some d := by decide

/-- Digits are read one by one, however they are written. -/
theorem mapM_decimal {α : Type} (write : Nat → α) {digit : α → Option Nat}
    (h : ∀ d < 10, digit (write d) = some d) (n : Nat) :
    ((decimal n).map write).mapM digit = some (decimal n) := by
  have hlist : ∀ digits : List Nat, (∀ d ∈ digits, d < 10) →
      (digits.map write).mapM digit = some digits := by
    intro digits hdigits
    induction digits with
    | nil => rfl
    | cons d digits ih =>
      obtain ⟨hd, hdigits⟩ := List.forall_mem_cons.mp hdigits
      simp [h d hd, ih hdigits]
  exact hlist _ fun d => lt_of_mem_decimal

/-- **The text of a number** has a character for each digit. -/
theorem toList_repr (n : Nat) : n.repr.toList = (decimal n).map Nat.digitChar := by
  rw [Nat.repr, String.toList_ofList]
  induction n using decimal_induction with
  | hlt n hn => rw [Nat.toDigits_of_lt_base hn, decimal_of_lt hn, List.map_singleton]
  | hle n hn ih =>
    rw [Nat.toDigits_of_base_le (by decide) hn, decimal_of_le hn, ih, List.map_append,
      List.map_singleton]

/-- What every digit's character stands for, the text stands for in a row. -/
theorem flatMap_repr {α : Type} {f : Char → List α} {g : Nat → α}
    (h : ∀ d < 10, f (Nat.digitChar d) = [g d]) (n : Nat) :
    n.repr.toList.flatMap f = (decimal n).map g := by
  rw [toList_repr, List.flatMap_map, List.map_eq_flatMap]
  exact List.flatMap_congr fun d hd => h d (lt_of_mem_decimal hd)

theorem ofText_repr (n : Nat) : Bytes.ofText n.repr = (decimal n).map digitByte := by
  rw [Bytes.ofText_eq]
  exact flatMap_repr (by decide) n

end Digits

/-! ## §2 Numbers in a text -/

/-- **A natural number as it is written**. -/
def naturalText (n : Nat) : NumberText := ⟨false, decimal n, [], none⟩

theorem Number.ofText_naturalText (n : UInt64) :
    Number.ofText (naturalText n.toNat) = some (.natural n) := by
  have hvalue := valueOfDigits_decimal n.toNat
  have hsize : n.toNat < UInt64.size := n.toNat_lt_size
  simp [Number.ofText, naturalText, NumberText.isInteger, hvalue, hsize]

/-- **End of a number**: what follows does not go on with it. -/
def Ends (rest : Bytes) : Prop :=
  ∀ b ∈ rest.head?, digit? b = none ∧ b ≠ 0x2e ∧ b ≠ 0x65 ∧ b ≠ 0x45

section Numbers

variable {before : List Token} {rest : Bytes}

theorem continueNumber?_digit {n : NumberText} {d : Nat} (hd : d < 10) :
    continueNumber? .whole n (digitByte d) = some (.whole, { n with whole := d :: n.whole }) := by
  simp only [continueNumber?, digit?_digitByte d hd]

/-- Digits are added to a number that has begun. -/
theorem tokensFrom_digits {digits : List Nat} (hdigits : ∀ d ∈ digits, d < 10)
    (sofar : List Nat) :
    tokensFrom (.number .whole ⟨false, sofar, [], none⟩) before
        (digits.map digitByte ++ rest) =
      tokensFrom (.number .whole ⟨false, digits.reverse ++ sofar, [], none⟩) before rest := by
  induction digits generalizing sofar with
  | nil => rfl
  | cons d digits ih =>
    obtain ⟨hd, hdigits⟩ := List.forall_mem_cons.mp hdigits
    have hstep : step (.number .whole ⟨false, sofar, [], none⟩) (digitByte d) =
        some ([], .number .whole ⟨false, d :: sofar, [], none⟩) := by
      simp only [step, continueNumber?_digit hd]
    rw [List.map_cons, List.cons_append, tokensFrom_of_step hstep, List.reverse_nil,
      List.nil_append, ih hdigits, List.reverse_cons, List.append_assoc, List.singleton_append]

/-- A number that may end does so before whatever does not go on with it. -/
theorem tokensFrom_ended {part : NumberPart} (hpart : part = .zero ∨ part = .whole)
    (n : NumberText) (hends : Ends rest) :
    tokensFrom (.number part n) before rest =
      tokensFrom .between (.number n.inOrder :: before) rest := by
  have hcomplete : part.isComplete = true := by rcases hpart with rfl | rfl <;> rfl
  cases rest with
  | nil => simp [tokensFrom, finish, hcomplete]
  | cons b rest =>
    -- the byte that ends the number is taken as it is between tokens
    obtain ⟨hdigit, hpoint, hmark, hmark'⟩ := hends b rfl
    have hstop : continueNumber? part n b = none := by
      rcases hpart with rfl | rfl <;> simp [continueNumber?, hdigit, hpoint, hmark, hmark']
    simp only [tokensFrom, step, hstop, hcomplete, hdigit, Option.isNone_none, and_self, if_true]
    cases stepBetween b with
    | none => rfl
    | some found =>
      show tokensFrom found.2 _ rest = tokensFrom found.2 _ rest
      rw [List.reverse_cons, List.append_assoc, List.singleton_append]

/-- **A natural number is one token**, wherever it stands between tokens and comes to an
end. -/
theorem tokensFrom_natural (n : Nat) (hends : Ends rest) :
    tokensFrom .between before (Bytes.ofText n.repr ++ rest) =
      tokensFrom .between (.number (naturalText n) :: before) rest := by
  have hfirst : ∀ d < 10, 0 < d →
      step .between (digitByte d) = some ([], .number .whole ⟨false, [d], [], none⟩) := by
    decide
  have hlt := fun d => lt_of_mem_decimal (d := d) (n := n)
  rw [ofText_repr, naturalText]
  rcases decimal_cases n with ⟨-, hzero⟩ | ⟨d, digits, hd, hdigits⟩
  -- no digit may come after a zero, but none does
  · rw [hzero]
    exact tokensFrom_ended (.inl rfl) ⟨false, [0], [], none⟩ hends
  · rw [hdigits] at hlt ⊢
    obtain ⟨hd', hlt⟩ := List.forall_mem_cons.mp hlt
    rw [List.map_cons, List.cons_append, tokensFrom_of_step (hfirst d hd' hd), List.reverse_nil,
      List.nil_append, tokensFrom_digits hlt, tokensFrom_ended (.inr rfl) _ hends]
    simp [NumberText.inOrder]

end Numbers

/-! ## §3 Spelled tokens -/

/-- **The pieces of a text** between quotes. -/
def piecesOfText (s : String) : List Piece := s.toList.flatMap piecesOf

/-- **Spelling**: a text is made of these tokens, with any blanks before, between and after
them. -/
inductive Spells : Bytes → List Token → Prop
  | nil : Spells [] []
  | blank {b : UInt8} {rest : Bytes} {more : List Token} (hb : isBlank b = true) :
      Spells rest more → Spells (b :: rest) more
  | mark {b : UInt8} {token : Token} {rest : Bytes} {more : List Token}
      (hb : punctuation? b = some token) : Spells rest more → Spells (b :: rest) (token :: more)
  | word (w : Word) {rest : Bytes} {more : List Token} :
      Spells rest more → Spells (w.bytes ++ rest) (.word w :: more)
  | string (s : String) {rest : Bytes} {more : List Token} :
      Spells rest more → Spells (Bytes.ofText (quote s) ++ rest) (.string (piecesOfText s) :: more)
  | natural (n : Nat) {rest : Bytes} {more : List Token} (hends : Ends rest) :
      Spells rest more → Spells (Bytes.ofText n.repr ++ rest) (.number (naturalText n) :: more)

/-- **Punctuation** between tokens is a token by itself, and no number goes on with it. -/
theorem stepBetween_mark {b : UInt8} {token : Token} (h : punctuation? b = some token) :
    stepBetween b = some ([token], .between) ∧ ∀ rest, Ends (b :: rest) := by
  have hmarks : ∀ entry ∈ [(0x5b, Token.beginArray), (0x5d, .endArray), (0x7b, .beginObject),
      (0x7d, .endObject), (0x3a, .colon), ((0x2c : UInt8), .comma)],
      stepBetween entry.1 = some ([entry.2], .between) ∧
        digit? entry.1 = none ∧ entry.1 ≠ 0x2e ∧ entry.1 ≠ 0x65 ∧ entry.1 ≠ 0x45 := by
    decide
  obtain ⟨hstep, hends⟩ := hmarks _ (mem_of_lookup h)
  refine ⟨hstep, ?_⟩
  rintro rest _ ⟨⟩
  exact hends

/-- **The lexer finds the tokens** that a text spells. -/
theorem Spells.tokensFrom {text : Bytes} {found : List Token} (h : Spells text found)
    (before : List Token) : tokensFrom .between before text = some (before.reverse ++ found) := by
  induction h generalizing before with
  | nil => rfl
  | blank hb _ ih =>
    have hstep : step .between _ = some ([], .between) := if_pos hb
    rw [tokensFrom_of_step hstep]
    exact ih before
  | mark hb _ ih =>
    have hstep : step .between _ = some ([_], .between) := (stepBetween_mark hb).1
    rw [tokensFrom_of_step hstep, ih]
    simp
  | word w _ ih =>
    have hword : ∀ rest, Json.tokensFrom .between before (w.bytes ++ rest) =
        Json.tokensFrom .between (.word w :: before) rest := by
      intro rest
      cases w <;> rfl
    rw [hword, ih]
    simp
  | string s _ ih =>
    rw [tokensFrom_quote, ih]
    simp [piecesOfText]
  | natural n hends _ ih =>
    rw [tokensFrom_natural n hends, ih]
    simp

/-! ## §4 The tokens of a tree -/

mutual

/-- **Tokens of a tree**. -/
def Tree.tokens : Tree → List Token
  | .word w => [.word w]
  | .number n => [.number n]
  | .string pieces => [.string pieces]
  | .array items => .beginArray :: ([.comma].intercalate (itemTokens items) ++ [.endArray])
  | .object members => .beginObject :: ([.comma].intercalate (memberTokens members) ++ [.endObject])

/-- The tokens of each item of an array. -/
def itemTokens : List Tree → List (List Token)
  | [] => []
  | t :: rest => t.tokens :: itemTokens rest

/-- The tokens of each member of an object. -/
def memberTokens : List (List Piece × Tree) → List (List Token)
  | [] => []
  | (key, t) :: rest => (.string key :: .colon :: t.tokens) :: memberTokens rest

end

theorem parseFrom_cons (s : ParseState) (token : Token) (rest : List Token) :
    parseFrom s (token :: rest) = (s.step token).bind fun s => parseFrom s rest := by
  rw [parseFrom]
  cases s.step token <;> rfl

/-- The tokens of a list begin with those of its first entry. -/
theorem intercalate_cons (first : List Token) (others : List (List Token)) :
    ∃ more, [Token.comma].intercalate (first :: others) = first ++ more := by
  cases others with
  | nil => exact ⟨[], by rw [List.intercalate_singleton, List.append_nil]⟩
  | cons second others =>
    exact ⟨_, by rw [List.intercalate_cons_cons, List.append_assoc]⟩

/-- The first item of an array is no end of an array. -/
theorem parseFrom_itemOrEnd (t : Tree) (items : List Tree) (frames : List Frame)
    (rest : List Token) :
    parseFrom ⟨.itemOrEnd, frames⟩ ([.comma].intercalate (itemTokens (t :: items)) ++ rest) =
      parseFrom ⟨.value, frames⟩ ([.comma].intercalate (itemTokens (t :: items)) ++ rest) := by
  obtain ⟨more, hmore⟩ := intercalate_cons t.tokens (itemTokens items)
  rw [itemTokens, hmore]
  cases t <;> simp only [Tree.tokens, List.cons_append, parseFrom_cons] <;> rfl

/-- The first key of an object is a key like any other. -/
theorem parseFrom_keyOrEnd (key : List Piece) (t : Tree) (members : List (List Piece × Tree))
    (frames : List Frame) (rest : List Token) :
    parseFrom ⟨.keyOrEnd, frames⟩
        ([.comma].intercalate (memberTokens ((key, t) :: members)) ++ rest) =
      parseFrom ⟨.key, frames⟩
        ([.comma].intercalate (memberTokens ((key, t) :: members)) ++ rest) := by
  obtain ⟨more, hmore⟩ := intercalate_cons (.string key :: .colon :: t.tokens)
    (memberTokens members)
  rw [memberTokens, hmore, List.cons_append, List.cons_append, parseFrom_cons, parseFrom_cons]
  rfl

/-- **Parsed**: where a value is due, the parser takes the tokens of the tree for it. -/
def Tree.IsParsed (t : Tree) : Prop :=
  ∀ (frames : List Frame) (rest : List Token),
    parseFrom ⟨.value, frames⟩ (t.tokens ++ rest) =
      (complete t frames).bind fun s => parseFrom s rest

section Brackets

variable {t : Tree} {items : List Tree} {key : List Piece} {members : List (List Piece × Tree)}

/-- An item of an array goes to those before it. -/
theorem Tree.IsParsed.item (h : t.IsParsed) (sofar : List Tree) (frames : List Frame)
    (rest : List Token) :
    parseFrom ⟨.value, .array sofar :: frames⟩ (t.tokens ++ rest) =
      parseFrom ⟨.commaOrEnd, .array (t :: sofar) :: frames⟩ rest :=
  h _ rest

/-- A member of an object does so with its key. -/
theorem Tree.IsParsed.member (h : t.IsParsed) (key : List Piece)
    (sofar : List (List Piece × Tree)) (frames : List Frame) (rest : List Token) :
    parseFrom ⟨.key, .object sofar :: frames⟩ (.string key :: .colon :: t.tokens ++ rest) =
      parseFrom ⟨.commaOrEnd, .object ((key, t) :: sofar) :: frames⟩ rest := by
  have hkey : ParseState.step ⟨.key, .object sofar :: frames⟩ (.string key) =
      some ⟨.colon key, .object sofar :: frames⟩ := rfl
  have hcolon : ParseState.step ⟨.colon key, .object sofar :: frames⟩ .colon =
      some ⟨.value, .member sofar key :: frames⟩ := rfl
  rw [List.cons_append, List.cons_append, parseFrom_cons, hkey, Option.bind_some, parseFrom_cons,
    hcolon, Option.bind_some]
  exact h _ rest

/-- The items that are still to come, with the end of the array. -/
theorem parseFrom_items (h : ∀ item ∈ t :: items, item.IsParsed) (sofar : List Tree)
    (frames : List Frame) (rest : List Token) :
    parseFrom ⟨.value, .array sofar :: frames⟩
        ([.comma].intercalate (itemTokens (t :: items)) ++ ([.endArray] ++ rest)) =
      (complete (.array (sofar.reverse ++ t :: items)) frames).bind fun s => parseFrom s rest := by
  obtain ⟨ht, hitems⟩ := List.forall_mem_cons.mp h
  -- the frame has the items so far, the latest one first
  induction items generalizing t sofar with
  | nil =>
    have hclose : ParseState.step ⟨.commaOrEnd, .array (t :: sofar) :: frames⟩ .endArray =
        complete (.array (t :: sofar).reverse) frames := rfl
    rw [itemTokens, itemTokens, List.intercalate_singleton, ht.item, List.singleton_append,
      parseFrom_cons, hclose, List.reverse_cons]
  | cons t' items ih =>
    have hcomma : ParseState.step ⟨.commaOrEnd, .array (t :: sofar) :: frames⟩ .comma =
        some ⟨.value, .array (t :: sofar) :: frames⟩ := rfl
    obtain ⟨ht', hitems'⟩ := List.forall_mem_cons.mp hitems
    rw [itemTokens, itemTokens, List.intercalate_cons_cons, List.append_assoc, List.append_assoc,
      ht.item, List.singleton_append, parseFrom_cons, hcomma, Option.bind_some, ← itemTokens,
      ih hitems (t :: sofar) ht' hitems']
    simp

/-- The members that are still to come, with the end of the object. -/
theorem parseFrom_members (h : ∀ member ∈ (key, t) :: members, member.2.IsParsed)
    (sofar : List (List Piece × Tree)) (frames : List Frame) (rest : List Token) :
    parseFrom ⟨.key, .object sofar :: frames⟩
        ([.comma].intercalate (memberTokens ((key, t) :: members)) ++ ([.endObject] ++ rest)) =
      (complete (.object (sofar.reverse ++ (key, t) :: members)) frames).bind fun s =>
        parseFrom s rest := by
  obtain ⟨ht, hmembers⟩ := List.forall_mem_cons.mp h
  induction members generalizing key t sofar with
  | nil =>
    have hclose : ParseState.step ⟨.commaOrEnd, .object ((key, t) :: sofar) :: frames⟩
        .endObject = complete (.object ((key, t) :: sofar).reverse) frames := rfl
    rw [memberTokens, memberTokens, List.intercalate_singleton, Tree.IsParsed.member ht,
      List.singleton_append, parseFrom_cons, hclose, List.reverse_cons]
  | cons member members ih =>
    obtain ⟨key', t'⟩ := member
    have hcomma : ParseState.step ⟨.commaOrEnd, .object ((key, t) :: sofar) :: frames⟩ .comma =
        some ⟨.key, .object ((key, t) :: sofar) :: frames⟩ := rfl
    obtain ⟨ht', hmembers'⟩ := List.forall_mem_cons.mp hmembers
    rw [memberTokens, memberTokens, List.intercalate_cons_cons, List.append_assoc,
      List.append_assoc, Tree.IsParsed.member ht, List.singleton_append, parseFrom_cons, hcomma,
      Option.bind_some, ← memberTokens, ih hmembers ((key, t) :: sofar) ht' hmembers']
    simp

theorem Tree.isParsed_array (h : ∀ item ∈ items, item.IsParsed) :
    (Tree.array items).IsParsed := by
  intro frames rest
  have hopen : ParseState.step ⟨.value, frames⟩ .beginArray =
      some ⟨.itemOrEnd, .array [] :: frames⟩ := rfl
  rw [Tree.tokens, List.cons_append, List.append_assoc, parseFrom_cons, hopen, Option.bind_some]
  cases items with
  | nil => exact parseFrom_cons ..
  | cons t items =>
    rw [parseFrom_itemOrEnd]
    exact parseFrom_items h [] frames rest

theorem Tree.isParsed_object (h : ∀ member ∈ members, member.2.IsParsed) :
    (Tree.object members).IsParsed := by
  intro frames rest
  have hopen : ParseState.step ⟨.value, frames⟩ .beginObject =
      some ⟨.keyOrEnd, .object [] :: frames⟩ := rfl
  rw [Tree.tokens, List.cons_append, List.append_assoc, parseFrom_cons, hopen, Option.bind_some]
  cases members with
  | nil => exact parseFrom_cons ..
  | cons member members =>
    obtain ⟨key, t⟩ := member
    rw [parseFrom_keyOrEnd]
    exact parseFrom_members h [] frames rest

end Brackets

/-- **The parser finds every tree**, from its tokens. -/
theorem Tree.isParsed : ∀ t : Tree, t.IsParsed
  | .word _ => fun _ _ => parseFrom_cons ..
  | .number _ => fun _ _ => parseFrom_cons ..
  | .string _ => fun _ _ => parseFrom_cons ..
  | .array items => isParsed_array fun item hitem =>
      have := List.sizeOf_lt_of_mem hitem
      item.isParsed
  | .object members => isParsed_object fun member hmember =>
      have := List.sizeOf_lt_of_mem hmember
      member.2.isParsed
termination_by t => sizeOf t
decreasing_by
  · simp_wf
    omega
  · obtain ⟨key, t⟩ := member
    simp_wf
    simp at this
    omega

/-- **Reading**: a text that spells the tokens of a tree is read as the tree. -/
theorem Tree.ofBytes?_of_spells {t : Tree} {text : Bytes} (h : Spells text t.tokens) :
    Tree.ofBytes? text = some t := by
  have htokens : Json.tokens text = some t.tokens := h.tokensFrom []
  have hparsed := t.isParsed [] []
  rw [List.append_nil] at hparsed
  rw [Tree.ofBytes?, htokens]
  exact hparsed

/-! ## §5 Values and their trees -/

mutual

/-- **The tree of a value** whose numbers are all natural. -/
def tree? : Json → Option Tree
  | .null => some (.word .null)
  | .bool true => some (.word .true)
  | .bool false => some (.word .false)
  | .number (.natural n) => some (.number (naturalText n.toNat))
  | .number _ => none
  | .string s => some (.string (piecesOfText s))
  | .array items => (itemTrees? items).map .array
  | .object members => (memberTrees? members).map .object

/-- The trees of the items of an array. -/
def itemTrees? : List Json → Option (List Tree)
  | [] => some []
  | j :: rest => do return (← tree? j) :: (← itemTrees? rest)

/-- The trees of the members of an object. -/
def memberTrees? : List (String × Json) → Option (List (List Piece × Tree))
  | [] => some []
  | (key, j) :: rest => do return (piecesOfText key, ← tree? j) :: (← memberTrees? rest)

end

section Trees

variable {α : Type} {entries : List α} {value : α → Json} {tree : α → Tree}

theorem itemTrees?_map (h : ∀ e ∈ entries, (value e).tree? = some (tree e)) :
    itemTrees? (entries.map value) = some (entries.map tree) := by
  induction entries with
  | nil => rfl
  | cons e entries ih =>
    obtain ⟨he, hentries⟩ := List.forall_mem_cons.mp h
    simp [itemTrees?, he, ih hentries]

theorem memberTrees?_map (key : α → String) (h : ∀ e ∈ entries, (value e).tree? = some (tree e)) :
    memberTrees? (entries.map fun e => (key e, value e)) =
      some (entries.map fun e => (piecesOfText (key e), tree e)) := by
  induction entries with
  | nil => rfl
  | cons e entries ih =>
    obtain ⟨he, hentries⟩ := List.forall_mem_cons.mp h
    simp [memberTrees?, he, ih hentries]

end Trees

/-! ## §6 Layouts -/

/-- **Rendering**: the text spells these tokens, as long as nothing follows that a number would
go on with. -/
def Renders (text : String) (found : List Token) : Prop :=
  ∀ (rest : Bytes) (more : List Token), Ends rest → Spells rest more →
    Spells (Bytes.ofText text ++ rest) (found ++ more)

/-- **Mark**: the text spells one token, and a number may stand right before it. -/
def Marks (text : String) (token : Token) : Prop :=
  ∀ (rest : Bytes) (more : List Token), Spells rest more →
    Ends (Bytes.ofText text ++ rest) ∧ Spells (Bytes.ofText text ++ rest) (token :: more)

section Layouts

variable {text blanks opening closing separator colon : String} {token first last : Token}
  {found : List Token} {texts : List String} {lists : List (List Token)}

theorem Marks.of_byte {b : UInt8} (htext : Bytes.ofText text = [b])
    (hb : punctuation? b = some token) : Marks text token := by
  intro rest more h
  rw [htext, List.singleton_append]
  exact ⟨(stepBetween_mark hb).2 rest, .mark hb h⟩

theorem marks_ascii {c : Char} {token : Token} (hascii : c.toNat ≤ 127)
    (hmark : punctuation? (UInt8.ofNat c.toNat) = some token) :
    Marks (String.singleton c) token := by
  refine .of_byte ?_ hmark
  rw [Bytes.ofText_eq, String.toList_singleton, List.flatMap_singleton]
  rcases Bytes.utf8EncodeChar_cases c with ⟨-, hone⟩ | ⟨hmore, -⟩
  · exact hone
  · omega

theorem Spells.after_blanks {bytes rest : Bytes} {more : List Token}
    (hblank : ∀ b ∈ bytes, isBlank b = true) (h : Spells rest more) :
    Spells (bytes ++ rest) more := by
  induction bytes with
  | nil => exact h
  | cons b bytes ih =>
    obtain ⟨hb, hbytes⟩ := List.forall_mem_cons.mp hblank
    exact .blank hb (ih hbytes)

theorem Marks.append_blanks (h : Marks text token)
    (hblank : ∀ b ∈ Bytes.ofText blanks, isBlank b = true) : Marks (text ++ blanks) token := by
  intro rest more hrest
  rw [Bytes.ofText_append, List.append_assoc]
  exact h _ _ (hrest.after_blanks hblank)

theorem Marks.blanks_append (h : Marks text token)
    (hblank : ∀ b ∈ Bytes.ofText blanks, isBlank b = true) : Marks (blanks ++ text) token := by
  intro rest more hrest
  obtain ⟨hends, hspells⟩ := h rest more hrest
  rw [Bytes.ofText_append, List.append_assoc]
  refine ⟨?_, hspells.after_blanks hblank⟩
  cases hbytes : Bytes.ofText blanks with
  | nil => exact hends
  | cons b bytes =>
    rintro _ ⟨⟩
    have hb := hblank b (hbytes ▸ List.mem_cons_self ..)
    simp only [isBlank, Bool.or_eq_true, beq_iff_eq] at hb
    rcases hb with ((rfl | rfl) | rfl) | rfl <;> decide

theorem renders_natural (n : UInt64) :
    Renders n.toNat.repr [.number (naturalText n.toNat)] :=
  fun _ _ hends h => .natural _ hends h

theorem renders_quote (s : String) : Renders (quote s) [.string (piecesOfText s)] :=
  fun _ _ _ h => .string s h

theorem renders_word (w : Word) (htext : Bytes.ofText text = w.bytes) :
    Renders text [.word w] := by
  intro rest more _ h
  rw [htext]
  exact .word w h

theorem renders_empty : Renders "" [] := by
  intro rest more _ h
  rw [Bytes.ofText_eq]
  exact h

/-- Texts in a row, with a comma between any two. -/
theorem Renders.intercalate (hseparator : Marks separator .comma)
    (h : List.Forall₂ Renders texts lists) :
    Renders (separator.intercalate texts) ([.comma].intercalate lists) := by
  induction h with
  | nil =>
    rw [String.intercalate_nil, List.intercalate_nil]
    exact renders_empty
  | @cons text found texts lists htext htexts ih =>
    intro rest more hends hrest
    cases htexts with
    | nil =>
      rw [String.intercalate_singleton, List.intercalate_singleton]
      exact htext rest more hends hrest
    | cons _ _ =>
      -- the separator ends what comes before it, be it a number
      obtain ⟨hends', hrest'⟩ := hseparator _ _ (ih rest more hends hrest)
      rw [String.intercalate_cons_cons, List.intercalate_cons_cons, Bytes.ofText_append,
        Bytes.ofText_append, List.append_assoc, List.append_assoc, List.append_assoc,
        List.append_assoc]
      exact htext _ _ hends' hrest'

/-- A text between two brackets. -/
theorem Renders.bracketed (h : Renders text found) (hopening : Marks opening first)
    (hclosing : Marks closing last) :
    Renders (opening ++ text ++ closing) (first :: (found ++ [last])) := by
  intro rest more _ hrest
  obtain ⟨hends, hlast⟩ := hclosing rest more hrest
  rw [Bytes.ofText_append, Bytes.ofText_append, List.append_assoc, List.append_assoc,
    List.cons_append, List.append_assoc]
  exact (hopening _ _ (h _ _ hends hlast)).2

/-- A key with a text after it. -/
theorem Renders.member (h : Renders text found) (hcolon : Marks colon .colon) (key : String) :
    Renders (quote key ++ colon ++ text) (.string (piecesOfText key) :: .colon :: found) := by
  intro rest more hends hrest
  rw [Bytes.ofText_append, Bytes.ofText_append, List.append_assoc, List.append_assoc]
  exact .string key (hcolon _ _ (h rest more hends hrest)).2

theorem ofText_newline : Bytes.ofText "\n" = [0x0a] := by
  rw [Bytes.ofText_eq]
  decide

/-- A line break with its indentation is blank. -/
theorem isBlank_lineBreak (level : Nat) :
    ∀ b ∈ Bytes.ofText (lineBreak level), isBlank b = true := by
  have hspace : String.utf8EncodeChar ' ' = [0x20] := by decide
  rw [lineBreak, Bytes.ofText_append, ofText_newline, Bytes.ofText_ofList]
  intro b hb
  simp only [List.singleton_append, List.mem_cons, List.mem_flatMap, List.mem_replicate] at hb
  rcases hb with rfl | ⟨_, ⟨-, rfl⟩, hb⟩
  · rfl
  · rw [hspace, List.mem_singleton] at hb
    rw [hb]
    rfl

/-- **Lines** between two brackets. -/
theorem Renders.indentedBlock (h : List.Forall₂ Renders texts lists)
    (hopening : Marks opening first) (hclosing : Marks closing last) (level : Nat) :
    Renders (indentedBlock level opening closing texts)
      (first :: ([.comma].intercalate lists ++ [last])) := by
  have hcomma : Marks "," .comma := marks_ascii (c := ',') (by decide) rfl
  cases h with
  | nil =>
    have hbracketed := renders_empty.bracketed hopening hclosing
    rwa [String.append_empty] at hbracketed
  | cons htext htexts =>
    have hlines := Renders.intercalate (hcomma.append_blanks (isBlank_lineBreak (level + 1)))
      (.cons htext htexts)
    have hbracketed := hlines.bracketed (hopening.append_blanks (isBlank_lineBreak (level + 1)))
      (hclosing.blanks_append (isBlank_lineBreak level))
    rwa [← String.append_assoc] at hbracketed

end Layouts

/-- **Laid out**: both layouts of the value render the tokens of its tree. -/
def IsLaidOut (j : Json) : Prop :=
  ∀ t, j.tree? = some t →
    Renders (compact j) t.tokens ∧ ∀ level, Renders (indented level j) t.tokens

section Values

variable {items : List Json} {members : List (String × Json)} {trees : List Tree}
  {memberTrees : List (List Piece × Tree)}

theorem forall₂_items (h : ∀ j ∈ items, j.IsLaidOut) (htrees : itemTrees? items = some trees) :
    List.Forall₂ Renders (compactItems items) (itemTokens trees) ∧
      ∀ level, List.Forall₂ Renders (indentedItems level items) (itemTokens trees) := by
  induction items generalizing trees with
  | nil =>
    cases htrees
    exact ⟨.nil, fun _ => .nil⟩
  | cons j items ih =>
    obtain ⟨hj, hitems⟩ := List.forall_mem_cons.mp h
    obtain ⟨t, ht, hsome⟩ := Option.bind_eq_some_iff.mp htrees
    obtain ⟨rest, hrest, hcons⟩ := Option.bind_eq_some_iff.mp hsome
    cases hcons
    obtain ⟨hcompact, hindented⟩ := hj t ht
    obtain ⟨hcompacts, hindenteds⟩ := ih hitems hrest
    exact ⟨.cons hcompact hcompacts, fun level => .cons (hindented level) (hindenteds level)⟩

theorem forall₂_members (h : ∀ member ∈ members, member.2.IsLaidOut)
    (htrees : memberTrees? members = some memberTrees) :
    List.Forall₂ Renders (compactMembers members) (memberTokens memberTrees) ∧
      ∀ level, List.Forall₂ Renders (indentedMembers level members)
        (memberTokens memberTrees) := by
  have hcolon : Marks ":" .colon := marks_ascii (c := ':') (by decide) rfl
  have hblank : Bytes.ofText " " = [0x20] := by
    rw [Bytes.ofText_eq]
    rfl
  have hspace : ∀ b ∈ Bytes.ofText " ", isBlank b = true := by
    rw [hblank, List.forall_mem_singleton]
    rfl
  have hcolon' : Marks ": " .colon := hcolon.append_blanks hspace
  induction members generalizing memberTrees with
  | nil =>
    cases htrees
    exact ⟨.nil, fun _ => .nil⟩
  | cons member members ih =>
    obtain ⟨key, j⟩ := member
    obtain ⟨hj, hmembers⟩ := List.forall_mem_cons.mp h
    obtain ⟨t, ht, hsome⟩ := Option.bind_eq_some_iff.mp htrees
    obtain ⟨rest, hrest, hcons⟩ := Option.bind_eq_some_iff.mp hsome
    cases hcons
    obtain ⟨hcompact, hindented⟩ := hj t ht
    obtain ⟨hcompacts, hindenteds⟩ := ih hmembers hrest
    exact ⟨.cons (hcompact.member hcolon key) hcompacts,
      fun level => .cons ((hindented level).member hcolon' key) (hindenteds level)⟩

theorem isLaidOut_array (h : ∀ j ∈ items, j.IsLaidOut) : (Json.array items).IsLaidOut := by
  intro t ht
  obtain ⟨trees, htrees, rfl⟩ := Option.map_eq_some_iff.mp ht
  have hopening : Marks "[" .beginArray := marks_ascii (c := '[') (by decide) rfl
  have hclosing : Marks "]" .endArray := marks_ascii (c := ']') (by decide) rfl
  have hcomma : Marks "," .comma := marks_ascii (c := ',') (by decide) rfl
  obtain ⟨hcompacts, hindenteds⟩ := forall₂_items h htrees
  exact ⟨(Renders.intercalate hcomma hcompacts).bracketed hopening hclosing,
    fun level => .indentedBlock (hindenteds (level + 1)) hopening hclosing level⟩

theorem isLaidOut_object (h : ∀ member ∈ members, member.2.IsLaidOut) :
    (Json.object members).IsLaidOut := by
  intro t ht
  obtain ⟨trees, htrees, rfl⟩ := Option.map_eq_some_iff.mp ht
  have hopening : Marks "\x7b" .beginObject := marks_ascii (c := '\x7b') (by decide) rfl
  have hclosing : Marks "\x7d" .endObject := marks_ascii (c := '\x7d') (by decide) rfl
  have hcomma : Marks "," .comma := marks_ascii (c := ',') (by decide) rfl
  obtain ⟨hcompacts, hindenteds⟩ := forall₂_members h htrees
  exact ⟨(Renders.intercalate hcomma hcompacts).bracketed hopening hclosing,
    fun level => .indentedBlock (hindenteds (level + 1)) hopening hclosing level⟩

/-- A value in one piece is laid out in one way only. -/
theorem isLaidOut_plain {j : Json} (hlayout : ∀ level, indented level j = compact j)
    (h : ∀ t, j.tree? = some t → Renders (compact j) t.tokens) : j.IsLaidOut :=
  fun t ht => ⟨h t ht, fun level => hlayout level ▸ h t ht⟩

end Values

/-- **Both layouts render every value** whose numbers are natural. -/
theorem isLaidOut : ∀ j : Json, j.IsLaidOut
  | .null => isLaidOut_plain (fun _ => rfl) fun t ht => by
      cases ht
      exact renders_word .null (by rw [Bytes.ofText_eq]; decide)
  | .bool true => isLaidOut_plain (fun _ => rfl) fun t ht => by
      cases ht
      exact renders_word .true (by rw [Bytes.ofText_eq]; decide)
  | .bool false => isLaidOut_plain (fun _ => rfl) fun t ht => by
      cases ht
      exact renders_word .false (by rw [Bytes.ofText_eq]; decide)
  | .number (.natural n) => isLaidOut_plain (fun _ => rfl) fun t ht => by
      cases ht
      exact renders_natural n
  | .number (.negative _) => fun _ ht => nomatch ht
  | .number (.double _) => fun _ ht => nomatch ht
  | .string s => isLaidOut_plain (fun _ => rfl) fun t ht => by
      cases ht
      exact renders_quote s
  | .array items => isLaidOut_array fun j hj =>
      have := List.sizeOf_lt_of_mem hj
      j.isLaidOut
  | .object members => isLaidOut_object fun member hmember =>
      have := List.sizeOf_lt_of_mem hmember
      member.2.isLaidOut
termination_by j => sizeOf j
decreasing_by
  · simp_wf
    omega
  · obtain ⟨key, j⟩ := member
    simp_wf
    simp at this
    omega

/-- What renders tokens spells them, if nothing follows. -/
theorem Renders.spells {text : String} {found : List Token} (h : Renders text found) :
    Spells (Bytes.ofText text) found := by
  have hrest := h [] [] (fun _ hb => nomatch hb) .nil
  rwa [List.append_nil, List.append_nil] at hrest

/-- A line of its own may be made of it. -/
theorem Renders.spells_line {text : String} {found : List Token} (h : Renders text found) :
    Spells (Bytes.ofText (text ++ "\n")) found := by
  have hends : Ends [0x0a] := by
    rintro _ ⟨⟩
    decide
  have hline := h [0x0a] [] hends (.blank rfl .nil)
  rwa [List.append_nil, ← ofText_newline, ← Bytes.ofText_append] at hline

end ClusterView.Json
