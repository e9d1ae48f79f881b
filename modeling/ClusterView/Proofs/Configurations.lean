import ClusterView.Config.Text
import ClusterView.Proofs.Printing

/-!
# Configurations in JSON

A configuration that is written as JSON is read back, whichever of its fields are written and
in whatever order: a field that is left out has its default. The numbers may be any of 64 bits,
as values and as the ranks that the overrides are listed by, and the text may be laid out in any
way.

## Sections
- §1: Fields
- §2: Numbers and ranks
- §3: Overrides
- §4: Drafts
- §5: Whole configurations
-/

namespace ClusterView

namespace Config

/-! ## §1 Fields -/

/-- **Field** of a configuration. -/
inductive Field where
  | participants
  | memoryPerParticipant
  | memoryOverrides
  | maxParticipants
deriving DecidableEq

/-- All fields, in order. -/
def Field.all : List Field :=
  [.participants, .memoryPerParticipant, .memoryOverrides, .maxParticipants]

def Field.name : Field → String
  | .participants => "participants"
  | .memoryPerParticipant => "memory_per_participant"
  | .memoryOverrides => "memory_overrides"
  | .maxParticipants => "max_participants"

/-- The JSON value of a field. -/
def Field.value (c : Config) : Field → Json
  | .participants => .natural c.participants
  | .memoryPerParticipant => .natural c.memoryPerParticipant
  | .memoryOverrides =>
      .object (c.memoryOverrides.entries.map fun e => (e.1.toNat.repr, .natural e.2))
  | .maxParticipants => .natural c.maxParticipants

/-- **Excerpt** of a configuration: some of its fields, in the order given. -/
def excerpt (c : Config) (written : List Field) : Json :=
  .object (written.map fun field => (field.name, field.value c))

/-- **What an excerpt keeps** of a configuration: the fields that were written, with defaults
for the others. -/
def keeping (c : Config) (written : List Field) : Config where
  participants := if .participants ∈ written then c.participants else standard.participants
  memoryPerParticipant :=
    if .memoryPerParticipant ∈ written then c.memoryPerParticipant
    else standard.memoryPerParticipant
  memoryOverrides :=
    if .memoryOverrides ∈ written then c.memoryOverrides else standard.memoryOverrides
  maxParticipants :=
    if .maxParticipants ∈ written then c.maxParticipants else standard.maxParticipants

/-- A configuration is written with all its fields. -/
theorem toJson_eq (c : Config) : c.toJson = c.excerpt Field.all := rfl

/-- Nothing is lost of a configuration that is written with all its fields. -/
theorem keeping_all (c : Config) : c.keeping Field.all = c := rfl

/-! ## §2 Numbers and ranks -/

/-- The tree of a natural number. -/
def naturalTree (n : UInt64) : Json.Tree := .number (Json.naturalText n.toNat)

theorem natural?_naturalTree (n : UInt64) : (naturalTree n).natural? = some n := by
  simp only [naturalTree, Json.Tree.natural?, Json.Number.ofText_naturalText]

/-- A decimal number in quotes is read as its digits. -/
theorem piecesOfText_repr (n : Nat) :
    Json.piecesOfText n.repr = (Json.decimal n).map fun d => .byte (Json.digitByte d) :=
  Json.flatMap_repr (by decide) n

/-- **Ranks as keys**: the decimal digits of a rank name it. -/
theorem rankOfKey?_repr (rank : UInt64) :
    rankOfKey? (Json.piecesOfText rank.toNat.repr) = some rank := by
  have hvalue := Json.valueOfDigits_decimal rank.toNat
  have hsize : rank.toNat < UInt64.size := rank.toNat_lt_size
  rw [piecesOfText_repr, rankOfKey?,
    Json.mapM_decimal (fun d => Json.Piece.byte (Json.digitByte d)) Json.digit?_digitByte,
    Option.bind_eq_bind, Option.bind_some]
  rcases Json.decimal_cases rank.toNat with ⟨-, hdigits⟩ | ⟨d, rest, hd, hdigits⟩
  · rw [hdigits] at hvalue ⊢
    simp only [hvalue, hsize, if_true, UInt64.ofNat_toNat]
  · cases d with
    | zero => exact absurd hd (Nat.lt_irrefl 0)
    | succ d =>
      rw [hdigits] at hvalue ⊢
      simp only [hvalue, hsize, if_true, UInt64.ofNat_toNat]

/-! ## §3 Overrides -/

/-- The tree of the overrides. -/
def overridesTree (entries : List (UInt64 × UInt64)) : Json.Tree :=
  .object (entries.map fun e => (Json.piecesOfText e.1.toNat.repr, naturalTree e.2))

/-- An entry beyond all others goes to the end. -/
theorem insertEntry_of_forall_lt {rank memory : UInt64} {entries : List (UInt64 × UInt64)}
    (h : ∀ e ∈ entries, e.1 < rank) :
    Overrides.insertEntry rank memory entries = entries ++ [(rank, memory)] := by
  induction entries with
  | nil => rfl
  | cons e entries ih =>
    obtain ⟨r, m⟩ := e
    obtain ⟨hr, hentries⟩ := List.forall_mem_cons.mp h
    have hnot : ¬ rank < r := UInt64.lt_asymm hr
    have hne : rank ≠ r := Ne.symm (UInt64.ne_of_lt hr)
    rw [Overrides.insertEntry, if_neg hnot, if_neg hne, ih hentries, List.cons_append]

/-- Overrides are read one after the other, in ascending order. -/
theorem overridesOfMembers_entries {entries : List (UInt64 × UInt64)} {sofar whole : Overrides}
    (h : whole.entries = sofar.entries ++ entries) :
    overridesOfMembers sofar
        (entries.map fun e => (Json.piecesOfText e.1.toNat.repr, naturalTree e.2)) =
      some whole := by
  induction entries generalizing sofar with
  | nil =>
    rw [List.append_nil] at h
    obtain ⟨_, _⟩ := sofar
    obtain ⟨_, _⟩ := whole
    cases h
    rfl
  | cons e entries ih =>
    obtain ⟨rank, memory⟩ := e
    have hascending := whole.ascending
    rw [h] at hascending
    have hlt : ∀ e ∈ sofar.entries, e.1 < rank := fun e he =>
      (List.pairwise_append.mp hascending).2.2 e he _ (List.mem_cons_self ..)
    have hinsert : (sofar.insert rank memory).entries = sofar.entries ++ [(rank, memory)] :=
      insertEntry_of_forall_lt hlt
    have hwhole : whole.entries = (sofar.insert rank memory).entries ++ entries := by
      rw [h, hinsert, List.append_assoc, List.singleton_append]
    simp only [List.map_cons, overridesOfMembers, rankOfKey?_repr, natural?_naturalTree, bind,
      Option.bind]
    exact ih hwhole

/-- **Overrides survive**. -/
theorem overridesOfTree?_overridesTree (o : Overrides) :
    overridesOfTree? (overridesTree o.entries) = some o :=
  overridesOfMembers_entries rfl

/-! ## §4 Drafts -/

/-- The tree of a field. -/
def Field.tree (c : Config) : Field → Json.Tree
  | .participants => naturalTree c.participants
  | .memoryPerParticipant => naturalTree c.memoryPerParticipant
  | .memoryOverrides => overridesTree c.memoryOverrides.entries
  | .maxParticipants => naturalTree c.maxParticipants

theorem Field.tree?_value (c : Config) (field : Field) :
    (field.value c).tree? = some (field.tree c) := by
  cases field with
  | participants => rfl
  | memoryPerParticipant => rfl
  | memoryOverrides =>
    have hentries : ∀ e ∈ c.memoryOverrides.entries,
        (Json.natural e.2).tree? = some (naturalTree e.2) := fun _ _ => rfl
    rw [Field.value, Json.tree?, Json.memberTrees?_map (fun e => e.1.toNat.repr) hentries]
    rfl
  | maxParticipants => rfl

/-- **The tree of an excerpt**. -/
def excerptTree (c : Config) (written : List Field) : Json.Tree :=
  .object (written.map fun field => (Json.piecesOfText field.name, field.tree c))

theorem tree?_excerpt (c : Config) (written : List Field) :
    (c.excerpt written).tree? = some (c.excerptTree written) := by
  rw [excerpt, Json.tree?, Json.memberTrees?_map Field.name fun field _ => field.tree?_value c]
  rfl

/-- **The draft** of which some fields have been read. -/
def Draft.reading (c : Config) (read : List Field) : Draft where
  participants := if .participants ∈ read then some c.participants else none
  memoryPerParticipant :=
    if .memoryPerParticipant ∈ read then some c.memoryPerParticipant else none
  memoryOverrides := if .memoryOverrides ∈ read then some c.memoryOverrides else none
  maxParticipants := if .maxParticipants ∈ read then some c.maxParticipants else none

/-- **Step lemma**: one field more is read. -/
theorem Draft.field_reading {c : Config} {field : Field} {read : List Field}
    (h : field ∉ read) :
    (Draft.reading c read).field field.name (field.tree c) =
      some (Draft.reading c (field :: read)) := by
  cases field with
  | participants =>
    simp [Draft.field, Draft.reading, Field.name, Field.tree, h, natural?_naturalTree]
  | memoryPerParticipant =>
    simp [Draft.field, Draft.reading, Field.name, Field.tree, h, natural?_naturalTree]
  | memoryOverrides =>
    simp [Draft.field, Draft.reading, Field.name, Field.tree, h, overridesOfTree?_overridesTree]
  | maxParticipants =>
    simp [Draft.field, Draft.reading, Field.name, Field.tree, h, natural?_naturalTree]

/-- **Run lemma**: all fields that were written are read. -/
theorem Draft.fields_reading (c : Config) {written read : List Field}
    (h : (written.reverse ++ read).Nodup) :
    (Draft.reading c read).fields
        (written.map fun field => (Json.piecesOfText field.name, field.tree c)) =
      some (Draft.reading c (written.reverse ++ read)) := by
  induction written generalizing read with
  | nil => rfl
  | cons field written ih =>
    rw [List.reverse_cons, List.append_assoc, List.singleton_append] at h ⊢
    have hnew : field ∉ read := (List.nodup_cons.mp (List.nodup_append.mp h).2.1).1
    have hname : Json.textOfPieces (Json.piecesOfText field.name) = some field.name :=
      Json.textOfPieces_piecesOf field.name
    simp only [List.map_cons, Draft.fields, hname, Draft.field_reading hnew, bind, Option.bind]
    exact ih h

theorem Draft.toConfig_reading (c : Config) (written : List Field) :
    (Draft.reading c written.reverse).toConfig = c.keeping written := by
  have hdefault : ∀ {α : Type} {p : Prop} [Decidable p] (kept default : α),
      (if p then some kept else none).getD default = if p then kept else default := by
    intro α p _ kept default
    split <;> rfl
  simp only [Draft.toConfig, Draft.reading, keeping, List.mem_reverse, hdefault]

/-! ## §5 Whole configurations -/

/-- **Reading an excerpt**, in any layout. -/
theorem ofText_of_spells {c : Config} {written : List Field} (h : written.Nodup) {text : String}
    (htext : Json.Spells (Bytes.ofText text) (c.excerptTree written).tokens) :
    ofText text = .ok (c.keeping written) := by
  have hread : ofTree? (c.excerptTree written) = some (c.keeping written) := by
    have hnew : (written.reverse ++ []).Nodup := by
      rwa [List.append_nil, List.nodup_reverse]
    have hfields := Draft.fields_reading c hnew
    rw [List.append_nil] at hfields
    show ((Draft.reading c []).fields _).map Draft.toConfig = _
    rw [hfields, Option.map_some, Draft.toConfig_reading]
  rw [ofText, Json.Tree.ofBytes?_of_spells htext, Option.bind_some, hread]

/-- Reading an excerpt without blanks. -/
theorem ofText_excerpt (c : Config) {written : List Field} (h : written.Nodup) :
    ofText (c.excerpt written).compact = .ok (c.keeping written) :=
  ofText_of_spells h ((c.excerpt written).isLaidOut _ (tree?_excerpt c written)).1.spells

/-- **Reading a whole configuration**. -/
theorem ofText_toJson (c : Config) : ofText c.toJson.compact = .ok c := by
  rw [toJson_eq, ofText_excerpt c (by decide), keeping_all]

/-- A file with a configuration is read. -/
theorem ofFile_toJson (c : Config) : ofFile (.ok (Bytes.ofText c.toJson.compact)) = .ok c := by
  rw [← ofText_toJson c, ofFile]
  simp only [Bytes.toText?_ofText]

/-- **Configurations survive JSON**. What is written of a configuration, all of it or some
fields in some order, is read as the configuration that has these fields, with defaults for the
others; and so is every other text that has the same tokens, whatever blanks are between them. -/
theorem survives_json :
    (∀ c : Config, ofText c.toJson.compact = .ok c) ∧
      ∀ (c : Config) (written : List Field), written.Nodup →
        ofText (c.excerpt written).compact = .ok (c.keeping written) ∧
          (∀ level, ofText ((c.excerpt written).indented level) = .ok (c.keeping written)) ∧
          ∀ text : String, Json.Spells (Bytes.ofText text) (c.excerptTree written).tokens →
            ofText text = .ok (c.keeping written) := by
  refine ⟨ofText_toJson, fun c written h =>
    ⟨ofText_excerpt c h, fun level => ?_, fun text => ofText_of_spells h⟩⟩
  have hlaid := (c.excerpt written).isLaidOut _ (tree?_excerpt c written)
  exact ofText_of_spells h (hlaid.2 level).spells

/-- Two fields of three participants, of which the last has an amount of memory of its own. -/
def uneven : Config :=
  { standard with participants := 3, memoryOverrides := Overrides.empty.insert 2 512 }

/-- The overrides are written before the number of participants, and then the latter alone, with
blanks. -/
theorem survives_json_partial :
    let spaced := "\x7b\n\"participants\" : 3\x7d"
    [Field.memoryOverrides, .participants].Nodup ∧
      ofText (uneven.excerpt [.memoryOverrides, .participants]).compact = .ok uneven ∧
      Json.Spells (Bytes.ofText spaced) (uneven.excerptTree [.participants]).tokens ∧
      ofText spaced = .ok { standard with participants := 3 } := by
  intro spaced
  have hspaced : Bytes.ofText spaced = 0x7b :: 0x0a ::
      (Bytes.ofText (Json.quote "participants") ++
        0x20 :: 0x3a :: 0x20 :: (Bytes.ofText (Nat.repr 3) ++ [0x7d])) := by
    simp only [Bytes.ofText_eq]
    decide
  have hends : Json.Ends [0x7d] := by
    rintro _ ⟨⟩
    decide
  have hspells : Json.Spells (Bytes.ofText spaced) (uneven.excerptTree [.participants]).tokens := by
    rw [hspaced]
    exact .mark rfl (.blank rfl (.string "participants" (.blank rfl (.mark rfl (.blank rfl
      (.natural 3 hends (.mark rfl .nil)))))))
  have htwo : [Field.memoryOverrides, .participants].Nodup := by decide
  refine ⟨htwo, (survives_json.2 uneven _ htwo).1, hspells, ?_⟩
  exact (survives_json.2 uneven [.participants] (by decide)).2.2 spaced hspells

end Config

end ClusterView
