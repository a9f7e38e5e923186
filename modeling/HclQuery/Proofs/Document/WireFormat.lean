import HclQuery.Document.Decode
import HclQuery.Proofs.Json.Decoding

/-!
# The wire format

Which JSON values are documents, said by what a value stands for and not by what is read in which
order.  A record may be given by place, as the list of its first fields.  Whatever is decoded is a
value of this kind.

Main definitions:

- {lit}`Role`: what a value stands for in a document.
- {lit}`Fits`: a value has the shape of what it stands for.
- {lit}`HasPlaces`: some record inside a value is given by place.

Main results:

- Theorem {lit}`Fits.strict_iff`: a value has the shape without records by place if there are none.
- Theorem {lit}`Document.fits_of_decode`: what is decoded has the shape of a document.
-/

namespace HclQuery

open Json

/-! ## Shapes -/

/-- What a value stands for in a document. -/
inductive Role where
  | document
  | body
  | blocks
  | block
  | labels
  | attributes
  | text
  deriving DecidableEq, Repr

/-- The names of the fields of a record and what they stand for, in their places. -/
def Role.fields : Role → List (String × Role)
  | .document => [("body", .body)]
  | .body => [("blocks", .blocks)]
  | .block => [("type", .text), ("labels", .labels), ("attributes", .attributes), ("body", .body)]
  | .blocks | .labels | .attributes | .text => []

/-- A value has the shape of what it stands for, where records may be given by place if
`places` is set.  A field that is missing or null has every shape, and members of other names may be
anything. -/
inductive Fits (places : Bool) : Role → Value → Prop where
  | text (body : List UInt8) : Fits places .text (.string body)
  | labels {vs : List Value} (h : ∀ v ∈ vs, Fits places .text v) : Fits places .labels (.list vs)
  | attributes {ms : List (List UInt8 × Value)} (h : ∀ m ∈ ms, Fits places .text m.2) :
    Fits places .attributes (.object ms)
  | blocks {vs : List Value} (h : ∀ v ∈ vs, Fits places .block v) : Fits places .blocks (.list vs)
  | members {role : Role} {ms : List (List UInt8 × Value)} (hrole : role.fields ≠ [])
    (h : ∀ m ∈ ms, ∀ f ∈ role.fields, keyName? m.1 = some f.1 → m.2 ≠ .null →
      Fits places f.2 m.2) : Fits places role (.object ms)
  | places {role : Role} {vs : List Value} (hrole : role.fields ≠ []) (hplaces : places = true)
    (hlength : vs.length ≤ role.fields.length)
    (h : ∀ p ∈ role.fields.zip vs, p.2 ≠ .null → Fits places p.1.2 p.2) :
    Fits places role (.list vs)

/-- Some record inside a value is given by place, where it is read as a field. -/
inductive HasPlaces : Role → Value → Prop where
  | here {role : Role} {vs : List Value} (hrole : role.fields ≠ []) : HasPlaces role (.list vs)
  | block {vs : List Value} {v : Value} (hv : v ∈ vs) (h : HasPlaces .block v) :
    HasPlaces .blocks (.list vs)
  | member {role : Role} {ms : List (List UInt8 × Value)} {m : List UInt8 × Value}
    {f : String × Role} (hm : m ∈ ms) (hf : f ∈ role.fields) (hname : keyName? m.1 = some f.1)
    (h : HasPlaces f.2 m.2) : HasPlaces role (.object ms)

/-- A null has no records. -/
theorem not_hasPlaces_null (role : Role) : ¬HasPlaces role .null := by
  intro h
  generalize hv : Value.null = v at h
  cases h <;> cases hv

theorem not_hasPlaces_text (v : Value) : ¬HasPlaces .text v := by
  intro h
  cases h with
  | here hrole => exact hrole rfl
  | member _ hf => cases hf

/-- A value that fits without records by place has none. -/
theorem Fits.not_hasPlaces {role : Role} {v : Value} (h : Fits false role v) :
    ¬HasPlaces role v := by
  induction h with
  | text body => exact nofun
  | labels h ih =>
    intro hplaces
    cases hplaces with
    | here hrole => exact hrole rfl
  | attributes h ih =>
    intro hplaces
    cases hplaces with
    | member _ hf => cases hf
  | blocks h ih =>
    intro hplaces
    cases hplaces with
    | here hrole => exact hrole rfl
    | block hv hplaces => exact ih _ hv hplaces
  | members hrole h ih =>
    intro hplaces
    cases hplaces with
    | @member _ _ m f hm hf hname hplaces =>
      have hnull : m.2 ≠ .null := fun hnull => not_hasPlaces_null f.2 (hnull ▸ hplaces)
      exact ih m hm f hf hname hnull hplaces
  | places _ hplaces => cases hplaces

/-- A value without records by place that fits with them also fits without. -/
theorem Fits.strict {role : Role} {v : Value} (h : Fits true role v) (hv : ¬HasPlaces role v) :
    Fits false role v := by
  induction h with
  | text body => exact .text body
  | labels h ih => exact .labels fun v hmem => ih v hmem (not_hasPlaces_text v)
  | attributes h ih => exact .attributes fun m hm => ih m hm (not_hasPlaces_text m.2)
  | blocks h ih => exact .blocks fun v hmem => ih v hmem fun hplaces => hv (.block hmem hplaces)
  | members hrole h ih =>
    refine .members hrole fun m hm f hf hname hnull => ?_
    exact ih m hm f hf hname hnull fun hplaces => hv (.member hm hf hname hplaces)
  | places hrole => exact absurd (.here hrole) hv

/-- A value has the shape without records by place just when there are none. -/
theorem Fits.strict_iff {role : Role} {v : Value} (h : Fits true role v) :
    Fits false role v ↔ ¬HasPlaces role v :=
  ⟨Fits.not_hasPlaces, h.strict⟩

/-! ## What is decoded -/

/-- A field has the shape of what it stands for if it is not null. -/
def FieldFits (f : String × Role) (v : Value) : Prop :=
  v ≠ .null → Fits true f.2 v

/-- What is read as a record has its shape. -/
theorem takes_roleRecord {α σ : Type} {role : Role} (hrole : role.fields ≠ [])
    {byPlace : Reader α} {member : σ → String → Reader σ}
    (hplace : ∀ {s x t r}, byPlace s = .ok (x, t) → endList t = .ok r →
      Places FieldFits role.fields true s r)
    (hmember : TakesMembers member fun name v => ∀ f ∈ role.fields, name = f.1 → FieldFits f v)
    (expected : String) (start : σ) (build : σ → α) :
    Takes (record expected byPlace member start build) (Fits true role) := by
  intro s x r h
  rcases takes_record hplace hmember expected start build h with
    ⟨v, hv, ⟨vs, rfl, hlength, hfits⟩ | ⟨ms, rfl, hnamed⟩⟩
  · exact ⟨_, hv, .places hrole rfl hlength hfits⟩
  · refine ⟨_, hv, .members hrole fun m hm f hf hname => ?_⟩
    rcases hnamed m hm with ⟨name, hkey, hfits⟩
    exact hfits f hf (Option.some.inj (hkey.symm.trans hname))

/-- A record with one field takes members that fit that field, and members of other names. -/
theorem takesMembers_soleMember {α : Type} {name : String} {role : Role} {value : Reader α}
    (default : α) (hvalue : Takes value (Fits true role)) :
    TakesMembers (soleMember name default value) fun key v =>
      ∀ f ∈ [(name, role)], key = f.1 → FieldFits f v := by
  intro before after key s r h
  unfold soleMember at h
  split at h
  · rcases field_eq_ok (takes_orDefault default hvalue) h with ⟨v, t, ht, hv, hfits⟩
    refine ⟨v, t, ht, hv, fun f hf _ => ?_⟩
    rw [List.mem_singleton.1 hf]
    exact hfits
  · next hkey =>
    rcases ignored_eq_ok h with ⟨v, t, ht, hv⟩
    refine ⟨v, t, ht, hv, fun f hf hname => ?_⟩
    rw [List.mem_singleton.1 hf] at hname
    exact absurd hname hkey

/-- What is read as a record with one field has its shape. -/
theorem takes_soleRecord {α : Type} {name : String} {role field : Role} {value : Reader α}
    (hrole : role.fields = [(name, field)]) (hvalue : Takes value (Fits true field))
    (expected : String) (default : α) :
    Takes (soleRecord expected name default value) (Fits true role) := by
  have hfield : Takes (orDefault default value) (FieldFits (name, field)) :=
    takes_orDefault default hvalue
  refine takes_roleRecord (by simp [hrole]) (fun hread hend => ?_) ?_ expected none _
  · rw [hrole]
    exact positional_eq_ok hfield hread (places_of_endList _ _ _ hend)
  · rw [hrole]
    exact takesMembers_soleMember default hvalue

/-- A value is taken as a text only if it is a string. -/
theorem takes_text : Takes stringValue (Fits true .text) := by
  intro s x r h
  rcases takes_stringValue h with ⟨v, hv, body, rfl⟩
  exact ⟨_, hv, .text body⟩

/-- A value is taken as attributes only if it is an object of texts. -/
theorem takes_attributes (levels : Nat) :
    Takes (Attributes.read levels) (Fits true .attributes) := by
  cases levels with
  | zero => exact takes_refuseBracket _ _ _
  | succ levels =>
    have hmember : TakesMembers Attributes.member fun _ => Fits true .text := by
      intro before after name s r h
      unfold Attributes.member at h
      split at h
      · cases h
      next raw t hraw =>
      cases h
      exact memberValue_eq_ok takes_text hraw
    intro s x r h
    rcases takes_map hmember .empty h with ⟨v, hv, ms, rfl, hnamed⟩
    refine ⟨_, hv, .attributes fun m hm => ?_⟩
    rcases hnamed m hm with ⟨_, -, htext⟩
    exact htext

/-- A value is taken as labels only if it is a list of texts. -/
theorem takes_labels (levels : Nat) : Takes (readLabels levels) (Fits true .labels) := by
  cases levels with
  | zero => exact takes_refuseBracket _ _ _
  | succ levels =>
    intro s x r h
    rcases takes_list takes_text h with ⟨v, hv, vs, rfl, htexts⟩
    exact ⟨_, hv, .labels htexts⟩

/-- The fields of a block in their places. -/
theorem blockByPosition_eq_ok {levels : Nat} {body : Reader (List Block)}
    (hbody : Takes body (Fits true .body)) {s t r : List UInt8} {b : Block}
    (h : blockByPosition levels body s = .ok (b, t)) (hend : endList t = .ok r) :
    Places FieldFits Role.block.fields true s r := by
  unfold blockByPosition at h
  rcases ok_of_bind h with ⟨⟨kind, s₁⟩, hkind, h⟩
  rcases ok_of_bind h with ⟨⟨labels, s₂⟩, hlabels, h⟩
  rcases ok_of_bind h with ⟨⟨attributes, s₃⟩, hattributes, h⟩
  rcases ok_of_bind h with ⟨⟨blocks, s₄⟩, hblocks, h⟩
  cases h
  -- from the last field to the first: what follows a field is what the fields after it take
  have hdone : Places FieldFits [] false t r := places_of_endList _ _ _ hend
  have hlast : Places FieldFits (Role.block.fields.drop 3) false s₃ r :=
    positional_eq_ok (takes_orDefault _ hbody) hblocks hdone
  have hlater : Places FieldFits (Role.block.fields.drop 2) false s₂ r :=
    positional_eq_ok (takes_orDefault _ (takes_attributes levels)) hattributes hlast
  have hrest : Places FieldFits (Role.block.fields.drop 1) false s₁ r :=
    positional_eq_ok (takes_orDefault _ (takes_labels levels)) hlabels hlater
  exact positional_eq_ok (takes_orDefault _ takes_text) hkind hrest

/-- A field of a block that is read has the shape that goes with its name, which no other field
has. -/
theorem blockField_eq_ok {α σ : Type} {f : String × Role} (hf : f ∈ Role.block.fields)
    {read : Reader α} (hread : Takes read (Fits true f.2)) {default : α} {before : Option α}
    {store : α → σ} {st : σ} {s r : List UInt8}
    (h : field f.1 before (orDefault default read) store s = .ok (st, r)) :
    ∃ v t, skipSpace s = Byte.colon :: t ∧ Spells v t r ∧
      ∀ g ∈ Role.block.fields, f.1 = g.1 → FieldFits g v := by
  have hnames : ∀ f ∈ Role.block.fields, ∀ g ∈ Role.block.fields, f.1 = g.1 → g = f := by decide
  rcases field_eq_ok (takes_orDefault default hread) h with ⟨v, t, ht, hv, hfits⟩
  refine ⟨v, t, ht, hv, fun g hg hname => ?_⟩
  rw [hnames f hf g hg hname]
  exact hfits

/-- A block takes members that fit its fields, and members of other names. -/
theorem takesMembers_blockMember {levels : Nat} {body : Reader (List Block)}
    (hbody : Takes body (Fits true .body)) :
    TakesMembers (blockMember levels body) fun name v =>
      ∀ f ∈ Role.block.fields, name = f.1 → FieldFits f v := by
  intro before after name s r h
  unfold blockMember at h
  split at h
  · next hname =>
    subst hname
    exact blockField_eq_ok (f := ("type", .text)) (by decide) takes_text h
  split at h
  · next hname =>
    subst hname
    exact blockField_eq_ok (f := ("labels", .labels)) (by decide) (takes_labels levels) h
  split at h
  · next hname =>
    subst hname
    exact blockField_eq_ok (f := ("attributes", .attributes)) (by decide)
      (takes_attributes levels) h
  split at h
  · next hname =>
    subst hname
    exact blockField_eq_ok (f := ("body", .body)) (by decide) hbody h
  next htype hlabels hattributes hbody =>
  rcases ignored_eq_ok h with ⟨v, t, ht, hv⟩
  have hnone : ∀ f ∈ Role.block.fields, name ≠ f.1 := by
    simp [Role.fields, htype, hlabels, hattributes, hbody]
  exact ⟨v, t, ht, hv, fun f hf hfield => absurd hfield (hnone f hf)⟩

mutual

/-- A value is taken as a body only if it has the shape of one. -/
theorem takes_body : ∀ levels, Takes (readBody levels) (Fits true .body)
  | 0 => takes_refuseBracket _ _ _
  | n + 1 => takes_soleRecord rfl (takes_blocks n) _ _

/-- A value is taken as blocks only if it has the shape of a list of them. -/
theorem takes_blocks : ∀ levels, Takes (readBlocks levels) (Fits true .blocks)
  | 0 => takes_refuseBracket _ _ _
  | n + 1 => by
    intro s x r h
    rcases takes_list (takes_block n) h with ⟨v, hv, vs, rfl, hfits⟩
    exact ⟨_, hv, .blocks hfits⟩

/-- A value is taken as a block only if it has the shape of one. -/
theorem takes_block : ∀ levels, Takes (readBlock levels) (Fits true .block)
  | 0 => takes_refuseBracket _ _ _
  | n + 1 =>
    takes_roleRecord (by decide) (blockByPosition_eq_ok (takes_body n))
      (takesMembers_blockMember (takes_body n)) _ _ _

end

/-- A value is taken as a document only if it has the shape of one. -/
theorem takes_document (levels : Nat) : Takes (readDocument levels) (Fits true .document) := by
  cases levels with
  | zero => exact takes_refuseBracket _ _ _
  | succ n =>
    intro s x r h
    unfold readDocument at h
    simp only at h
    split at h
    · cases h
    next blocks t hblocks =>
    cases h
    exact takes_soleRecord rfl (takes_body n) _ _ hblocks

/-- What is decoded is the text of one value, which has the shape of a document. -/
theorem Document.fits_of_decode {s : List UInt8} {d : Document} (h : Document.decode s = .ok d) :
    ∃ v, IsText v s ∧ Fits true .document v :=
  whole?_eq_ok (takes_document maxNesting) h

end HclQuery
