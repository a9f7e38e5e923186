import HclQuery.Proofs.Document.Codec
import Mathlib.Data.List.Nodup
import Mathlib.Logic.Relation

/-!
# Lenient decoding

The value of a document may be changed, at any levels, in ways that do not matter: members may
change places, members of other names may be added, and a field that is empty may be left out or be
null.  Each of these changes leaves what the value denotes as it is, so any text of a value that was
changed in this way, with any blanks between its tokens, is decoded as the document.

Main definitions:

- {lit}`Role.Empty`: a value is an empty field.
- {lit}`Loosened`: one change of a value that does not matter.
- {lit}`Loosens`: any number of them.

Main results:

- Theorem {lit}`Loosened.denotes`: a change leaves what a value denotes as it is.
- Theorem {lit}`Document.decode_loosened`: the document of its loosened texts.
-/

namespace HclQuery

open Json

/-! ## Changes that do not matter -/

/-- A value that is an empty field: an empty type, no labels, no attributes, no blocks, or a body
without blocks. -/
inductive Role.Empty : Role → Value → Prop where
  | text : Empty .text (.string [])
  | labels : Empty .labels (.list [])
  | attributes : Empty .attributes (.object [])
  | blocks : Empty .blocks (.list [])
  | body {ms : List (List UInt8 × Value)}
    (h : ∀ v ∈ valuesOf "blocks" ms, v = .null ∨ v = .list []) : Empty .body (.object ms)

/-- One change of a value, said by what it stands for.  A member that is added, left out or changed
is the first one; it stands there after the members have changed places. -/
inductive Loosened : Role → Value → Value → Prop where
  /-- The members of an object change places. -/
  | reordered {role : Role} {ms ms' : List (List UInt8 × Value)} (h : ms.Perm ms') :
    Loosened role (.object ms) (.object ms')
  /-- A record gets a member with any value, whose key has a name that is none of the fields'. -/
  | unknown {role : Role} {ms : List (List UInt8 × Value)} {key : List UInt8} {name : String}
    (hrole : role.fields ≠ []) (hkey : keyName? key = some name)
    (hname : ∀ f ∈ role.fields, name ≠ f.1) (v : Value) :
    Loosened role (.object ms) (.object ((key, v) :: ms))
  /-- A field that is empty is left out. -/
  | omitted {role : Role} {ms : List (List UInt8 × Value)} {key : List UInt8} {v : Value}
    {f : String × Role} (hf : f ∈ role.fields) (hkey : keyName? key = some f.1)
    (hempty : f.2.Empty v) : Loosened role (.object ((key, v) :: ms)) (.object ms)
  /-- A field that is empty becomes null. -/
  | nulled {role : Role} {ms : List (List UInt8 × Value)} {key : List UInt8} {v : Value}
    {f : String × Role} (hf : f ∈ role.fields) (hkey : keyName? key = some f.1)
    (hempty : f.2.Empty v) :
    Loosened role (.object ((key, v) :: ms)) (.object ((key, .null) :: ms))
  /-- The value of a field is changed. -/
  | field {role : Role} {ms : List (List UInt8 × Value)} {key : List UInt8} {v v' : Value}
    {f : String × Role} (hf : f ∈ role.fields) (hkey : keyName? key = some f.1)
    (h : Loosened f.2 v v') :
    Loosened role (.object ((key, v) :: ms)) (.object ((key, v') :: ms))
  /-- A block in a list is changed. -/
  | block {front back : List Value} {v v' : Value} (h : Loosened .block v v') :
    Loosened .blocks (.list (front ++ v :: back)) (.list (front ++ v' :: back))

/-- Any number of changes. -/
def Loosens (role : Role) : Value → Value → Prop :=
  Relation.ReflTransGen (Loosened role)

namespace Loosens

theorem of_loosened {role : Role} {v w : Value} (h : Loosened role v w) : Loosens role v w :=
  .single h

theorem trans {role : Role} {u v w : Value} (h : Loosens role u v) (h' : Loosens role v w) :
    Loosens role u w :=
  Relation.ReflTransGen.trans h h'

/-- The members of an object may be put in any order. -/
theorem reordered {role : Role} {ms ms' : List (List UInt8 × Value)} (h : ms.Perm ms') :
    Loosens role (.object ms) (.object ms') :=
  .single (.reordered h)

/-- The value of a field is changed any number of times. -/
theorem field {role : Role} {ms : List (List UInt8 × Value)} {key : List UInt8} {v v' : Value}
    {f : String × Role} (hf : f ∈ role.fields) (hkey : keyName? key = some f.1)
    (h : Loosens f.2 v v') :
    Loosens role (.object ((key, v) :: ms)) (.object ((key, v') :: ms)) :=
  h.lift (fun v => Value.object ((key, v) :: ms)) fun _ _ h => Loosened.field hf hkey h

/-- A block in a list is changed any number of times. -/
theorem block {front back : List Value} {v v' : Value} (h : Loosens .block v v') :
    Loosens .blocks (.list (front ++ v :: back)) (.list (front ++ v' :: back)) :=
  h.lift (fun v => Value.list (front ++ v :: back)) fun _ _ h => Loosened.block h

end Loosens

/-! ## What a value denotes does not change -/

/-- Values given under the name of a field denote its content. -/
structure Stands (vs : List Value) (c : Content) : Prop where
  once : vs.length ≤ 1
  empty : (∀ v ∈ vs, v = .null) → c.IsEmpty
  given : ∀ v ∈ vs, v ≠ .null → Denotes v c

/-- A record denotes its content when its keys are names and its members give each field. -/
theorem Denotes.record_iff {c : Content} {ms : List (List UInt8 × Value)}
    (hrecord : c.fields ≠ []) :
    Denotes (.object ms) c ↔ AllNamed ms ∧ ∀ f ∈ c.fields, Stands (valuesOf f.1 ms) f.2 := by
  constructor
  · intro h
    cases h with
    | attributes => exact absurd rfl hrecord
    | record _ hnamed honce hempty hgiven =>
      exact ⟨hnamed, fun f hf => ⟨honce f hf, hempty f hf, hgiven f hf⟩⟩
  · rintro ⟨hnamed, h⟩
    exact .record hrecord hnamed (fun f hf => (h f hf).once) (fun f hf => (h f hf).empty)
      fun f hf => (h f hf).given

namespace Stands

variable {vs vs' : List Value} {v v' : Value} {c : Content}

/-- The order of the values under a name does not matter. -/
theorem of_perm (h : Stands vs c) (hperm : vs.Perm vs') : Stands vs' c where
  once := hperm.length_eq ▸ h.once
  empty hnull := h.empty fun v hv => hnull v (hperm.mem_iff.1 hv)
  given v hv := h.given v (hperm.mem_iff.2 hv)

/-- The value of a field is the only one under its name. -/
theorem rest_eq_nil (h : Stands (v :: vs) c) : vs = [] := by
  have hlength := h.once
  rw [List.length_cons] at hlength
  exact List.length_eq_zero_iff.1 (by omega)

theorem denotes (h : Stands (v :: vs) c) (hv : v ≠ .null) : Denotes v c :=
  h.given v (List.mem_cons_self ..) hv

theorem nil (h : c.IsEmpty) : Stands [] c :=
  ⟨Nat.zero_le 1, fun _ => h, nofun⟩

theorem null (h : c.IsEmpty) : Stands [.null] c :=
  ⟨Nat.le_refl 1, fun _ => h, fun _ hv hnull => absurd (List.mem_singleton.1 hv) hnull⟩

theorem singleton (h : Denotes v c) : Stands [v] c where
  once := Nat.le_refl 1
  empty hnull := absurd (hnull v (List.mem_singleton.2 rfl)) h.ne_null
  given v' hv' _ := by rwa [List.mem_singleton.1 hv']

end Stands

/-- A value that is an empty field denotes empty contents only. -/
theorem Role.Empty.isEmpty {c : Content} {v : Value} (h : c.role.Empty v) (hd : Denotes v c) :
    c.IsEmpty := by
  cases hd with
  | text hx =>
    cases h
    exact Option.some.inj (hx.symm.trans (keyName?_written ""))
  | labels hlength =>
    cases h
    exact List.length_eq_zero_iff.1 hlength.symm
  | @attributes ms m hperm =>
    cases h
    have hentries : m.entries = [] := by simpa using hperm.length_eq.symm
    exact Attributes.eq_of_entries hentries
  | blocks hlength =>
    cases h
    exact List.length_eq_zero_iff.1 hlength.symm
  | @record _ ms hrecord hnamed honce hempty hgiven =>
    cases c with
    | body bs =>
      have hfield : ("blocks", Content.blocks bs) ∈ (Content.body bs).fields :=
        List.mem_singleton.2 rfl
      by_cases hnull : ∀ v ∈ valuesOf "blocks" ms, v = .null
      · exact hempty _ hfield hnull
      · cases h with
        | body h =>
          simp only [not_forall] at hnull
          rcases hnull with ⟨v, hv, hnull⟩
          obtain rfl := (h v hv).resolve_left hnull
          cases hgiven _ hfield _ hv hnull with
          | blocks hlength => exact List.length_eq_zero_iff.1 hlength.symm
    | document | block => cases h
    | blocks | labels | attributes | text => exact absurd rfl hrecord

/-- An empty field is written as something else than null. -/
theorem Role.Empty.ne_null {role : Role} {v : Value} (h : role.Empty v) : v ≠ .null := by
  cases h <;> exact nofun

/-- A null is not changed. -/
theorem Loosened.ne_null {role : Role} {v w : Value} (h : Loosened role v w) : v ≠ .null := by
  cases h <;> exact nofun

/-- A field of what a value stands for is a field of what it denotes. -/
theorem Content.exists_field {c : Content} {f : String × Role} (hf : f ∈ c.role.fields) :
    ∃ g ∈ c.fields, f = (g.1, g.2.role) := by
  rw [c.fields_role] at hf
  rcases List.mem_map.1 hf with ⟨g, hg, rfl⟩
  exact ⟨g, hg, rfl⟩

section

variable {c : Content} {g : String × Content} {key : List UInt8} {v : Value}
  {ms ms' : List (List UInt8 × Value)} (hg : g ∈ c.fields) (hkey : keyName? key = some g.1)
include hg hkey

/-- When the first member is a field, its value and those after it give the field. -/
theorem Denotes.stands_first (h : Denotes (.object ((key, v) :: ms)) c) :
    Stands (v :: valuesOf g.1 ms) g.2 := by
  have hstands := ((Denotes.record_iff (List.ne_nil_of_mem hg)).1 h).2 g hg
  rwa [valuesOf_cons_self hkey] at hstands

/-- When the first member is a field, it may be changed together with what the field denotes. -/
theorem Denotes.replace_first (h : Denotes (.object ((key, v) :: ms)) c)
    (hnamed : AllNamed ms → AllNamed ms')
    (hothers : ∀ name, g.1 ≠ name → valuesOf name ms' = valuesOf name ms)
    (hself : valuesOf g.1 ms = [] → Stands (valuesOf g.1 ms') g.2) : Denotes (.object ms') c := by
  have hfirst := h.stands_first hg hkey
  have hrecord := List.ne_nil_of_mem hg
  rcases (Denotes.record_iff hrecord).1 h with ⟨hall, hfields⟩
  refine (Denotes.record_iff hrecord).2 ⟨hnamed (AllNamed.cons_iff.1 hall).2, fun f hf => ?_⟩
  by_cases hname : g.1 = f.1
  · obtain rfl : g = f := List.inj_on_of_nodup_map c.fields_nodup hg hf hname
    exact hself hfirst.rest_eq_nil
  · have hstands := hfields f hf
    rw [valuesOf_cons_of_ne hkey hname] at hstands
    rwa [hothers f.1 hname]

end

/-- A list of a given length splits where another one does. -/
theorem exists_split {α β : Type} {as bs : List α} {a : α} {cs : List β}
    (h : (as ++ a :: bs).length = cs.length) :
    ∃ ds d es, cs = ds ++ d :: es ∧ as.length = ds.length := by
  have hlt : as.length < cs.length := by
    rw [← h, List.length_append, List.length_cons]
    omega
  refine ⟨cs.take as.length, cs[as.length], cs.drop (as.length + 1), ?_, ?_⟩
  · rw [← List.drop_eq_getElem_cons hlt, List.take_append_drop]
  · rw [List.length_take]
    omega

/-- A change leaves what a value denotes as it is. -/
theorem Loosened.denotes {role : Role} {v w : Value} (h : Loosened role v w) {c : Content}
    (hc : c.role = role) (hd : Denotes v c) : Denotes w c := by
  induction h generalizing c with
  | reordered hperm =>
    cases hd with
    | attributes h => exact .attributes ((hperm.map _).symm.trans h)
    | record hrecord hnamed honce hempty hgiven =>
      refine (Denotes.record_iff hrecord).2 ⟨fun m hm => hnamed m (hperm.mem_iff.2 hm), ?_⟩
      have hstands := ((Denotes.record_iff hrecord).1
        (.record hrecord hnamed honce hempty hgiven)).2
      exact fun f hf => (hstands f hf).of_perm (valuesOf_perm f.1 hperm)
  | unknown hrole hkey hname v =>
    subst hc
    have hrecord : c.fields ≠ [] := by
      intro hnil
      rw [c.fields_role, hnil] at hrole
      exact hrole rfl
    rcases (Denotes.record_iff hrecord).1 hd with ⟨hnamed, hfields⟩
    refine (Denotes.record_iff hrecord).2 ⟨AllNamed.cons_iff.2 ⟨⟨_, hkey⟩, hnamed⟩, ?_⟩
    intro f hf
    have hrole : (f.1, f.2.role) ∈ c.role.fields := by
      rw [c.fields_role]
      exact List.mem_map.2 ⟨f, hf, rfl⟩
    rw [valuesOf_cons_of_ne hkey (hname _ hrole)]
    exact hfields f hf
  | omitted hf hkey hempty =>
    subst hc
    rcases Content.exists_field hf with ⟨g, hg, rfl⟩
    have hdenotes := (hd.stands_first hg hkey).denotes hempty.ne_null
    refine hd.replace_first hg hkey id (fun _ _ => rfl) fun hnil => ?_
    rw [hnil]
    exact .nil (hempty.isEmpty hdenotes)
  | nulled hf hkey hempty =>
    subst hc
    rcases Content.exists_field hf with ⟨g, hg, rfl⟩
    have hdenotes := (hd.stands_first hg hkey).denotes hempty.ne_null
    refine hd.replace_first hg hkey (fun hnamed => AllNamed.cons_iff.2 ⟨⟨_, hkey⟩, hnamed⟩)
      (fun name hname => valuesOf_cons_of_ne hkey hname _) fun hnil => ?_
    rw [valuesOf_cons_self hkey, hnil]
    exact .null (hempty.isEmpty hdenotes)
  | field hf hkey h ih =>
    subst hc
    rcases Content.exists_field hf with ⟨g, hg, rfl⟩
    have hdenotes := (hd.stands_first hg hkey).denotes h.ne_null
    refine hd.replace_first hg hkey (fun hnamed => AllNamed.cons_iff.2 ⟨⟨_, hkey⟩, hnamed⟩)
      (fun name hname => valuesOf_cons_of_ne hkey hname _) fun hnil => ?_
    rw [valuesOf_cons_self hkey, hnil]
    exact .singleton (ih rfl hdenotes)
  | @block front back v v' h ih =>
    cases hd with
    | labels => cases hc
    | @blocks _ bs hlength hdenotes =>
      rcases exists_split hlength with ⟨ds, b, es, rfl, hfront⟩
      rw [List.zip_append hfront, List.zip_cons_cons] at hdenotes
      refine .blocks (by simpa using hlength) fun p hp => ?_
      rw [List.zip_append hfront, List.zip_cons_cons] at hp
      rcases List.mem_append.1 hp with hp | hp
      · exact hdenotes p (List.mem_append_left _ hp)
      rcases List.mem_cons.1 hp with rfl | hp
      · refine ih rfl (hdenotes (v, b) ?_)
        exact List.mem_append_right _ (List.mem_cons_self ..)
      · exact hdenotes p (List.mem_append_right _ (List.mem_cons_of_mem _ hp))

/-- So does any number of them. -/
theorem Loosens.denotes {c : Content} {v w : Value} (h : Loosens c.role v w) (hd : Denotes v c) :
    Denotes w c := by
  induction h with
  | refl => exact hd
  | tail _ h ih => exact h.denotes rfl ih

/-! ## Loosened texts are decoded -/

/-- A document whose blocks do not nest too deep is decoded from any text of what its value is
loosened to: members of objects in any order, members of other names with any values, empty fields
left out or null, at any levels, and any blanks between tokens. -/
theorem Document.decode_loosened {d : Document} (hdepth : d.depth ≤ maxDepth) :
    IsText d.json d.encode ∧
      ∀ v s, Loosens .document d.json v → IsText v s → Document.decode s = .ok d := by
  constructor
  · have htext := (d.spelled_text .compact).isText Blank.nil Blank.nil
    rwa [List.nil_append, List.append_nil] at htext
  · intro v s hv hs
    have hdenotes : Denotes v (.document d.blocks) := Loosens.denotes hv d.denotes_json
    exact Document.decode_of_denotes hdepth hdenotes hs

/-- A block of a type alone. -/
def plainBlock : Block :=
  .mk "a" [] .empty []

/-- Its value, loosened: a member of another name, a body whose blocks are null, attributes that are
null, and no labels. -/
def looseBlock : Value :=
  recordJson [("x", .list [.null]), ("body", recordJson [("blocks", .null)]),
    ("attributes", .null), ("type", .ofString "a")]

/-- The block may be changed to the loosened one. -/
theorem loosens_plainBlock : Loosens .block plainBlock.json looseBlock := by
  have hbody : Loosens .body (bodyJson []) (recordJson [("blocks", .null)]) :=
    .of_loosened (.nulled (f := ("blocks", .blocks)) (by decide) (keyName?_written _) .blocks)
  have hlast : Loosened .block plainBlock.json (recordJson [("labels", .list []),
      ("attributes", .object []), ("body", bodyJson []), ("type", .ofString "a")]) :=
    .reordered (List.perm_append_singleton _ _).symm
  have hlabels : Loosened .block (recordJson [("labels", .list []), ("attributes", .object []),
      ("body", bodyJson []), ("type", .ofString "a")])
      (recordJson [("attributes", .object []), ("body", bodyJson []), ("type", .ofString "a")]) :=
    .omitted (f := ("labels", .labels)) (by decide) (keyName?_written _) .labels
  have hattributes : Loosened .block (recordJson [("attributes", .object []),
      ("body", bodyJson []), ("type", .ofString "a")])
      (recordJson [("attributes", .null), ("body", bodyJson []), ("type", .ofString "a")]) :=
    .nulled (f := ("attributes", .attributes)) (by decide) (keyName?_written _) .attributes
  have hfront : Loosened .block (recordJson [("attributes", .null), ("body", bodyJson []),
      ("type", .ofString "a")])
      (recordJson [("body", bodyJson []), ("attributes", .null), ("type", .ofString "a")]) :=
    .reordered (.swap ..)
  have hinner : Loosens .block (recordJson [("body", bodyJson []), ("attributes", .null),
      ("type", .ofString "a")])
      (recordJson [("body", recordJson [("blocks", .null)]), ("attributes", .null),
        ("type", .ofString "a")]) :=
    .field (f := ("body", .body)) (by decide) (keyName?_written _) hbody
  have hunknown : Loosened .block (recordJson [("body", recordJson [("blocks", .null)]),
      ("attributes", .null), ("type", .ofString "a")]) looseBlock :=
    .unknown (by decide) (keyName?_written _) (by decide) _
  exact .head hlast (.head hlabels (.head hattributes (.head hfront (.tail hinner hunknown))))

/-- The text of null is the text of its value. -/
theorem spelled_null : Spelled "null".toList .null := by
  intro w rest hw
  refine .scalar ?_
  rw [skipSpace_append hw]
  exact .null

/-- The text of the loosened value with one member to a line. -/
def looseText : List Char :=
  writeObject (.pretty 0) [("body", writeObject (.pretty 1) [("blocks", writeList (.pretty 2)
    [writeObject (.pretty 3) [("x", writeList (.pretty 4) ["null".toList]),
      ("body", writeObject (.pretty 4) [("blocks", "null".toList)]),
      ("attributes", "null".toList), ("type", writeString "a")]])])]

/-- The loosened text is a text of the loosened document. -/
theorem spelled_looseText :
    Spelled looseText (recordJson [("body", recordJson [("blocks", .list [looseBlock])])]) := by
  have hlist : ∀ {t v} spacing, Spelled t v → Spelled (writeList spacing [t]) (.list [v]) := by
    intro t v spacing h
    have hall : ∀ p ∈ [(t, v)], Spelled p.1 p.2 := List.forall_mem_singleton.2 h
    exact spelled_writeList hall
  have hblock : Spelled (writeObject (.pretty 3) [("x", writeList (.pretty 4) ["null".toList]),
      ("body", writeObject (.pretty 4) [("blocks", "null".toList)]),
      ("attributes", "null".toList), ("type", writeString "a")]) looseBlock := by
    refine spelled_record [("x", writeList (.pretty 4) ["null".toList], .list [.null]),
      ("body", writeObject (.pretty 4) [("blocks", "null".toList)],
        recordJson [("blocks", .null)]),
      ("attributes", "null".toList, .null), ("type", writeString "a", .ofString "a")] ?_ _
    simp only [List.forall_mem_cons]
    exact ⟨hlist _ spelled_null, spelled_field spelled_null _ _, spelled_null,
      spelled_writeString "a", List.forall_mem_nil _⟩
  exact spelled_field (spelled_field (hlist _ hblock) _ _) _ _

/-- The loosened document, with blanks around it, is decoded to the plain one. -/
theorem decode_loosened_plainBlock :
    (Document.mk [plainBlock]).depth ≤ maxDepth ∧
      Document.decode ([0x20] ++ (Text.Utf8.encode looseText ++ [0x0a])) =
        .ok ⟨[plainBlock]⟩ := by
  have hdepth : (Document.mk [plainBlock]).depth ≤ maxDepth := by decide
  have hlist : Loosens .blocks (.list ([] ++ plainBlock.json :: []))
      (.list ([] ++ looseBlock :: [])) :=
    .block loosens_plainBlock
  have hblocks : Loosens .body (bodyJson [plainBlock])
      (recordJson [("blocks", .list [looseBlock])]) :=
    .field (f := ("blocks", .blocks)) (by decide) (keyName?_written _) hlist
  have hloosens : Loosens .document (Document.json ⟨[plainBlock]⟩)
      (recordJson [("body", recordJson [("blocks", .list [looseBlock])])]) :=
    .field (f := ("body", .body)) (by decide) (keyName?_written _) hblocks
  have hspace : Blank [0x20] := Blank.cons rfl Blank.nil
  have hnewline : Blank [0x0a] := Blank.cons rfl Blank.nil
  exact ⟨hdepth, (Document.decode_loosened hdepth).2 _ _ hloosens
    (spelled_looseText.isText hspace hnewline)⟩

end HclQuery
