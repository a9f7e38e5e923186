import HclQuery.Document.Encode
import HclQuery.Proofs.Document.Attributes
import HclQuery.Proofs.Document.WireFormat
import HclQuery.Proofs.Json.Spelled

/-!
# What JSON values denote

The document that a JSON value denotes, said by the names of its members and not by their order.  A
field is given at most once; one that is missing or null has to be empty.  Whatever denotes a
document is decoded as it, from any text, if there are levels enough; and what a document is encoded
to is the text of a value that denotes it.

Main definitions:

- {lit}`Content`: what a value may denote, with its fields and the levels it takes.
- {lit}`Denotes`: a value denotes a content.
- {lit}`Document.json`: the value that a document is written as.

Main results:

- Theorem {lit}`Denotes.gives`: what denotes a content is read as it.
- Theorem {lit}`Document.spelled_text`: the text of a document is the text of its value.
- Theorem {lit}`Document.denotes_json`: the value of a document denotes it.
-/

namespace HclQuery

open Json

/-! ## Contents -/

/-- What a value in a document may denote. -/
inductive Content where
  | document (blocks : List Block)
  | body (blocks : List Block)
  | blocks (blocks : List Block)
  | block (b : Block)
  | labels (labels : List String)
  | attributes (m : Attributes)
  | text (x : String)

namespace Content

/-- What a value of this content stands for. -/
def role : Content → Role
  | document _ => .document
  | body _ => .body
  | blocks _ => .blocks
  | block _ => .block
  | labels _ => .labels
  | attributes _ => .attributes
  | text _ => .text

/-- The fields of a record. -/
def fields : Content → List (String × Content)
  | document bs => [("body", body bs)]
  | body bs => [("blocks", blocks bs)]
  | block b =>
    [("type", text b.kind), ("labels", labels b.labels), ("attributes", attributes b.attributes),
      ("body", body b.blocks)]
  | blocks _ | labels _ | attributes _ | text _ => []

/-- The content of a field that is not given. -/
def IsEmpty : Content → Prop
  | document bs | body bs | blocks bs => bs = []
  | block _ => False
  | labels ls => ls = []
  | attributes m => m = .empty
  | text x => x = ""

/-- The levels of lists and objects that the content takes. -/
def levels : Content → Nat
  | document bs => 3 * Block.depthList bs + 3
  | body bs => 3 * Block.depthList bs + 2
  | blocks bs => 3 * Block.depthList bs + 1
  | block b => 3 * b.depth
  | labels _ | attributes _ => 1
  | text _ => 0

/-- With so many levels to go, the content is read from any text of the value. -/
def GivenBy (levels : Nat) (v : Value) : Content → Prop
  | document bs => Gives (readDocument levels) v ⟨bs⟩
  | body bs => Gives (readBody levels) v bs
  | blocks bs => Gives (readBlocks levels) v bs
  | block b => Gives (readBlock levels) v b
  | labels ls => Gives (readLabels levels) v ls
  | attributes m => Gives (Attributes.read levels) v m
  | text x => Gives stringValue v x

theorem fields_role (c : Content) : c.role.fields = c.fields.map fun f => (f.1, f.2.role) := by
  cases c <;> rfl

/-- A record has one field of a name at most. -/
theorem fields_nodup (c : Content) : (c.fields.map (·.1)).Nodup := by
  cases c <;> simp [fields]

end Content

/-! ## What a value denotes -/

/-- The name and the text of an attribute, if the member is one. -/
def attribute? (m : List UInt8 × Value) : Option (String × String) :=
  match m.2 with
  | .string body => (keyName? m.1).bind fun name => (keyName? body).map (Prod.mk name)
  | _ => none

/-- A member is an attribute when its key is a name and its value a text. -/
theorem attribute?_eq_some {m : List UInt8 × Value} {e : String × String}
    (h : attribute? m = some e) :
    keyName? m.1 = some e.1 ∧ ∃ body, m.2 = .string body ∧ keyName? body = some e.2 := by
  rw [attribute?] at h
  split at h
  · next body hbody =>
    rcases Option.bind_eq_some_iff.1 h with ⟨name, hname, hraw⟩
    rcases Option.map_eq_some_iff.1 hraw with ⟨raw, hbody', rfl⟩
    exact ⟨hname, body, hbody, hbody'⟩
  · cases h

/-- The value denotes the content.  The order of members does not matter, and members that are no
fields of a record may be anything. -/
inductive Denotes : Value → Content → Prop where
  | text {body : List UInt8} {x : String} (h : keyName? body = some x) :
    Denotes (.string body) (.text x)
  | labels {vs : List Value} {ls : List String} (hlength : vs.length = ls.length)
    (h : ∀ p ∈ vs.zip ls, Denotes p.1 (.text p.2)) : Denotes (.list vs) (.labels ls)
  | attributes {ms : List (List UInt8 × Value)} {m : Attributes}
    (h : (ms.map attribute?).Perm (m.entries.map some)) : Denotes (.object ms) (.attributes m)
  | blocks {vs : List Value} {bs : List Block} (hlength : vs.length = bs.length)
    (h : ∀ p ∈ vs.zip bs, Denotes p.1 (.block p.2)) : Denotes (.list vs) (.blocks bs)
  | record {c : Content} {ms : List (List UInt8 × Value)} (hrecord : c.fields ≠ [])
    (hnamed : AllNamed ms) (honce : ∀ f ∈ c.fields, (valuesOf f.1 ms).length ≤ 1)
    (hempty : ∀ f ∈ c.fields, (∀ v ∈ valuesOf f.1 ms, v = .null) → f.2.IsEmpty)
    (hgiven : ∀ f ∈ c.fields, ∀ v ∈ valuesOf f.1 ms, v ≠ .null → Denotes v f.2) :
    Denotes (.object ms) c

theorem Denotes.ne_null {v : Value} {c : Content} (h : Denotes v c) : v ≠ .null := by
  cases h <;> exact nofun

/-! ## What denotes a content is read as it -/

/-- No block of a list is deeper than the list. -/
theorem Block.depth_le_of_mem {b : Block} {bs : List Block} (h : b ∈ bs) :
    b.depth ≤ Block.depthList bs := by
  induction bs with
  | nil => cases h
  | cons b' bs ih =>
    rw [Block.depthList]
    rcases List.mem_cons.1 h with rfl | h
    · exact Nat.le_max_left ..
    · exact Nat.le_trans (ih h) (Nat.le_max_right ..)

/-- Values that give the labels one by one give the list of them. -/
theorem gives_labels {vs : List Value} {ls : List String} (hlength : vs.length = ls.length)
    (h : ∀ p ∈ vs.zip ls, Gives stringValue p.1 p.2) (n : Nat) :
    Gives (readLabels (n + 1)) (.list vs) ls :=
  gives_list hlength h

/-- The attributes that are left complete those that were collected. -/
def Completes (m m' : Attributes) (ms : List (List UInt8 × Value)) : Prop :=
  ∃ es : List (String × String), ms.map attribute? = es.map some ∧
    es.foldl (fun m e => m.insert e.1 e.2) m' = m

/-- Each member that is read brings the collected attributes one step closer to all of them. -/
theorem carries_completes (m : Attributes) : Carries Attributes.member (Completes m) := by
  rintro m' ⟨key, v⟩ ms ⟨es, hes, hm⟩
  cases es with
  | nil => cases hes
  | cons e es =>
    rw [List.map_cons, List.map_cons, List.cons.injEq] at hes
    rcases attribute?_eq_some hes.1 with ⟨hname, body, rfl, hraw⟩
    refine ⟨m'.insert e.1 e.2, ⟨e.1, hname, fun s t r hs hv => ?_⟩, es, hes.2, hm⟩
    simp only [Attributes.member, (gives_stringValue hraw).memberValue hs hv]

/-- A list without missing members is the list of what its members are. -/
theorem eq_map_some {α : Type} {os : List (Option α)} (h : ∀ o ∈ os, o.isSome = true) :
    os = (os.filterMap id).map some := by
  induction os with
  | nil => rfl
  | cons o os ih =>
    rcases Option.isSome_iff_exists.1 (h o (List.mem_cons_self ..)) with ⟨x, rfl⟩
    have htail := ih fun o ho => h o (List.mem_cons_of_mem _ ho)
    have hcons : (some x :: os).filterMap id = x :: os.filterMap id := rfl
    rw [hcons, List.map_cons, ← htail]

/-- Attributes are collected in any order. -/
theorem gives_attributes {ms : List (List UInt8 × Value)} {m : Attributes}
    (h : (ms.map attribute?).Perm (m.entries.map some)) (n : Nat) :
    Gives (Attributes.read (n + 1)) (.object ms) m := by
  have hall : ∀ o ∈ ms.map attribute?, o.isSome = true := by
    intro o ho
    rcases List.mem_map.1 (h.mem_iff.1 ho) with ⟨e, -, rfl⟩
    rfl
  have hperm : ((ms.map attribute?).filterMap id).Perm m.entries := by
    simpa using h.filterMap id
  refine gives_map (carries_completes m) ⟨_, eq_map_some hall, Attributes.ofList_of_perm hperm⟩ ?_
  rintro m' ⟨es, hes, rfl⟩
  obtain rfl : es = [] := by simpa using hes.symm
  rfl

/-! ### Records -/

/-- A record with one field waits for the field. -/
theorem carries_soleMember {α : Type} (name : String) (default : α) (value : Reader α) (x : α) :
    Carries (soleMember name default value) fun before ms =>
      AllNamed ms ∧ Awaits name default value x before ms := by
  rintro before m ms ⟨hnamed, hawaits⟩
  rcases AllNamed.cons_iff.1 hnamed with ⟨⟨key, hkey⟩, hrest⟩
  by_cases hname : key = name
  · subst hname
    rcases hawaits.take hkey with ⟨rfl, hgives, hlater⟩
    refine ⟨some x, ⟨key, hkey, fun s t r hs hv => ?_⟩, hrest, hlater⟩
    rw [soleMember, if_pos rfl]
    exact hgives.field key some hs hv
  · refine ⟨before, ⟨key, hkey, fun s t r hs hv => ?_⟩, hrest, hawaits.of_ne hkey hname⟩
    rw [soleMember, if_neg hname]
    exact ignored_of_spells before hs hv

/-- A record gives the value that its members give to its field. -/
theorem gives_soleRecord {α : Type} {name : String} {default x : α} {value : Reader α}
    {ms : List (List UInt8 × Value)} (hnamed : AllNamed ms)
    (hawaits : Awaits name default value x none ms) (expected : String) :
    Gives (soleRecord expected name default value) (.object ms) x :=
  gives_record (carries_soleMember name default value x) ⟨hnamed, hawaits⟩
    (fun _ h => h.2.getD) expected _

/-- The fields of a block that the members have still to give. -/
structure BlockAwaits (levels : Nat) (body : Reader (List Block)) (b : Block) (f : BlockFields)
    (ms : List (List UInt8 × Value)) : Prop where
  named : AllNamed ms
  kind : Awaits "type" "" stringValue b.kind f.kind ms
  labels : Awaits "labels" [] (readLabels levels) b.labels f.labels ms
  attributes : Awaits "attributes" .empty (Attributes.read levels) b.attributes f.attributes ms
  body : Awaits "body" [] body b.blocks f.body ms

/-- Each member of a block stores its field, or is passed over. -/
theorem carries_blockMember (levels : Nat) (body : Reader (List Block)) (b : Block) :
    Carries (blockMember levels body) (BlockAwaits levels body b) := by
  rintro ⟨kind, labels, attributes, blocks⟩ m ms ⟨hnamed, hkind, hlabels, hattributes, hbody⟩
  rcases AllNamed.cons_iff.1 hnamed with ⟨⟨key, hkey⟩, hrest⟩
  by_cases htype : key = "type"
  · subst htype
    rcases hkind.take hkey with ⟨rfl, hgives, hlater⟩
    refine ⟨⟨some b.kind, labels, attributes, blocks⟩, ⟨_, hkey, fun s t r hs hv => ?_⟩,
      hrest, hlater, hlabels.of_ne hkey (by decide), hattributes.of_ne hkey (by decide),
      hbody.of_ne hkey (by decide)⟩
    exact hgives.field "type" _ hs hv
  by_cases hname : key = "labels"
  · subst hname
    rcases hlabels.take hkey with ⟨rfl, hgives, hlater⟩
    refine ⟨⟨kind, some b.labels, attributes, blocks⟩, ⟨_, hkey, fun s t r hs hv => ?_⟩,
      hrest, hkind.of_ne hkey (by decide), hlater, hattributes.of_ne hkey (by decide),
      hbody.of_ne hkey (by decide)⟩
    exact hgives.field "labels" _ hs hv
  by_cases hattribute : key = "attributes"
  · subst hattribute
    rcases hattributes.take hkey with ⟨rfl, hgives, hlater⟩
    refine ⟨⟨kind, labels, some b.attributes, blocks⟩, ⟨_, hkey, fun s t r hs hv => ?_⟩,
      hrest, hkind.of_ne hkey (by decide), hlabels.of_ne hkey (by decide), hlater,
      hbody.of_ne hkey (by decide)⟩
    exact hgives.field "attributes" _ hs hv
  by_cases hinner : key = "body"
  · subst hinner
    rcases hbody.take hkey with ⟨rfl, hgives, hlater⟩
    refine ⟨⟨kind, labels, attributes, some b.blocks⟩, ⟨_, hkey, fun s t r hs hv => ?_⟩,
      hrest, hkind.of_ne hkey (by decide), hlabels.of_ne hkey (by decide),
      hattributes.of_ne hkey (by decide), hlater⟩
    exact hgives.field "body" _ hs hv
  · refine ⟨⟨kind, labels, attributes, blocks⟩, ⟨_, hkey, fun s t r hs hv => ?_⟩,
      hrest, hkind.of_ne hkey htype, hlabels.of_ne hkey hname,
      hattributes.of_ne hkey hattribute, hbody.of_ne hkey hinner⟩
    rw [blockMember, if_neg htype, if_neg hname, if_neg hattribute, if_neg hinner]
    exact ignored_of_spells _ hs hv

/-- When no members are left, the stored fields make up the block. -/
theorem BlockAwaits.block_eq {levels : Nat} {body : Reader (List Block)} {b : Block}
    {f : BlockFields} (h : BlockAwaits levels body b f []) : f.block = b := by
  cases b
  rw [BlockFields.block, h.kind.getD, h.labels.getD, h.attributes.getD, h.body.getD]
  rfl

/-- With so many levels to go, a field of a record is read from the members, or it is empty and they
do not give it. -/
structure FieldGiven (levels : Nat) (ms : List (List UInt8 × Value)) (f : String × Content) :
    Prop where
  once : (valuesOf f.1 ms).length ≤ 1
  empty : (∀ v ∈ valuesOf f.1 ms, v = .null) → f.2.IsEmpty
  given : ∀ v ∈ valuesOf f.1 ms, v ≠ .null → f.2.GivenBy levels v

/-- A record is read if its fields are. -/
theorem Content.givenBy_of_fields {c : Content} {n : Nat} {ms : List (List UInt8 × Value)}
    (hrecord : c.fields ≠ []) (hnamed : AllNamed ms) (h : ∀ f ∈ c.fields, FieldGiven n ms f) :
    c.GivenBy (n + 1) (.object ms) := by
  cases c with
  | document bs =>
    have hbody : FieldGiven n ms ("body", body bs) := h _ (List.mem_singleton.2 rfl)
    have hawaits : Awaits "body" [] (readBody n) bs none ms :=
      .of_valuesOf hbody.once hbody.empty hbody.given
    intro s r hs
    simp only [readDocument, gives_soleRecord hnamed hawaits _ hs]
  | body bs =>
    have hblocks : FieldGiven n ms ("blocks", blocks bs) := h _ (List.mem_singleton.2 rfl)
    have hawaits : Awaits "blocks" [] (readBlocks n) bs none ms :=
      .of_valuesOf hblocks.once hblocks.empty hblocks.given
    exact gives_soleRecord hnamed hawaits _
  | block b =>
    have hkind : FieldGiven n ms ("type", text b.kind) := h _ (by simp [fields])
    have hlabels : FieldGiven n ms ("labels", labels b.labels) := h _ (by simp [fields])
    have hattributes : FieldGiven n ms ("attributes", attributes b.attributes) :=
      h _ (by simp [fields])
    have hbody : FieldGiven n ms ("body", body b.blocks) := h _ (by simp [fields])
    have hawaits : BlockAwaits n (readBody n) b .none ms :=
      ⟨hnamed, .of_valuesOf hkind.once hkind.empty hkind.given,
        .of_valuesOf hlabels.once hlabels.empty hlabels.given,
        .of_valuesOf hattributes.once hattributes.empty hattributes.given,
        .of_valuesOf hbody.once hbody.empty hbody.given⟩
    exact gives_record (carries_blockMember n (readBody n) b) hawaits (fun _ h => h.block_eq) _ _
  | blocks | labels | attributes | text => exact absurd rfl hrecord

/-- The fields of a record take fewer levels than it does. -/
theorem Content.levels_lt {c : Content} {f : String × Content} (hf : f ∈ c.fields) :
    f.2.levels < c.levels := by
  cases c with
  | block b =>
    rcases b with ⟨kind, ls, m, bs⟩
    simp only [fields, List.mem_cons, List.not_mem_nil, or_false] at hf
    rcases hf with rfl | rfl | rfl | rfl <;>
      simp only [levels, Block.depth, Block.blocks] <;> omega
  | document bs | body bs =>
    rw [List.mem_singleton.1 hf]
    simp only [levels]
    omega
  | blocks | labels | attributes | text => cases hf

/-- What denotes a content is read as it if there are levels enough. -/
theorem Denotes.gives {v : Value} {c : Content} (h : Denotes v c) {n : Nat} (hn : c.levels ≤ n) :
    c.GivenBy n v := by
  induction h generalizing n with
  | text h => exact gives_stringValue h
  | labels hlength h ih =>
    obtain ⟨k, rfl⟩ : ∃ k, n = k + 1 := ⟨n - 1, by simp only [Content.levels] at hn; omega⟩
    exact gives_labels hlength (fun p hp => ih p hp (Nat.le_refl 0)) k
  | attributes h =>
    obtain ⟨k, rfl⟩ : ∃ k, n = k + 1 := ⟨n - 1, by simp only [Content.levels] at hn; omega⟩
    exact gives_attributes h k
  | @blocks vs bs hlength h ih =>
    simp only [Content.levels] at hn
    obtain ⟨k, rfl⟩ : ∃ k, n = k + 1 := ⟨n - 1, by omega⟩
    refine gives_list hlength fun p hp => ih p hp ?_
    have hle := Block.depth_le_of_mem (List.of_mem_zip hp).2
    simp only [Content.levels]
    omega
  | @record c ms hrecord hnamed honce hempty hgiven ih =>
    rcases List.exists_mem_of_ne_nil _ hrecord with ⟨f, hf⟩
    have hlt := Content.levels_lt hf
    obtain ⟨k, rfl⟩ : ∃ k, n = k + 1 := ⟨n - 1, by omega⟩
    refine Content.givenBy_of_fields hrecord hnamed fun f hf => ⟨honce f hf, hempty f hf, ?_⟩
    exact fun v hv hnull =>
      ih f hf v hv hnull (Nat.le_of_lt_succ (Nat.lt_of_lt_of_le (Content.levels_lt hf) hn))

/-! ## The value of a document -/

/-- The value that attributes are written as. -/
def Attributes.json (m : Attributes) : Value :=
  .object (m.entries.map fun e => (written e.1, .ofString e.2))

/-- The value of a record whose fields are written in order. -/
def recordJson (ms : List (String × Value)) : Value :=
  .object (ms.map fun m => (written m.1, m.2))

mutual

/-- The value that a block is written as. -/
def Block.json : Block → Value
  | .mk kind labels m bs =>
    recordJson [("type", .ofString kind), ("labels", .list (labels.map .ofString)),
      ("attributes", m.json), ("body", recordJson [("blocks", .list (Block.jsons bs))])]

/-- The values that blocks are written as. -/
def Block.jsons : List Block → List Value
  | [] => []
  | b :: bs => b.json :: Block.jsons bs

end

/-- The value that a body is written as. -/
def bodyJson (bs : List Block) : Value :=
  recordJson [("blocks", .list (Block.jsons bs))]

/-- The value that a document is written as. -/
def Document.json (d : Document) : Value :=
  recordJson [("body", bodyJson d.blocks)]

/-- The texts of blocks are the text of each. -/
theorem Block.texts_eq_map (spacing : Spacing) (bs : List Block) :
    Block.texts spacing bs = bs.map (Block.text spacing) := by
  induction bs with
  | nil => rfl
  | cons b bs ih => rw [Block.texts, ih, List.map_cons]

/-- The values of blocks are the value of each. -/
theorem Block.jsons_eq_map (bs : List Block) : Block.jsons bs = bs.map Block.json := by
  induction bs with
  | nil => rfl
  | cons b bs ih => rw [Block.jsons, ih, List.map_cons]

/-! ### Its text -/

/-- A written object is the text of the record of its members. -/
theorem spelled_record (ms : List (String × List Char × Value))
    (h : ∀ m ∈ ms, Spelled m.2.1 m.2.2) (spacing : Spacing) :
    Spelled (writeObject spacing (ms.map fun m => (m.1, m.2.1)))
      (recordJson (ms.map fun m => (m.1, m.2.2))) := by
  have hspelled : Spelled (writeObject spacing (ms.map fun m => (m.1, m.2.1)))
      (.object (ms.map fun m => (written m.1, m.2.2))) := spelled_writeObject h
  rwa [recordJson, List.map_map]

/-- A written object with one member is the text of the record with that field. -/
theorem spelled_field {t : List Char} {v : Value} (h : Spelled t v) (name : String)
    (spacing : Spacing) : Spelled (writeObject spacing [(name, t)]) (recordJson [(name, v)]) :=
  spelled_record [(name, t, v)] (List.forall_mem_singleton.2 h) spacing

/-- Written attributes are the text of their value. -/
theorem Attributes.spelled_text (m : Attributes) (spacing : Spacing) :
    Spelled (m.text spacing) m.json :=
  spelled_writeObject fun e _ => spelled_writeString e.2

/-- A written list of labels is the text of its value. -/
theorem spelled_labels (spacing : Spacing) (labels : List String) :
    Spelled (writeList spacing (labels.map writeString)) (.list (labels.map .ofString)) :=
  spelled_writeList fun x _ => spelled_writeString x

/-- A written body is the text of its value when its blocks are. -/
theorem spelled_bodyText {bs : List Block} (h : ∀ b ∈ bs, ∀ spacing,
    Spelled (b.text spacing) b.json) (spacing : Spacing) :
    Spelled (bodyText spacing bs) (bodyJson bs) := by
  rw [bodyText, bodyJson, Block.texts_eq_map, Block.jsons_eq_map]
  exact spelled_field (spelled_writeList fun b hb => h b hb _) "blocks" spacing

mutual

/-- The text of a block is the text of its value. -/
theorem Block.spelled_text : (b : Block) → ∀ spacing, Spelled (b.text spacing) b.json
  | .mk kind labels m bs => by
    intro spacing
    have hbody := spelled_bodyText (Block.spelled_texts bs) spacing.inner
    refine spelled_record [("type", writeString kind, .ofString kind),
      ("labels", writeList spacing.inner (labels.map writeString), .list (labels.map .ofString)),
      ("attributes", m.text spacing.inner, m.json),
      ("body", bodyText spacing.inner bs, bodyJson bs)] ?_ spacing
    simp only [List.forall_mem_cons]
    exact ⟨spelled_writeString kind, spelled_labels _ labels, m.spelled_text _, hbody,
      List.forall_mem_nil _⟩

/-- Each block of a list is written as a text of its value. -/
theorem Block.spelled_texts : (bs : List Block) → ∀ b ∈ bs, ∀ spacing,
    Spelled (b.text spacing) b.json
  | [] => nofun
  | b :: bs => by
    intro b' hb'
    rcases List.mem_cons.1 hb' with heq | hb'
    · rw [heq]
      exact Block.spelled_text b
    · exact Block.spelled_texts bs b' hb'

end

/-- The text of a document is the text of its value. -/
theorem Document.spelled_text (d : Document) (spacing : Spacing) :
    Spelled (d.text spacing) d.json :=
  spelled_field (spelled_bodyText (Block.spelled_texts d.blocks) _) "body" spacing

/-! ### It denotes the document -/

/-- The values under a name among written members are those of the members of that name. -/
theorem valuesOf_written (name : String) (ms : List (String × Value)) :
    valuesOf name (ms.map fun m => (written m.1, m.2)) =
      (ms.filter fun m => m.1 == name).map (·.2) := by
  have hnames : ∀ m : String × Value,
      (keyName? (written m.1) == some name) = (m.1 == name) := by
    intro m
    rw [keyName?_written]
    rfl
  simp only [valuesOf, List.filter_map, List.map_map, Function.comp_def, hnames]

/-- A record of which each field is written once denotes what the fields denote. -/
theorem denotes_recordJson {c : Content} {ms : List (String × Value)} (hrecord : c.fields ≠ [])
    (h : ∀ f ∈ c.fields, ∃ v, (ms.filter fun m => m.1 == f.1).map (·.2) = [v] ∧ Denotes v f.2) :
    Denotes (recordJson ms) c := by
  refine .record hrecord ?_ ?_ ?_ ?_
  · intro m hm
    rcases List.mem_map.1 hm with ⟨m, -, rfl⟩
    rw [keyName?_written]
    rfl
  · intro f hf
    rcases h f hf with ⟨v, hvalues, -⟩
    rw [valuesOf_written, hvalues]
    exact Nat.le_refl 1
  · intro f hf hnull
    rcases h f hf with ⟨v, hvalues, hdenotes⟩
    rw [valuesOf_written, hvalues] at hnull
    exact absurd (hnull v (List.mem_singleton.2 rfl)) hdenotes.ne_null
  · intro f hf v' hv' hnull
    rcases h f hf with ⟨v, hvalues, hdenotes⟩
    rw [valuesOf_written, hvalues, List.mem_singleton] at hv'
    rw [hv']
    exact hdenotes

/-- The elements of a list with what they are mapped to. -/
theorem mem_zip_map {α β : Type} {f : α → β} {xs : List α} {p : β × α}
    (h : p ∈ (xs.map f).zip xs) : p.2 ∈ xs ∧ p.1 = f p.2 := by
  induction xs with
  | nil => cases h
  | cons x xs ih =>
    rw [List.map_cons, List.zip_cons_cons] at h
    rcases List.mem_cons.1 h with rfl | h
    · exact ⟨List.mem_cons_self .., rfl⟩
    · exact ⟨List.mem_cons_of_mem _ (ih h).1, (ih h).2⟩

theorem denotes_ofString (x : String) : Denotes (.ofString x) (.text x) :=
  .text (keyName?_written x)

/-- A written list of labels denotes the labels. -/
theorem denotes_labels (ls : List String) : Denotes (.list (ls.map .ofString)) (.labels ls) := by
  refine .labels (List.length_map _) fun p hp => ?_
  rw [(mem_zip_map hp).2]
  exact denotes_ofString p.2

/-- Written attributes denote the attributes. -/
theorem Attributes.denotes_json (m : Attributes) : Denotes m.json (.attributes m) := by
  refine .attributes ?_
  rw [List.map_map]
  refine List.Perm.of_eq (List.map_congr_left fun e _ => ?_)
  simp [attribute?, Value.ofString, keyName?_written]

/-- A written body denotes its blocks when each of them is denoted. -/
theorem denotes_bodyJson {bs : List Block} (h : ∀ b ∈ bs, Denotes b.json (.block b)) :
    Denotes (bodyJson bs) (.body bs) := by
  have hblocks : Denotes (.list (Block.jsons bs)) (.blocks bs) := by
    rw [Block.jsons_eq_map]
    refine .blocks (List.length_map _) fun p hp => ?_
    rcases mem_zip_map hp with ⟨hmem, heq⟩
    rw [heq]
    exact h p.2 hmem
  refine denotes_recordJson (by simp [Content.fields]) ?_
  exact List.forall_mem_singleton.2 ⟨_, rfl, hblocks⟩

mutual

/-- The value of a block denotes it. -/
theorem Block.denotes_json : (b : Block) → Denotes b.json (.block b)
  | .mk kind labels m bs => by
    have hbody := denotes_bodyJson (Block.denotes_jsons bs)
    refine denotes_recordJson (by simp [Content.fields]) ?_
    simp only [Content.fields, List.forall_mem_cons]
    exact ⟨⟨_, rfl, denotes_ofString kind⟩, ⟨_, rfl, denotes_labels labels⟩,
      ⟨_, rfl, m.denotes_json⟩, ⟨_, rfl, hbody⟩, List.forall_mem_nil _⟩

/-- Each block of a list is denoted by its value. -/
theorem Block.denotes_jsons : (bs : List Block) → ∀ b ∈ bs, Denotes b.json (.block b)
  | [] => nofun
  | b :: bs => by
    intro b' hb'
    rcases List.mem_cons.1 hb' with heq | hb'
    · rw [heq]
      exact Block.denotes_json b
    · exact Block.denotes_jsons bs b' hb'

end

/-- The value of a document denotes it. -/
theorem Document.denotes_json (d : Document) : Denotes d.json (.document d.blocks) := by
  have hbody := denotes_bodyJson (Block.denotes_jsons d.blocks)
  refine denotes_recordJson (by simp [Content.fields]) ?_
  exact List.forall_mem_singleton.2 ⟨_, rfl, hbody⟩

end HclQuery
