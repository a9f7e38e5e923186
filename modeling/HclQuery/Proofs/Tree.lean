import HclQuery.Tree
import Mathlib.Data.List.Induction
import Mathlib.Data.List.Nodup

/-!
# Edited bodies

A body is made by setting attributes and by adding blocks and empty lines.  It keeps the order in
which that is done: an attribute stands where its name was first set and has the value that was set
last, and everything else stands where it was added.

Main definitions:

- {lit}`Edit`: one change of a body.
- {lit}`Edit.run`: the body that edits make of the empty one.
- {lit}`Edit.adding`: the edits that add an item, all but those that set a name again.

Main results:

- Theorem {lit}`Edit.apply_eq`: one edit replaces the item that it is about or adds one at the end.
- Theorem {lit}`Edit.run_eq_map`: the items of an edited body are those of the adding edits.
- Theorem {lit}`Edit.run_keepsOrder`: names, values, blocks and number of items of an edited body.
-/

namespace HclQuery.Tree

/-! ## Names in a body -/

namespace Body

/-- The names of the attributes of a body, in order. -/
def attributeNames (b : Body) : List String :=
  b.attributes.map (·.name)

@[simp]
theorem attributeNames_nil : attributeNames [] = [] := rfl

/-- The names of two bodies put together are those of the first and then those of the second. -/
theorem attributeNames_append (b c : Body) :
    attributeNames (b ++ c) = attributeNames b ++ attributeNames c := by
  simp [attributeNames, attributes_append]

theorem attributeNames_attr (a : Attribute) (b : Body) :
    attributeNames (.attr a :: b) = a.name :: attributeNames b := rfl

/-- A name is one of a body when some item has it. -/
theorem mem_attributeNames_iff {b : Body} {name : String} :
    name ∈ attributeNames b ↔ ∃ i ∈ b, i.isNamed name = true := by
  rw [attributeNames, List.mem_map]
  constructor
  · rintro ⟨a, ha, rfl⟩
    exact ⟨.attr a, mem_attributes_iff.1 ha, by simp [Item.isNamed]⟩
  · rintro ⟨i, hi, hnamed⟩
    cases i with
    | attr a => exact ⟨a, mem_attributes_iff.2 hi, by simpa [Item.isNamed] using hnamed⟩
    | block kind labels body => cases hnamed
    | blank => cases hnamed

/-- Names that are distinct are so without the first item. -/
theorem nodup_attributeNames_tail {i : Item} {b : Body} (h : (attributeNames (i :: b)).Nodup) :
    (attributeNames b).Nodup := by
  cases i with
  | attr a => exact (List.nodup_cons.1 h).2
  | block kind labels body => exact h
  | blank => exact h

/-- No other item of a body has the name of an attribute in front. -/
theorem not_isNamed_of_nodup {i : Item} {b : Body} {name : String}
    (h : (attributeNames (i :: b)).Nodup) (hi : i.isNamed name = true) :
    ∀ j ∈ b, j.isNamed name = false := by
  cases i with
  | attr a =>
    have hname : a.name = name := by simpa [Item.isNamed] using hi
    rw [attributeNames_attr, hname, List.nodup_cons, mem_attributeNames_iff] at h
    simpa using h.1
  | block kind labels body => cases hi
  | blank => cases hi

/-- The first attribute is found if it has the name. -/
theorem attribute?_attr (a : Attribute) (b : Body) (name : String) :
    attribute? (.attr a :: b) name = if a.name = name then some a else attribute? b name := by
  by_cases h : a.name = name <;> simp [attribute?, attributes, Item.asAttribute?, h]

/-- Of another name the same attribute is found. -/
theorem attribute?_set_of_ne (b : Body) {name other : String} (raw : String) (h : name ≠ other) :
    attribute? (set b name raw) other = attribute? b other := by
  induction b with
  | nil => simp [set, attribute?, attributes, Item.asAttribute?, h]
  | cons i is ih =>
    rw [set]
    cases i with
    | attr a =>
      by_cases ha : a.name = name
      · simp [Item.isNamed, attribute?_attr, ha, h]
      · simp [Item.isNamed, attribute?_attr, ha, ih]
    | block kind labels inner => exact ih
    | blank => exact ih

end Body

/-! ## Edits -/

/-- One change of a body. -/
inductive Edit where
  /-- The attribute of a name is set. -/
  | set (name raw : String)
  /-- A block is added at the end. -/
  | block (kind : String) (labels : List String) (inner : Body)
  /-- An empty line is added at the end. -/
  | blank
  deriving Repr

namespace Edit

/-- The body after an edit. -/
def apply (b : Body) : Edit → Body
  | set name raw => b.set name raw
  | block kind labels inner => b.appendBlock kind labels inner
  | blank => b.appendBlank

/-- The body that edits make of the empty one. -/
def run (es : List Edit) : Body :=
  es.foldl apply []

/-- The name that an edit sets. -/
def name? : Edit → Option String
  | set name _ => some name
  | _ => none

/-- What an edit sets for a name. -/
def raw? (name : String) : Edit → Option String
  | set other raw => if other = name then some raw else none
  | _ => none

/-- The item that an edit puts into a body. -/
def item : Edit → Item
  | set name raw => .attr ⟨name, raw⟩
  | block kind labels inner => .block kind labels inner
  | blank => .blank

/-- The edit sets the name that an item has. -/
def replaces (e : Edit) (i : Item) : Bool :=
  e.name?.any i.isNamed

/-- What stands in the place of an item after an edit. -/
def onItem (e : Edit) (i : Item) : Item :=
  if e.replaces i then e.item else i

/-! ## Histories -/

/-- The names that edits set, in order and as often as they are set. -/
def setNames (es : List Edit) : List String :=
  es.filterMap name?

/-- What edits set last for a name. -/
def last? (es : List Edit) (name : String) : Option String :=
  (es.filterMap (raw? name)).getLast?

/-- The edit sets a name that edits before it have set. -/
def repeats (before : List Edit) (e : Edit) : Bool :=
  e.name?.any fun name => (setNames before).contains name

/-- The edits that add an item, after others. -/
def addingAfter (before : List Edit) : List Edit → List Edit
  | [] => []
  | e :: es =>
    if e.repeats before then addingAfter (before ++ [e]) es
    else e :: addingAfter (before ++ [e]) es

/-- The edits that add an item: all but those that set a name again. -/
def adding (es : List Edit) : List Edit :=
  addingAfter [] es

/-- The item of an edit at the end of a history: an attribute has the value that was set last. -/
def final (es : List Edit) (e : Edit) : Item :=
  match e with
  | set name raw => .attr ⟨name, (last? es name).getD raw⟩
  | e => e.item

/-- A history with one more edit is run by applying that edit last. -/
theorem run_concat (es : List Edit) (e : Edit) : run (es ++ [e]) = apply (run es) e :=
  List.foldl_concat ..

/-- One more edit sets its name last, if it sets one. -/
theorem setNames_concat (es : List Edit) (e : Edit) :
    setNames (es ++ [e]) = setNames es ++ e.name?.toList := by
  cases h : e.name? <;> simp [setNames, h]

/-- One more edit is the last one for the name that it sets. -/
theorem last?_concat (es : List Edit) (e : Edit) (name : String) :
    last? (es ++ [e]) name = (e.raw? name).or (last? es name) := by
  cases h : e.raw? name <;> simp [last?, List.getLast?_append, h]

/-- After others, one more edit adds an item unless it sets a name again. -/
theorem addingAfter_concat (before es : List Edit) (e : Edit) :
    addingAfter before (es ++ [e]) =
      addingAfter before es ++ if e.repeats (before ++ es) then [] else [e] := by
  induction es generalizing before with
  | nil => simp [addingAfter]
  | cons d es ih =>
    have hafter : before ++ d :: es = before ++ [d] ++ es := by simp
    rw [List.cons_append, addingAfter, addingAfter, ih, hafter]
    split <;> rfl

/-- One more edit adds an item unless it sets a name again. -/
theorem adding_concat (es : List Edit) (e : Edit) :
    adding (es ++ [e]) = adding es ++ if e.repeats es then [] else [e] :=
  addingAfter_concat [] es e

/-- One more edit changes the items of a history as it changes the items of a body. -/
theorem final_concat (es : List Edit) (e d : Edit) :
    final (es ++ [e]) d = e.onItem (final es d) := by
  cases d with
  | set name raw =>
    cases e with
    | set other value =>
      by_cases h : other = name
      · simp [final, last?_concat, raw?, onItem, replaces, name?, Item.isNamed, item, h]
      · simp [final, last?_concat, raw?, onItem, replaces, name?, Item.isNamed, h, Ne.symm h]
    | block kind labels inner => simp [final, last?_concat, raw?, onItem, replaces, name?]
    | blank => simp [final, last?_concat, raw?, onItem, replaces, name?]
  | block kind labels inner => cases e <;> simp [final, onItem, replaces, name?, item, Item.isNamed]
  | blank => cases e <;> simp [final, onItem, replaces, name?, item, Item.isNamed]

/-- The last edit of a history leaves its own item. -/
theorem final_concat_self (es : List Edit) (e : Edit) : final (es ++ [e]) e = e.item := by
  cases e <;> simp [final, last?_concat, raw?, item]

/-! ## One edit -/

/-- In a body without a name twice, an edit replaces the attribute of its name where it stands, or
adds an item at the end, and leaves all other items as they are. -/
theorem apply_eq {b : Body} (hb : b.attributeNames.Nodup) (e : Edit) :
    apply b e = b.map e.onItem ++ if b.any e.replaces then [] else [e.item] := by
  cases e with
  | set name raw =>
    have hreplaces : replaces (set name raw) = fun i => i.isNamed name := rfl
    induction b with
    | nil => rfl
    | cons i is ih =>
      have htail := ih (Body.nodup_attributeNames_tail hb)
      rw [apply] at htail ⊢
      rw [Body.set]
      by_cases hi : i.isNamed name = true
      · -- the rest holds the name no more, so nothing in it is replaced
        have hrest : is.map (onItem (set name raw)) = is := by
          refine (List.map_congr_left fun j hj => ?_).trans (List.map_id is)
          simp [onItem, hreplaces, Body.not_isNamed_of_nodup hb hi j hj]
        simp [hi, hrest, onItem, hreplaces, item]
      · simp [hi, htail, onItem, hreplaces]
  | block kind labels inner =>
    have honItem : onItem (block kind labels inner) = id := rfl
    simp [apply, Body.appendBlock, honItem, replaces, name?, item]
  | blank =>
    have honItem : onItem blank = id := rfl
    simp [apply, Body.appendBlank, honItem, replaces, name?, item]

/-! ## Runs -/

/-- One name more is kept if it is new. -/
theorem eraseDups_concat (names : List String) (name : String) :
    (names ++ [name]).eraseDups = names.eraseDups ++ if name ∈ names then [] else [name] := by
  rw [List.eraseDups_append]
  split <;> simp [List.removeAll, List.eraseDups_cons, *]

theorem nodup_eraseDups (names : List String) : names.eraseDups.Nodup := by
  induction names using List.reverseRecOn with
  | nil => simp
  | append_singleton names name ih =>
    rw [eraseDups_concat]
    split
    · simpa using ih
    · next hname =>
      apply ih.append (List.nodup_singleton name)
      simpa using hname

/-- An edit leaves an item as it is or changes the value of an attribute. -/
theorem onItem_cases (e : Edit) (i : Item) :
    e.onItem i = i ∨ ∃ name old raw, i = .attr ⟨name, old⟩ ∧ e.onItem i = .attr ⟨name, raw⟩ := by
  cases hi : e.replaces i with
  | false => simp [onItem, hi]
  | true =>
    cases e with
    | set name raw =>
      cases i with
      | attr a =>
        have hname : a.name = name := by simpa [replaces, name?, Item.isNamed] using hi
        right
        exact ⟨name, a.raw, raw, by rw [← hname], by simp [onItem, hi, item]⟩
      | block kind labels body => cases hi
      | blank => cases hi
    | block kind labels inner => cases hi
    | blank => cases hi

/-- The names of a body stay in their places. -/
theorem attributeNames_map_onItem (b : Body) (e : Edit) :
    Body.attributeNames (b.map e.onItem) = b.attributeNames := by
  induction b with
  | nil => rfl
  | cons i is ih =>
    rcases onItem_cases e i with hi | ⟨name, old, raw, rfl, hi⟩
    · rw [List.map_cons, hi, ← List.singleton_append, Body.attributeNames_append, ih,
        ← Body.attributeNames_append, List.singleton_append]
    · rw [List.map_cons, hi, Body.attributeNames_attr, ih, Body.attributeNames_attr]

/-- So do the blocks. -/
theorem blocks_map_onItem (b : Body) (e : Edit) : Body.blocks (b.map e.onItem) = b.blocks := by
  induction b with
  | nil => rfl
  | cons i is ih =>
    rcases onItem_cases e i with hi | ⟨name, old, raw, rfl, hi⟩
    · rw [List.map_cons, hi, ← List.singleton_append, Body.blocks_append, ih,
        ← Body.blocks_append, List.singleton_append]
    · rw [List.map_cons, hi]
      exact ih

/-- An edit replaces something when the name that it sets is there. -/
theorem any_replaces (b : Body) (e : Edit) :
    b.any e.replaces = e.name?.any fun name => b.attributeNames.contains name := by
  cases e with
  | set name raw =>
    rw [Bool.eq_iff_iff]
    simp [replaces, name?, Body.mem_attributeNames_iff]
  | block kind labels inner => simp [replaces, name?]
  | blank => simp [replaces, name?]

/-- The names of an edited body are those that were set, in the order of their first times. -/
theorem attributeNames_run (es : List Edit) :
    (run es).attributeNames = (setNames es).eraseDups := by
  induction es using List.reverseRecOn with
  | nil => rfl
  | append_singleton es e ih =>
    have hnodup : (run es).attributeNames.Nodup := by
      rw [ih]
      exact nodup_eraseDups (setNames es)
    have hitem : Body.attributeNames [e.item] = e.name?.toList := by cases e <;> rfl
    rw [run_concat, apply_eq hnodup, any_replaces, Body.attributeNames_append,
      attributeNames_map_onItem, ih, setNames_concat]
    cases hname : e.name? with
    | none => simp [hitem, hname]
    | some name =>
      rw [hname] at hitem
      by_cases hset : name ∈ setNames es <;> simp [hset, hitem, eraseDups_concat]

/-- After any edits, no name is there twice. -/
theorem nodup_attributeNames_run (es : List Edit) : (run es).attributeNames.Nodup := by
  rw [attributeNames_run]
  exact nodup_eraseDups (setNames es)

/-- One more edit replaces an item of the body just if it repeats a name of the history. -/
theorem run_concat_eq (es : List Edit) (e : Edit) :
    run (es ++ [e]) = (run es).map e.onItem ++ if e.repeats es then [] else [e.item] := by
  rw [run_concat, apply_eq (nodup_attributeNames_run es), any_replaces, attributeNames_run, repeats]
  simp

/-- The items of an edited body are those of the adding edits, in order. -/
theorem run_eq_map (es : List Edit) : run es = (adding es).map (final es) := by
  induction es using List.reverseRecOn with
  | nil => rfl
  | append_singleton es e ih =>
    have hfinal : final (es ++ [e]) = e.onItem ∘ final es := funext (final_concat es e)
    rw [run_concat_eq, ih, adding_concat, List.map_append, List.map_map, hfinal]
    congr 1
    split
    · rfl
    · rw [List.map_singleton, ← hfinal, final_concat_self]

/-- An edit sets the attribute of its name, and leaves all others as they are. -/
theorem attribute?_apply (b : Body) (e : Edit) (name : String) :
    (apply b e).attribute? name =
      ((e.raw? name).map (Attribute.mk name)).or (b.attribute? name) := by
  cases e with
  | set other raw =>
    rw [apply, raw?]
    by_cases h : other = name
    · simp [h, Body.attribute?_set_self]
    · simp [h, Body.attribute?_set_of_ne]
  | block kind labels inner =>
    simp [apply, Body.appendBlock, Body.attribute?, Body.attributes, raw?, Item.asAttribute?]
  | blank =>
    simp [apply, Body.appendBlank, Body.attribute?, Body.attributes, raw?, Item.asAttribute?]

/-- Of each name the value is found that was set last. -/
theorem attribute?_run (es : List Edit) (name : String) :
    (run es).attribute? name = (last? es name).map (Attribute.mk name) := by
  induction es using List.reverseRecOn with
  | nil => rfl
  | append_singleton es e ih =>
    rw [run_concat, attribute?_apply, ih, last?_concat]
    cases e.raw? name <;> rfl

/-- The blocks are those that were added, in order. -/
theorem blocks_run (es : List Edit) : (run es).blocks = Body.blocks (es.map item) := by
  induction es using List.reverseRecOn with
  | nil => rfl
  | append_singleton es e ih =>
    rw [run_concat_eq, Body.blocks_append, blocks_map_onItem, ih, List.map_append,
      Body.blocks_append]
    cases e with
    | set name raw => split <;> rfl
    | block kind labels inner => rfl
    | blank => rfl

/-- There is one item for each name that was set, and one for each block and empty line. -/
theorem length_run (es : List Edit) :
    (run es).length = (setNames es).eraseDups.length + es.countP fun e => e.name?.isNone := by
  induction es using List.reverseRecOn with
  | nil => rfl
  | append_singleton es e ih =>
    rw [run_concat_eq, setNames_concat, List.length_append, List.length_map, ih,
      List.countP_append]
    cases hname : e.name? with
    | none =>
      simp [repeats, hname]
      omega
    | some name =>
      by_cases hset : name ∈ setNames es
      · simp [repeats, hname, hset, eraseDups_concat]
      · simp [repeats, hname, hset, eraseDups_concat]
        omega

/-- A body that edits make of the empty one is a map in which the names have the order in which
they were first set.  No name is there twice, and each has the value that was set last.  The items
are those of the edits that do not repeat a name, in the order of these edits, so the blocks are
those that were added, and there are as many items as names and as blocks and empty lines that were
added.  One more edit only changes the attribute of its name, or else adds one item at the end. -/
theorem run_keepsOrder (es : List Edit) :
    (run es).attributeNames.Nodup ∧
      (run es).attributeNames = (setNames es).eraseDups ∧
      (∀ name, (run es).attribute? name = (last? es name).map (Attribute.mk name)) ∧
      run es = (adding es).map (final es) ∧
      (run es).blocks = Body.blocks (es.map item) ∧
      (run es).length =
        (setNames es).eraseDups.length + es.countP (fun e => e.name?.isNone) ∧
      ∀ e, run (es ++ [e]) = (run es).map e.onItem ++ if e.repeats es then [] else [e.item] :=
  ⟨nodup_attributeNames_run es, attributeNames_run es, attribute?_run es, run_eq_map es,
    blocks_run es, length_run es, run_concat_eq es⟩

/-- A name that is set again keeps its place. -/
example : run [.set "a" "1", .blank, .set "b" "2", .set "a" "3"] =
    [.attr ⟨"a", "3"⟩, .blank, .attr ⟨"b", "2"⟩] := rfl

end Edit

end HclQuery.Tree
