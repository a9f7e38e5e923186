import HclQuery.Layout.Render
import HclQuery.Proofs.Layout.Alignment
import Mathlib.Data.List.SplitBy

/-!
# The items of a body in groups

A body is written group by group.  A group is a longest run of neighbouring attributes on one line
each, or any other item by itself.  Every item stands in just one group, in its place, so it is
written once; and the names of a group are padded to the longest of them, whatever stands in the
other groups.

Main definitions:

- {lit}`groups`: the items of a body, divided into groups.
- {lit}`groupWidth`: the width that the names of a group are padded to.
- {lit}`itemText`: the text of one item.

Main results:

- Theorem {lit}`runs_entries`: the groups of a body are the runs that it is laid out in.
- Theorem {lit}`isGroup_of_mem_groups`: what a group consists of.
- Theorem {lit}`renderBody_eq_groups`: a body is written group by group and item by item.
- Theorem {lit}`renderBody_aligned`: the equals signs of a group stand in one column.
-/

namespace HclQuery.Layout

open Text HclQuery.Tree

/-! ## Groups -/

/-- An attribute whose value takes one line. -/
def isSingle : Item → Bool
  | .attr a => !isMultiline a.raw
  | _ => false

/-- Neighbours whose equals signs line up. -/
def linesUp (i j : Item) : Bool :=
  isSingle i && isSingle j

/-- The items of a body in groups: longest runs of neighbours that line up. -/
def groups (b : Body) : List (List Item) :=
  b.splitBy linesUp

/-- The length of the longest attribute name in a group. -/
def groupWidth (g : List Item) : Nat :=
  nameWidth (Body.attributes g)

/-- The text of one item at a depth; the name of an attribute is padded to a width. -/
def itemText (depth width : Nat) : Item → List Char
  | .attr a => renderAttribute depth width a
  | .block kind labels body =>
    header depth kind labels ++ renderBody (depth + 1) body ++ footer depth
  | .blank => ['\n']

/-- A longest run of attributes on one line each, or any other item by itself. -/
inductive IsGroup : List Item → Prop where
  | singles {g : List Item} (hne : g ≠ []) (h : ∀ i ∈ g, isSingle i = true) : IsGroup g
  | alone {i : Item} (h : isSingle i = false) : IsGroup [i]

/-! ## The items of a group -/

/-- An attribute is on a line of its own when its trimmed value has no newline in it. -/
theorem isSingle_attr_iff {a : Attribute} :
    isSingle (.attr a) = true ↔ '\n' ∉ trim a.raw.toList := by
  rw [isSingle, ← isMultiline_iff, Bool.not_eq_true', Bool.not_eq_true]

/-- Two items line up when both are on lines of their own. -/
theorem linesUp_eq_true_iff {i j : Item} :
    linesUp i j = true ↔ isSingle i = true ∧ isSingle j = true := by
  simp [linesUp]

/-- Each item stands in just one group, in its place. -/
theorem flatten_groups (b : Body) : (groups b).flatten = b :=
  List.flatten_splitBy linesUp b

/-- Neighbours of two groups do not line up, so no run is cut in two. -/
theorem groups_maximal (b : Body) :
    (groups b).IsChain fun g h => ∃ hg hh, linesUp (g.getLast hg) (h.head hh) = false :=
  List.isChain_getLast_head_splitBy linesUp b

/-- Items that line up with their neighbours are attributes on one line each. -/
theorem isSingle_of_isChain {i j : Item} {is : List Item}
    (h : (i :: j :: is).IsChain fun i j => linesUp i j = true) :
    ∀ k ∈ i :: j :: is, isSingle k = true := by
  induction is generalizing i j with
  | nil =>
    have hij := linesUp_eq_true_iff.1 (List.isChain_cons_cons.1 h).1
    simp [hij]
  | cons l is ih =>
    rcases List.isChain_cons_cons.1 h with ⟨hij, htail⟩
    have hi : isSingle i = true := (linesUp_eq_true_iff.1 hij).1
    intro k hk
    rcases List.mem_cons.1 hk with rfl | hk
    · exact hi
    · exact ih htail k hk

/-- What a group consists of. -/
theorem isGroup_of_mem_groups {b : Body} {g : List Item} (h : g ∈ groups b) : IsGroup g := by
  have hne : g ≠ [] := List.ne_nil_of_mem_splitBy h
  have hchain := List.isChain_of_mem_splitBy h
  cases g with
  | nil => exact absurd rfl hne
  | cons i is =>
    cases is with
    | cons j is => exact .singles hne (isSingle_of_isChain hchain)
    | nil =>
      by_cases hi : isSingle i = true
      · exact .singles hne (by simpa using hi)
      · exact .alone (by simpa using hi)

/-! ## Groups and runs -/

/-- An item that does not line up with the next one is a group of its own. -/
theorem groups_cons_of_apart {i : Item} {is : List Item}
    (h : ∀ j ∈ is.head?, linesUp i j = false) : groups (i :: is) = [i] :: groups is := by
  have happend := List.splitBy_append (r := linesUp) (l := [i]) (m := is) (by simpa using h)
  simpa [groups, List.splitBy_of_isChain] using happend

/-- An item that lines up with the next one joins its group. -/
theorem groups_cons_of_linesUp {i j : Item} {is g : List Item} {gs : List (List Item)}
    (h : linesUp i j = true) (hg : groups (j :: is) = (j :: g) :: gs) :
    groups (i :: j :: is) = (i :: j :: g) :: gs := by
  -- Only the chain of the first group grows, and its last item is still the same.
  rw [groups, List.splitBy_eq_iff] at hg ⊢
  rcases hg with ⟨hflatten, hne, hchain, hmax⟩
  refine ⟨?_, ?_, ?_, ?_⟩
  · simpa using hflatten
  · simpa using hne
  · intro m hm
    rcases List.mem_cons.1 hm with rfl | hm
    · exact List.isChain_cons_cons.2 ⟨h, hchain _ (List.mem_cons_self ..)⟩
    · exact hchain m (List.mem_cons_of_mem _ hm)
  · rw [List.isChain_cons] at hmax ⊢
    refine ⟨?_, hmax.2⟩
    intro m hm
    rcases hmax.1 m hm with ⟨hg, hm', hlast⟩
    refine ⟨List.cons_ne_nil _ _, hm', ?_⟩
    rwa [List.getLast_cons hg]

/-- The first group begins with the first item. -/
theorem exists_groups_cons (j : Item) (is : List Item) :
    ∃ g gs, groups (j :: is) = (j :: g) :: gs := by
  have hflatten := flatten_groups (j :: is)
  cases hgroups : groups (j :: is) with
  | nil => simp [hgroups] at hflatten
  | cons g gs =>
    have hne : g ≠ [] := by
      apply List.ne_nil_of_mem_splitBy (r := linesUp) (l := j :: is)
      rw [← groups, hgroups]
      exact List.mem_cons_self ..
    rcases List.exists_cons_of_ne_nil hne with ⟨k, g, rfl⟩
    rw [hgroups, List.flatten_cons, List.cons_append, List.cons.injEq] at hflatten
    exact ⟨g, gs, by rw [hflatten.1]⟩

/-- The run that a group is laid out as. -/
def Run.ofGroup (depth : Nat) : List Item → Run
  | .attr a :: is => if isMultiline a.raw then .alone a else .aligned (a :: Body.attributes is)
  | i :: _ => .text (itemText depth 0 i)
  | [] => .text []

/-- An item that is no attribute is laid out as its text. -/
theorem entry_of_not_attr {i : Item} (h : ∀ a, i ≠ .attr a) (depth : Nat) :
    entry depth i = .text (itemText depth 0 i) := by
  cases i with
  | attr a => exact absurd rfl (h a)
  | block kind labels body => simp [entry, itemText, renderBody]
  | blank => simp [entry, itemText]

/-- A group that begins with an attribute on one line is one run of attributes. -/
theorem ofGroup_single (depth : Nat) {a : Attribute} (h : isMultiline a.raw = false)
    (g : List Item) :
    Run.ofGroup depth (.attr a :: g) = .aligned (a :: Body.attributes g) := by
  simp [Run.ofGroup, h]

/-- A group that begins with any other item is no run of aligned attributes. -/
theorem ofGroup_ne_aligned (depth : Nat) {i : Item} (h : isSingle i = false) (g : List Item)
    (as : List Attribute) : Run.ofGroup depth (i :: g) ≠ .aligned as := by
  cases i with
  | attr a =>
    have hmulti : isMultiline a.raw = true := by simpa [isSingle] using h
    simp [Run.ofGroup, hmulti]
  | block kind labels body => simp [Run.ofGroup]
  | blank => simp [Run.ofGroup]

/-- An item that lines up with nothing is laid out by itself. -/
theorem cons_entry_of_not_single (depth : Nat) {i : Item} (h : isSingle i = false) (rs : List Run) :
    Run.cons (entry depth i) rs = Run.ofGroup depth [i] :: rs := by
  cases i with
  | attr a =>
    have hmulti : isMultiline a.raw = true := by simpa [isSingle] using h
    simp [entry, Run.cons, hmulti, Run.ofGroup]
  | block kind labels body =>
    simp [entry_of_not_attr (i := .block kind labels body) (by simp), Run.cons, Run.ofGroup]
  | blank => simp [entry_of_not_attr (i := .blank) (by simp), Run.cons, Run.ofGroup]

/-- A single-line attribute in front of no other begins a run. -/
theorem cons_attr_of_apart {a : Attribute} (h : isMultiline a.raw = false) {rs : List Run}
    (hrs : ∀ r ∈ rs.head?, ∀ as, r ≠ .aligned as) :
    Run.cons (.attr a) rs = .aligned [a] :: rs := by
  cases rs with
  | nil => simp [Run.cons, h]
  | cons r rs =>
    cases r with
    | aligned as => exact absurd rfl (hrs _ rfl as)
    | alone b => simp [Run.cons, h]
    | text t => simp [Run.cons, h]

/-- A single-line attribute in front of items. -/
theorem cons_attr (depth : Nat) {a : Attribute} (h : isMultiline a.raw = false) (is : List Item) :
    Run.cons (.attr a) ((groups is).map (Run.ofGroup depth)) =
      (groups (.attr a :: is)).map (Run.ofGroup depth) := by
  have ha : isSingle (.attr a) = true := by simp [isSingle, h]
  cases is with
  | nil =>
    rw [groups_cons_of_apart (by simp), List.map_cons, ofGroup_single depth h]
    exact cons_attr_of_apart h (by simp [groups])
  | cons j is =>
    rcases exists_groups_cons j is with ⟨g, gs, hg⟩
    by_cases hj : isSingle j = true
    · rw [groups_cons_of_linesUp (linesUp_eq_true_iff.2 ⟨ha, hj⟩) hg, hg]
      cases j with
      | attr b =>
        have hb : isMultiline b.raw = false := by simpa [isSingle] using hj
        simp only [List.map_cons, ofGroup_single depth h, ofGroup_single depth hb]
        simp [Run.cons, h, Body.attributes, Item.asAttribute?]
      | block kind labels body => simp [isSingle] at hj
      | blank => simp [isSingle] at hj
    · have hapart : groups (.attr a :: j :: is) = [.attr a] :: groups (j :: is) :=
        groups_cons_of_apart (by simp [linesUp, hj])
      simp only [hapart, hg, List.map_cons, ofGroup_single depth h]
      apply cons_attr_of_apart h
      simpa using ofGroup_ne_aligned depth (by simpa using hj) g

/-- An item in front of groups is laid out in front of their runs. -/
theorem cons_entry (depth : Nat) (i : Item) (is : List Item) :
    Run.cons (entry depth i) ((groups is).map (Run.ofGroup depth)) =
      (groups (i :: is)).map (Run.ofGroup depth) := by
  by_cases hi : isSingle i = true
  · cases i with
    | attr a =>
      rw [entry]
      exact cons_attr depth (by simpa [isSingle] using hi) is
    | block kind labels body => simp [isSingle] at hi
    | blank => simp [isSingle] at hi
  · rw [groups_cons_of_apart (by simp [linesUp, hi]), List.map_cons]
    exact cons_entry_of_not_single depth (by simpa using hi) _

/-- The groups of a body are the runs that it is laid out in. -/
theorem runs_entries (depth : Nat) (b : Body) :
    runs (entries depth b) = (groups b).map (Run.ofGroup depth) := by
  induction b with
  | nil => simp [entries, runs, groups]
  | cons i is ih => rw [entries, runs_cons, ih, cons_entry]

/-! ## The text of a group -/

/-- Items on lines of their own are attributes. -/
theorem map_attributes_of_singles {g : List Item} (h : ∀ i ∈ g, isSingle i = true) :
    (Body.attributes g).map Item.attr = g := by
  induction g with
  | nil => rfl
  | cons i is ih =>
    have hi := h i (List.mem_cons_self ..)
    have htail := ih fun j hj => h j (List.mem_cons_of_mem _ hj)
    cases i with
    | attr a => simpa [Body.attributes, Item.asAttribute?] using htail
    | block kind labels body => simp [isSingle] at hi
    | blank => simp [isSingle] at hi

theorem renderAttribute_unpadded (depth : Nat) (a : Attribute) :
    renderAttribute depth a.name.length a = renderAttribute depth 0 a := by
  simp [renderAttribute]

/-- A group is written item by item. -/
theorem render_ofGroup (depth : Nat) {g : List Item} (h : IsGroup g) :
    (Run.ofGroup depth g).render depth = g.flatMap (itemText depth (groupWidth g)) := by
  cases h with
  | singles hne hsingles =>
    rcases List.exists_cons_of_ne_nil hne with ⟨i, is, rfl⟩
    have hi := hsingles i (List.mem_cons_self ..)
    cases i with
    | attr a =>
      have hsingle : isMultiline a.raw = false := by simpa [isSingle] using hi
      have hrun : Run.ofGroup depth (.attr a :: is) = .aligned (Body.attributes (.attr a :: is)) :=
        ofGroup_single depth hsingle is
      rw [hrun, Run.render, groupWidth]
      generalize nameWidth (Body.attributes (.attr a :: is)) = width
      conv_rhs => rw [← map_attributes_of_singles hsingles, List.flatMap_map]
      rfl
    | block kind labels body => simp [isSingle] at hi
    | blank => simp [isSingle] at hi
  | @alone i hi =>
    cases i with
    | attr a =>
      have hmulti : isMultiline a.raw = true := by simpa [isSingle] using hi
      have hwidth : groupWidth [.attr a] = a.name.length := by
        simp [groupWidth, nameWidth, Body.attributes, Item.asAttribute?]
      simp [Run.ofGroup, hmulti, Run.render, itemText, hwidth, renderAttribute_unpadded]
    | block kind labels body => simp [Run.ofGroup, Run.render, itemText]
    | blank => simp [Run.ofGroup, Run.render, itemText]

/-- A body is written group by group and item by item. -/
theorem renderBody_eq_groups (depth : Nat) (b : Body) :
    renderBody depth b = (groups b).flatMap fun g => g.flatMap (itemText depth (groupWidth g)) := by
  rw [renderBody, assemble, runs_entries, List.flatMap_map]
  apply List.flatMap_congr
  intro g hg
  exact render_ofGroup depth (isGroup_of_mem_groups hg)

/-- Every item ends its line. -/
theorem exists_itemText (depth width : Nat) (i : Item) :
    ∃ t, itemText depth width i = t ++ ['\n'] := by
  cases i with
  | attr a => exact ⟨_, rfl⟩
  | block kind labels body =>
    refine ⟨header depth kind labels ++ renderBody (depth + 1) body ++ (indent depth ++ ['}']), ?_⟩
    simp [itemText, footer]
  | blank => exact ⟨[], rfl⟩

/-! ## The names of a group -/

/-- No name is longer than the width of the names. -/
theorem length_le_nameWidth {as : List Attribute} {a : Attribute} (h : a ∈ as) :
    a.name.length ≤ nameWidth as := by
  induction as with
  | nil => simp at h
  | cons b as ih =>
    have hcons : nameWidth (b :: as) = max b.name.length (nameWidth as) := rfl
    rcases List.mem_cons.1 h with rfl | h
    · omega
    · have hle := ih h
      omega

/-- Some name is as long as the width of the names. -/
theorem exists_length_eq_nameWidth {as : List Attribute} (h : as ≠ []) :
    ∃ a ∈ as, a.name.length = nameWidth as := by
  induction as with
  | nil => exact absurd rfl h
  | cons b as ih =>
    have hcons : nameWidth (b :: as) = max b.name.length (nameWidth as) := rfl
    by_cases hle : nameWidth as ≤ b.name.length
    · exact ⟨b, List.mem_cons_self .., by omega⟩
    · have hne : as ≠ [] := by
        rintro rfl
        simp [nameWidth] at hle
      rcases ih hne with ⟨a, ha, hwidth⟩
      exact ⟨a, List.mem_cons_of_mem _ ha, by omega⟩

/-- The text in front of the equals sign of an attribute, with spaces after its name and one more in
front of the sign. -/
def beforeEquals (depth spaces : Nat) (a : Attribute) : List Char :=
  indent depth ++ a.name.toList ++ List.replicate spaces ' ' ++ [' ']

/-- How an attribute of a group is written at a depth. -/
structure AlignedIn (depth : Nat) (g : List Item) (a : Attribute) : Prop where
  fits : a.name.length ≤ groupWidth g
  text : itemText depth (groupWidth g) (.attr a) =
    beforeEquals depth (groupWidth g - a.name.length) a ++
      '=' :: ' ' :: (reindent depth a.raw.toList ++ ['\n'])
  /-- The equals sign stands in the column that all of the group share. -/
  column : (beforeEquals depth (groupWidth g - a.name.length) a).length =
    2 * depth + groupWidth g + 1
  /-- It is a column of the line that the attribute begins with, unless its name breaks the line. -/
  line : '\n' ∈ beforeEquals depth (groupWidth g - a.name.length) a ↔ '\n' ∈ a.name.toList
  /-- A value of several lines stands alone, and its name is not padded. -/
  alone : isMultiline a.raw = true → g = [.attr a] ∧ groupWidth g = a.name.length

/-- In a group that lines up, every attribute does. -/
theorem alignedIn_of_mem (depth : Nat) {g : List Item} (hg : IsGroup g) {a : Attribute}
    (ha : .attr a ∈ g) : AlignedIn depth g a := by
  have hle : a.name.length ≤ groupWidth g := length_le_nameWidth (Body.mem_attributes_iff.2 ha)
  have hlength : a.name.toList.length = a.name.length := String.length_toList
  refine ⟨hle, ?_, ?_, ?_, ?_⟩
  · simp [itemText, renderAttribute, beforeEquals]
  · simp only [beforeEquals, indent, List.length_append, List.length_replicate, hlength,
      List.length_singleton]
    omega
  · simp [beforeEquals, indent]
  · intro hmulti
    cases hg with
    | singles hne hsingles =>
      have hsingle := hsingles _ ha
      simp [isSingle, hmulti] at hsingle
    | alone hi =>
      rw [List.mem_singleton] at ha
      rw [← ha]
      simp [groupWidth, nameWidth, Body.attributes, Item.asAttribute?]

/-- A body is written group by group, and so item by item, each item once and in its place, on lines
of its own.  A group is a longest run of attributes on one line each, or any other item by itself;
an attribute takes one line if its value, without the blanks around it, holds no newline.  The names
of a group are padded to the longest of them, so their equals signs stand in one column; a value of
several lines is alone in its group. -/
theorem renderBody_aligned (depth : Nat) (b : Body) :
    (∀ a : Attribute, (isMultiline a.raw = true ↔ '\n' ∈ trim a.raw.toList) ∧
      (isSingle (.attr a) = true ↔ '\n' ∉ trim a.raw.toList)) ∧
      (groups b).flatten = b ∧
      (∀ g ∈ groups b, IsGroup g) ∧
      (groups b).IsChain (fun g h => ∃ hg hh, linesUp (g.getLast hg) (h.head hh) = false) ∧
      renderBody depth b = (groups b).flatMap (fun g => g.flatMap (itemText depth (groupWidth g))) ∧
      (∀ width i, ∃ t, itemText depth width i = t ++ ['\n']) ∧
      ∀ g ∈ groups b, ∀ a, .attr a ∈ g →
        AlignedIn depth g a ∧
          ∃ longest, .attr longest ∈ g ∧ longest.name.length = groupWidth g := by
  refine ⟨fun a => ⟨isMultiline_iff, isSingle_attr_iff⟩, flatten_groups b,
    fun g hg => isGroup_of_mem_groups hg, groups_maximal b, renderBody_eq_groups depth b,
    exists_itemText depth, ?_⟩
  intro g hg a ha
  refine ⟨alignedIn_of_mem depth (isGroup_of_mem_groups hg) ha, ?_⟩
  have hne : Body.attributes g ≠ [] := List.ne_nil_of_mem (Body.mem_attributes_iff.2 ha)
  rcases exists_length_eq_nameWidth hne with ⟨longest, hlongest, hwidth⟩
  exact ⟨longest, Body.mem_attributes_iff.1 hlongest, hwidth⟩

/-- Two runs, on both sides of a value over two lines. -/
example : renderBody 0 [.attr ⟨"a", "1"⟩, .attr ⟨"long", "2"⟩, .attr ⟨"list", "[\n]"⟩,
    .attr ⟨"b", "3"⟩] = "a    = 1\nlong = 2\nlist = [\n]\nb = 3\n".toList := by
  decide +kernel

end HclQuery.Layout
