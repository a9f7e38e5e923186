import HclQuery.Document.Attributes
import Mathlib.Data.List.Basic

/-!
# Attributes in ascending order

Entries that arrive in ascending order of their names are added at the end of the map, so a map is
built again from its own entries.  A map is known by its names and by what it holds for each.

Main results:

- Theorem {lit}`insertEntry_of_forall_lt`: an entry beyond all others is added at the end.
- Theorem {lit}`ofList_entries`: a map is the map of its entries.
- Theorem {lit}`get?_ofList`: of equal names the last one holds.
- Theorem {lit}`entries_eq_filterMap`: the entries are what the map holds for each of its names.
- Theorem {lit}`ofList_of_perm`: a map is the map of its entries in any order.
-/

namespace HclQuery.Attributes

/-- Attributes with the same entries are the same. -/
theorem eq_of_entries {m n : Attributes} (h : m.entries = n.entries) : m = n := by
  cases m
  cases n
  simp only [mk.injEq]
  exact h

/-- An entry beyond all others is added at the end. -/
theorem insertEntry_of_forall_lt {name raw : String} {es : List (String × String)}
    (h : ∀ e ∈ es, e.1 < name) : insertEntry name raw es = es ++ [(name, raw)] := by
  induction es with
  | nil => rfl
  | cons e es ih =>
    have he : e.1 < name := h e (List.mem_cons_self ..)
    have hnot : ¬name < e.1 := fun hlt => String.lt_irrefl _ (String.lt_trans hlt he)
    rw [insertEntry, if_neg hnot, if_pos he, ih fun e' he' => h e' (List.mem_cons_of_mem _ he')]
    rfl

/-- A name after all others is inserted at the end. -/
theorem entries_insert_of_forall_lt {m : Attributes} {name : String} (raw : String)
    (h : ∀ e ∈ m.entries, e.1 < name) : (m.insert name raw).entries = m.entries ++ [(name, raw)] :=
  insertEntry_of_forall_lt h

/-- Entries that go on in ascending order are added one after the other. -/
theorem entries_foldl_insert {es : List (String × String)} {m : Attributes}
    (h : (m.entries ++ es).Pairwise (fun a b => a.1 < b.1)) :
    (es.foldl (fun m e => m.insert e.1 e.2) m).entries = m.entries ++ es := by
  induction es generalizing m with
  | nil => simp
  | cons e es ih =>
    have hlt : ∀ e' ∈ m.entries, e'.1 < e.1 := by
      intro e' he'
      exact (List.pairwise_append.1 h).2.2 e' he' e (List.mem_cons_self ..)
    have hinsert := entries_insert_of_forall_lt e.2 hlt
    rw [List.foldl_cons, ih (by rw [hinsert]; simpa using h), hinsert]
    simp

/-- A map is the map of its entries. -/
theorem ofList_entries (m : Attributes) : ofList m.entries = m := by
  apply eq_of_entries
  exact entries_foldl_insert (m := empty) m.sorted

/-- What inserting a list one after the other leaves was there or is of the list. -/
theorem mem_of_mem_foldl_insert {es : List (String × String)} {m : Attributes}
    {e : String × String} (h : e ∈ (es.foldl (fun m e => m.insert e.1 e.2) m).entries) :
    e ∈ m.entries ∨ e ∈ es := by
  induction es generalizing m with
  | nil => exact .inl h
  | cons e' es ih =>
    rcases ih h with hm | hes
    · rcases mem_insertEntry hm with rfl | hm
      · exact .inr (List.mem_cons_self ..)
      · exact .inl hm
    · exact .inr (List.mem_cons_of_mem _ hes)

/-- The entries of the map of a list are in the list. -/
theorem mem_of_mem_ofList {es : List (String × String)} {e : String × String}
    (h : e ∈ (ofList es).entries) : e ∈ es := by
  rcases mem_of_mem_foldl_insert h with h | h
  · cases h
  · exact h

/-! ## What a map holds -/

/-- Inserting a name changes what is found under it, and under no other name. -/
theorem lookup_insertEntry (name raw : String) (es : List (String × String)) (n : String) :
    (insertEntry name raw es).lookup n = if n = name then some raw else es.lookup n := by
  by_cases hn : n = name
  · rw [if_pos hn, hn, lookup_insertEntry_self]
  · have hfront : ∀ es', ((name, raw) :: es').lookup n = es'.lookup n := by
      intro es'
      rw [List.lookup_cons, beq_false_of_ne hn]
    rw [if_neg hn]
    induction es with
    | nil => exact hfront []
    | cons e es ih =>
      rw [insertEntry]
      split
      · exact hfront _
      · next hnl =>
        split
        · rw [List.lookup_cons, ih, List.lookup_cons]
        · next hng =>
          have heq : name = e.1 := String.le_antisymm (String.not_lt.1 hng) (String.not_lt.1 hnl)
          rw [hfront, List.lookup_cons, beq_false_of_ne (heq ▸ hn)]

/-- After inserting a list one after the other, a name has its last text of the list. -/
theorem get?_foldl_insert (es : List (String × String)) (m : Attributes) (n : String) :
    (es.foldl (fun m e => m.insert e.1 e.2) m).get? n = (es.reverse.lookup n).or (m.get? n) := by
  induction es generalizing m with
  | nil => rfl
  | cons e es ih =>
    have hinsert : (m.insert e.1 e.2).get? n = if n = e.1 then some e.2 else m.get? n :=
      lookup_insertEntry ..
    rw [List.foldl_cons, ih, hinsert, List.reverse_cons, List.lookup_append, Option.or_assoc]
    congr 1
    by_cases hn : n = e.1
    · rw [if_pos hn, List.lookup_cons, hn, BEq.rfl]
      rfl
    · rw [if_neg hn, List.lookup_cons, beq_false_of_ne hn]
      rfl

/-- Of equal names the last one holds. -/
theorem get?_ofList (es : List (String × String)) (n : String) :
    (ofList es).get? n = es.reverse.lookup n := by
  rw [ofList, get?_foldl_insert]
  exact Option.or_none

/-- The names in a map are those for which it holds a value. -/
theorem mem_map_fst_iff_lookup (es : List (String × String)) (n : String) :
    n ∈ es.map (·.1) ↔ (es.lookup n).isSome := by
  induction es with
  | nil => simp
  | cons e es ih =>
    rw [List.map_cons, List.mem_cons, ih, List.lookup_cons]
    by_cases hn : n = e.1
    · simp [hn]
    · simp [hn, beq_false_of_ne hn]

/-- Entries of distinct names are what is found under each of their names. -/
theorem eq_filterMap_lookup {es : List (String × String)} (h : (es.map (·.1)).Nodup) :
    es = (es.map (·.1)).filterMap fun n => (es.lookup n).map fun v => (n, v) := by
  induction es with
  | nil => rfl
  | cons e es ih =>
    rw [List.map_cons, List.nodup_cons] at h
    have hrest : ∀ n ∈ es.map (·.1),
        ((e :: es).lookup n).map (fun v => (n, v)) = (es.lookup n).map fun v => (n, v) := by
      intro n hn
      have hne : n ≠ e.1 := fun heq => h.1 (heq ▸ hn)
      rw [List.lookup_cons, beq_false_of_ne hne]
    have hhead : (e :: es).lookup e.1 = some e.2 := List.lookup_cons_self
    rw [List.map_cons, List.filterMap_cons, hhead, List.filterMap_congr hrest, ← ih h.2]
    rfl

/-- The entries of a map are what it holds for each of its names. -/
theorem entries_eq_filterMap (m : Attributes) :
    m.entries = (m.entries.map (·.1)).filterMap fun n => (m.get? n).map fun v => (n, v) :=
  eq_filterMap_lookup (List.pairwise_map.2 (m.sorted.imp fun h => String.ne_of_lt h))

/-! ## Entries in any order -/

/-- Inserting a new name puts it somewhere among the entries. -/
theorem insertEntry_perm {name raw : String} {es : List (String × String)}
    (h : name ∉ es.map (·.1)) : (insertEntry name raw es).Perm ((name, raw) :: es) := by
  induction es with
  | nil => rfl
  | cons e es ih =>
    rw [List.map_cons, List.mem_cons, not_or] at h
    rw [insertEntry]
    split
    · rfl
    · next hnl =>
      split
      · exact ((ih h.2).cons e).trans (.swap ..)
      · next hng =>
        exact absurd (String.le_antisymm (String.not_lt.1 hng) (String.not_lt.1 hnl)) h.1

/-- Entries of distinct names are added to a map in any order. -/
theorem foldl_insert_perm {es : List (String × String)} {m : Attributes}
    (h : ((m.entries ++ es).map (·.1)).Nodup) :
    (es.foldl (fun m e => m.insert e.1 e.2) m).entries.Perm (m.entries ++ es) := by
  induction es generalizing m with
  | nil => simp
  | cons e es ih =>
    have hnew : e.1 ∉ m.entries.map (·.1) := by
      rw [List.map_append, List.map_cons] at h
      exact fun hmem => (List.nodup_append.1 h).2.2 _ hmem _ (List.mem_cons_self ..) rfl
    have hperm : ((m.insert e.1 e.2).entries ++ es).Perm (m.entries ++ e :: es) :=
      ((insertEntry_perm hnew).append_right es).trans List.perm_middle.symm
    exact (ih ((hperm.map _).nodup_iff.2 h)).trans hperm

/-- A map is the map of its entries in any order. -/
theorem ofList_of_perm {es : List (String × String)} {m : Attributes} (h : es.Perm m.entries) :
    ofList es = m := by
  have hnodup : (m.entries.map (·.1)).Nodup :=
    List.pairwise_map.2 (m.sorted.imp fun h => String.ne_of_lt h)
  have hperm : (ofList es).entries.Perm m.entries :=
    (foldl_insert_perm (m := empty) ((h.map _).nodup_iff.2 hnodup)).trans h
  refine eq_of_entries (hperm.eq_of_pairwise ?_ (ofList es).sorted m.sorted)
  exact fun a b _ _ hab hba => absurd (String.lt_trans hab hba) (String.lt_irrefl _)

end HclQuery.Attributes
