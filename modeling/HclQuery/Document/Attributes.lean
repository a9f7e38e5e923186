/-!
# Attributes of a block

A block maps attribute names to expression text.  The map is a list of entries in strictly ascending
order of names, so that equal maps are equal lists and every encoding shows the same order.

Main results:

- Theorem {lit}`get?_insert_self`: an attribute that was inserted is found.
- Theorem {lit}`mem_insertEntry`: the entries after an insertion are old ones or the new one.
-/

namespace HclQuery

/-- A map from names to expression text, in strictly ascending order of names. -/
structure Attributes where
  entries : List (String × String)
  sorted : entries.Pairwise (fun a b => a.1 < b.1)
  deriving DecidableEq, Repr

namespace Attributes

/-- The map without entries. -/
def empty : Attributes := ⟨[], .nil⟩

instance : Inhabited Attributes := ⟨empty⟩

/-- The entries with one added at its place; an entry of the same name is replaced. -/
def insertEntry (name raw : String) : List (String × String) → List (String × String)
  | [] => [(name, raw)]
  | e :: es =>
    if name < e.1 then (name, raw) :: e :: es
    else if e.1 < name then e :: insertEntry name raw es
    else (name, raw) :: es

/-- Nothing is in the entries after an insertion but the new entry and what was there. -/
theorem mem_insertEntry {name raw : String} {es : List (String × String)} {x : String × String}
    (h : x ∈ insertEntry name raw es) : x = (name, raw) ∨ x ∈ es := by
  induction es with
  | nil => simpa [insertEntry] using h
  | cons e es ih =>
    rw [insertEntry] at h
    split at h
    · simpa using h
    · split at h
      · rcases List.mem_cons.1 h with rfl | h
        · exact .inr (List.mem_cons_self ..)
        · rcases ih h with h | h
          · exact .inl h
          · exact .inr (List.mem_cons_of_mem _ h)
      · rcases List.mem_cons.1 h with h | h
        · exact .inl h
        · exact .inr (List.mem_cons_of_mem _ h)

/-- Entries stay in the order of their names. -/
theorem sorted_insertEntry {name raw : String} {es : List (String × String)}
    (h : es.Pairwise (fun a b => a.1 < b.1)) :
    (insertEntry name raw es).Pairwise (fun a b => a.1 < b.1) := by
  induction es with
  | nil => simp [insertEntry]
  | cons e es ih =>
    rw [List.pairwise_cons] at h
    rw [insertEntry]
    split
    · next hlt =>
      refine List.pairwise_cons.2 ⟨fun x hx => ?_, List.pairwise_cons.2 h⟩
      rcases List.mem_cons.1 hx with rfl | hx
      · exact hlt
      · exact String.lt_trans hlt (h.1 x hx)
    · next hnl =>
      split
      · next hgt =>
        refine List.pairwise_cons.2 ⟨fun x hx => ?_, ih h.2⟩
        rcases mem_insertEntry hx with rfl | hx
        · exact hgt
        · exact h.1 x hx
      · next hng =>
        have heq : name = e.1 := String.le_antisymm (String.not_lt.1 hng) (String.not_lt.1 hnl)
        exact List.pairwise_cons.2 ⟨fun x hx => heq ▸ h.1 x hx, h.2⟩

/-- The map with an attribute set. -/
def insert (m : Attributes) (name raw : String) : Attributes :=
  ⟨insertEntry name raw m.entries, sorted_insertEntry m.sorted⟩

/-- The map without the attribute of a name. -/
def erase (m : Attributes) (name : String) : Attributes :=
  ⟨m.entries.filter (fun e => e.1 != name), m.sorted.filter _⟩

/-- The text of the attribute of a name. -/
def get? (m : Attributes) (name : String) : Option String :=
  m.entries.lookup name

/-- The map of a list of attributes; of equal names the last one holds. -/
def ofList (es : List (String × String)) : Attributes :=
  es.foldl (fun m e => m.insert e.1 e.2) empty

/-- The map without entries has none. -/
def isEmpty (m : Attributes) : Bool :=
  m.entries.isEmpty

/-- A name that has just been inserted is found with its text. -/
theorem lookup_insertEntry_self (name raw : String) (es : List (String × String)) :
    (insertEntry name raw es).lookup name = some raw := by
  induction es with
  | nil => simp [insertEntry]
  | cons e es ih =>
    rw [insertEntry]
    split
    · simp
    · split
      · next hgt =>
        have hne : (name == e.1) = false := by
          simpa using fun h : name = e.1 => String.lt_irrefl _ (h ▸ hgt)
        rw [List.lookup_cons, hne]
        exact ih
      · simp

/-- An attribute that was inserted is found. -/
theorem get?_insert_self (m : Attributes) (name raw : String) :
    (m.insert name raw).get? name = some raw :=
  lookup_insertEntry_self name raw m.entries

end Attributes

end HclQuery
