import HclQuery.Proofs.Json.Given

/-!
# JSON: what is written is JSON

The texts that the writer makes are texts of values in the grammar: of strings, and of lists and
objects of what is written inside them, on one line or with one member to a line.

Main definitions:

- {lit}`written`: a name as it is written between its quotes.
- {lit}`Spelled`: a text is the text of a value, between any blanks and whatever follows.

Main results:

- Theorem {lit}`keyName?_written`: the name of a key that is written.
- Theorems {lit}`spelled_writeString`, {lit}`spelled_writeList` and {lit}`spelled_writeObject`: what
  is written is the text of a value.
-/

namespace HclQuery.Json

open Byte
open Text (Utf8.encode)
open Text.Utf8

/-! ## Strings -/

/-- A name as it is written between its quotes. -/
def written (x : String) : List UInt8 :=
  encode (x.toList.flatMap escapeChar)

/-- A written string has its text as its name. -/
theorem keyName?_written (x : String) : keyName? (written x) = some x := by
  have h : string (written x ++ [quote]) = .ok (x, []) := string_flatMap_escapeChar x []
  rw [keyName?, h]
  rfl

/-- The string value that is written for a name. -/
def Value.ofString (x : String) : Value :=
  .string (written x)

/-- What is written between quotes is the inside of a string. -/
theorem stringBody_written (x : String) (r : List UInt8) :
    StringBody (written x) (written x ++ quote :: r) r := by
  rcases string_eq_ok (string_flatMap_escapeChar x r) with ⟨body, hbody, -⟩
  obtain rfl : written x = body := List.append_cancel_right hbody.eq_append
  exact hbody

/-! ## Texts of values -/

/-- The text is the text of the value, between any blanks and whatever follows. -/
def Spelled (t : List Char) (v : Value) : Prop :=
  ∀ w rest, Blank w → Spells v (w ++ (encode t ++ rest)) rest

/-- A text of the value, with blanks around it, is one as a whole. -/
theorem Spelled.isText {t : List Char} {v : Value} (h : Spelled t v) {before after : List UInt8}
    (hbefore : Blank before) (hafter : Blank after) :
    IsText v (before ++ (encode t ++ after)) := by
  refine ⟨after, h before after hbefore, ?_⟩
  rw [← List.append_nil after, skipSpace_append hafter]
  rfl

/-- The text of a value is read as what the value gives. -/
theorem Spelled.reads {α : Type} {read : Reader α} {t : List Char} {v : Value} {x : α}
    (h : Spelled t v) (hgives : Gives read v x) : Reads read t x :=
  fun w rest hw => hgives (h w rest hw)

/-- A written string is the text of its value. -/
theorem spelled_writeString (x : String) : Spelled (writeString x) (.ofString x) := by
  intro w rest hw
  refine .scalar ?_
  rw [skipSpace_append hw, encode_writeString, skipSpace_cons rfl]
  exact .string (stringBody_written x rest)

/-- A written string is read back. -/
theorem reads_stringValue (x : String) : Reads stringValue (writeString x) x :=
  (spelled_writeString x).reads (gives_stringValue (keyName?_written x))

/-- What separates a member from those before is followed by the member. -/
theorem exists_separated (spacing : Spacing) (first : Bool) (s : List UInt8) :
    ∃ u, Separated first (encode (separator spacing first) ++ s) u ∧ skipSpace u = skipSpace s := by
  have hbreak := blank_lineBreak spacing
  cases first with
  | true =>
    refine ⟨skipSpace s, ?_, skipSpace_skipSpace s⟩
    simp only [Separated, separator, if_true, skipSpace_append hbreak]
  | false =>
    refine ⟨encode spacing.lineBreak ++ s, ?_, skipSpace_append hbreak s⟩
    have hcomma : encode (separator spacing false) ++ s =
        comma :: (encode spacing.lineBreak ++ s) := rfl
    rw [Separated, hcomma, skipSpace_cons rfl]

section

variable {α : Type} {spacing : Spacing} {text : α → List Char} {value : α → Value}

/-- Joined texts of values are the items of a list. -/
theorem items_joined {xs : List α} (h : ∀ x ∈ xs, Spelled (text x) (value x)) {w : List UInt8}
    (hw : Blank w) (rest : List UInt8) (first : Bool) :
    Items first (xs.map value)
      (encode (joined spacing first (xs.map text)) ++ (w ++ closeBracket :: rest)) rest := by
  induction xs generalizing first with
  | nil =>
    refine .close ?_
    rw [List.map_nil, joined, encode_nil, List.nil_append, skipSpace_append hw, skipSpace_cons rfl]
  | cons x xs ih =>
    have hx := h x (List.mem_cons_self ..) []
      (encode (joined spacing false (xs.map text)) ++ (w ++ closeBracket :: rest)) Blank.nil
    have htail := ih (fun x' hx' => h x' (List.mem_cons_of_mem _ hx')) false
    rw [List.map_cons, List.map_cons, joined, encode_append, encode_append, List.append_assoc,
      List.append_assoc]
    rcases exists_separated spacing first (encode (text x) ++
      (encode (joined spacing false (xs.map text)) ++ (w ++ closeBracket :: rest)))
      with ⟨u, hu, hskip⟩
    exact .item hu (.of_skipSpace (hskip ▸ hx.skipSpace)) htail

/-- A list that is written is the text of the list of what is written inside. -/
theorem spelled_writeList {xs : List α} (h : ∀ x ∈ xs, Spelled (text x) (value x)) :
    Spelled (writeList spacing (xs.map text)) (.list (xs.map value)) := by
  intro w rest hw
  rcases encode_writeList spacing (xs.map text) with ⟨v, hv, hbytes⟩
  have hfront : skipSpace (w ++ (encode (writeList spacing (xs.map text)) ++ rest)) =
      openBracket :: (encode (joined spacing.inner true (xs.map text)) ++
        (v ++ closeBracket :: rest)) := by
    rw [skipSpace_append hw, hbytes, skipSpace_cons rfl]
  exact .list hfront (items_joined h hv rest true)

variable {name : α → String}

/-- Joined members are the members of an object. -/
theorem members_joinedMembers {xs : List α} (h : ∀ x ∈ xs, Spelled (text x) (value x))
    {w : List UInt8} (hw : Blank w) (rest : List UInt8) (first : Bool) :
    Members first (xs.map fun x => (written (name x), value x))
      (encode (joinedMembers spacing first (xs.map fun x => (name x, text x))) ++
        (w ++ closeBrace :: rest)) rest := by
  induction xs generalizing first with
  | nil =>
    refine .close ?_
    rw [List.map_nil, joinedMembers, List.map_nil, joined, encode_nil, List.nil_append,
      skipSpace_append hw, skipSpace_cons rfl]
  | cons x xs ih =>
    have htail := ih (fun x' hx' => h x' (List.mem_cons_of_mem _ hx')) false
    have hbytes : encode (joinedMembers spacing first ((x :: xs).map fun x => (name x, text x))) ++
        (w ++ closeBrace :: rest) =
        encode (separator spacing.inner first) ++ (encode (writeString (name x)) ++
          (encode (spacing.colon ++ text x) ++
            (encode (joinedMembers spacing false (xs.map fun x => (name x, text x))) ++
              (w ++ closeBrace :: rest)))) := by
      simp only [joinedMembers, List.map_cons, joined, writeMember, encode_append,
        List.append_assoc]
    rw [hbytes, List.map_cons]
    generalize encode (joinedMembers spacing false (xs.map fun x => (name x, text x))) ++
      (w ++ closeBrace :: rest) = s at htail ⊢
    rcases exists_separated spacing.inner first (encode (writeString (name x)) ++
      (encode (spacing.colon ++ text x) ++ s)) with ⟨u, hu, hskip⟩
    rcases skipSpace_colon spacing (text x) s with ⟨v, hv, hcolon⟩
    refine .member hu ⟨_, _, ?_, stringBody_written _ _, hcolon⟩
      (h x (List.mem_cons_self ..) v s hv) htail
    rw [hskip, encode_writeString, skipSpace_cons rfl]
    rfl

/-- An object that is written is the text of the object of what is written inside. -/
theorem spelled_writeObject {xs : List α} (h : ∀ x ∈ xs, Spelled (text x) (value x)) :
    Spelled (writeObject spacing (xs.map fun x => (name x, text x)))
      (.object (xs.map fun x => (written (name x), value x))) := by
  intro w rest hw
  rcases encode_writeObject spacing (xs.map fun x => (name x, text x)) with ⟨v, hv, hbytes⟩
  have hfront : skipSpace (w ++
      (encode (writeObject spacing (xs.map fun x => (name x, text x))) ++ rest)) =
      openBrace :: (encode (joinedMembers spacing true (xs.map fun x => (name x, text x))) ++
        (v ++ closeBrace :: rest)) := by
    rw [skipSpace_append hw, hbytes, skipSpace_cons rfl]
  exact .object hfront (members_joinedMembers h hv rest true)

end

end HclQuery.Json
