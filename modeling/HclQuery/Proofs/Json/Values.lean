import HclQuery.Json.Decoder
import HclQuery.Proofs.Json.Strings

/-!
# JSON: lists and objects that are written

What the writer makes of lists and objects: members with blanks and commas in front of each, between
brackets.  A reader reads a text if it gives its value and leaves what follows, whatever blanks
stand in front.  The readers of lists and records refuse the texts that the writer makes of members
if one of them is refused after those in front of it were read.

Main definitions:

- {lit}`Reads`, {lit}`Refuses`: what a reader does with a text.
- {lit}`joined`: members with what stands in front of each.
- {lit}`RefusesMembers`: one of the members of an object is refused.

Main results:

- Theorems {lit}`encode_writeList` and {lit}`encode_writeObject`: the bytes of lists and objects.
- Theorems {lit}`refuses_list` and {lit}`refuses_record`: what is refused inside is refused outside.
-/

namespace HclQuery.Json

open Byte
open Text (Utf8.encode)
open Text.Utf8

/-! ## Blanks -/

/-- Bytes that stand between tokens. -/
def Blank (w : List UInt8) : Prop :=
  ∀ b ∈ w, isSpace b = true

theorem Blank.nil : Blank [] := by
  intro b hb
  cases hb

theorem Blank.cons {b : UInt8} {w : List UInt8} (hb : isSpace b = true) (hw : Blank w) :
    Blank (b :: w) := by
  intro b' hb'
  rcases List.mem_cons.1 hb' with rfl | hb'
  · exact hb
  · exact hw b' hb'

/-- Blank bytes in front are skipped. -/
theorem skipSpace_append {w : List UInt8} (hw : Blank w) (s : List UInt8) :
    skipSpace (w ++ s) = skipSpace s := by
  induction w with
  | nil => rfl
  | cons b w ih =>
    have hb : isSpace b = true := hw b (List.mem_cons_self ..)
    have htail : Blank w := fun b' hb' => hw b' (List.mem_cons_of_mem _ hb')
    rw [List.cons_append, skipSpace, List.dropWhile_cons_of_pos hb]
    exact ih htail

theorem skipSpace_cons {b : UInt8} (hb : isSpace b = false) (s : List UInt8) :
    skipSpace (b :: s) = b :: s := by
  rw [skipSpace, List.dropWhile_cons_of_neg (by simp [hb])]

theorem blank_lineBreak (spacing : Spacing) : Blank (encode spacing.lineBreak) := by
  cases spacing with
  | compact => exact Blank.nil
  | pretty n =>
    have hspaces : ∀ k, Blank (encode (List.replicate k ' ')) := by
      intro k
      induction k with
      | zero => exact Blank.nil
      | succ k ih => exact Blank.cons rfl ih
    exact Blank.cons rfl (hspaces (2 * n))

/-! ## Readers and texts -/

/-- The reader gives the value of the text and leaves what follows it. -/
def Reads {α : Type} (r : Reader α) (t : List Char) (x : α) : Prop :=
  ∀ w rest, Blank w → r (w ++ (encode t ++ rest)) = .ok (x, rest)

/-- The reader refuses the text, whatever follows it. -/
def Refuses {α : Type} (r : Reader α) (t : List Char) : Prop :=
  ∀ w rest, Blank w → ∃ f, r (w ++ (encode t ++ rest)) = .error f

/-- A text that begins like a string, a list or an object. -/
def Opens (t : List Char) : Prop :=
  ∃ c u, t = c :: u ∧ (c = '"' ∨ c = '[' ∨ c = '{')

/-- The first byte of a text that opens: no blank, no closing bracket and no letter. -/
theorem Opens.encode_eq {t : List Char} (h : Opens t) :
    ∃ b s, encode t = b :: s ∧ isSpace b = false ∧ b ≠ closeBracket ∧ b ≠ 0x6e := by
  rcases h with ⟨c, u, rfl, hc⟩
  rcases hc with rfl | rfl | rfl
  · exact ⟨quote, encode u, rfl, rfl, by decide, by decide⟩
  · exact ⟨openBracket, encode u, rfl, rfl, by decide, by decide⟩
  · exact ⟨openBrace, encode u, rfl, rfl, by decide, by decide⟩

/-- A written string begins like a value. -/
theorem opens_writeString (x : String) : Opens (writeString x) :=
  ⟨'"', _, rfl, .inl rfl⟩

theorem opens_writeList (spacing : Spacing) (ts : List (List Char)) :
    Opens (writeList spacing ts) := by
  cases ts with
  | nil => exact ⟨'[', _, rfl, .inr (.inl rfl)⟩
  | cons t ts => exact ⟨'[', _, rfl, .inr (.inl rfl)⟩

theorem opens_writeObject (spacing : Spacing) (ms : List (String × List Char)) :
    Opens (writeObject spacing ms) := by
  cases ms with
  | nil => exact ⟨'{', _, rfl, .inr (.inr rfl)⟩
  | cons m ms => exact ⟨'{', _, rfl, .inr (.inr rfl)⟩

/-- A string in quotes, with what follows it. -/
theorem encode_writeString (x : String) (rest : List UInt8) :
    encode (writeString x) ++ rest =
      quote :: (encode (x.toList.flatMap escapeChar) ++ quote :: rest) := by
  have hquote : String.utf8EncodeChar '"' = [quote] := rfl
  simp only [writeString, encode_append, encode_cons, encode_nil, hquote, List.append_assoc,
    List.cons_append, List.nil_append]

/-- A value that may be null is something else if it begins with a quote or a bracket. -/
theorem orDefault_of_opens {α : Type} (default : α) (r : Reader α) {t : List Char} (ht : Opens t)
    {w : List UInt8} (hw : Blank w) (rest : List UInt8) :
    orDefault default r (w ++ (encode t ++ rest)) = r (encode t ++ rest) := by
  rcases ht.encode_eq with ⟨b, s, hb, hspace, -, hletter⟩
  rw [orDefault, skipSpace_append hw, hb, List.cons_append, skipSpace_cons hspace]
  simp only [if_neg hletter]

/-- What a reader reads is read with a default as well. -/
theorem Reads.orDefault {α : Type} {r : Reader α} {t : List Char} {x : α} (default : α)
    (ht : Opens t) (h : Reads r t x) : Reads (orDefault default r) t x := by
  intro w rest hw
  rw [orDefault_of_opens default r ht hw]
  exact h [] rest Blank.nil

/-- What a reader refuses is refused with a default as well. -/
theorem Refuses.orDefault {α : Type} {r : Reader α} {t : List Char} (default : α)
    (ht : Opens t) (h : Refuses r t) : Refuses (orDefault default r) t := by
  intro w rest hw
  rw [orDefault_of_opens default r ht hw]
  exact h [] rest Blank.nil

/-- The colon after a key, perhaps a blank, and what follows. -/
theorem skipSpace_colon (spacing : Spacing) (t : List Char) (rest : List UInt8) :
    ∃ w, Blank w ∧
      skipSpace (encode (spacing.colon ++ t) ++ rest) = colon :: (w ++ (encode t ++ rest)) := by
  cases spacing with
  | compact => exact ⟨[], Blank.nil, rfl⟩
  | pretty n => exact ⟨[0x20], Blank.cons rfl Blank.nil, rfl⟩

/-- The value of a member stands after its colon. -/
theorem memberValue_colon {α : Type} (r : Reader α) (spacing : Spacing) (t : List Char)
    (rest : List UInt8) :
    ∃ w, Blank w ∧
      memberValue r (encode (spacing.colon ++ t) ++ rest) = r (w ++ (encode t ++ rest)) := by
  rcases skipSpace_colon spacing t rest with ⟨w, hw, hcolon⟩
  refine ⟨w, hw, ?_⟩
  rw [memberValue, afterColon, hcolon]
  simp only [if_true]

/-- A value is read after its colon. -/
theorem Reads.memberValue {α : Type} {r : Reader α} {t : List Char} {x : α} (spacing : Spacing)
    (h : Reads r t x) (rest : List UInt8) :
    memberValue r (encode (spacing.colon ++ t) ++ rest) = .ok (x, rest) := by
  rcases memberValue_colon r spacing t rest with ⟨w, hw, heq⟩
  rw [heq]
  exact h w rest hw

/-- A value that is refused is refused after its colon. -/
theorem Refuses.memberValue {α : Type} {r : Reader α} {t : List Char} (spacing : Spacing)
    (h : Refuses r t) (rest : List UInt8) :
    ∃ f, memberValue r (encode (spacing.colon ++ t) ++ rest) = .error f := by
  rcases memberValue_colon r spacing t rest with ⟨w, hw, heq⟩
  rw [heq]
  exact h w rest hw

/-! ## What stands between brackets -/

/-- What stands in front of a member: a comma unless it is the first one, and a line break. -/
def separator (spacing : Spacing) (first : Bool) : List Char :=
  if first then spacing.lineBreak else ',' :: spacing.lineBreak

/-- Members with what stands in front of each. -/
def joined (spacing : Spacing) : Bool → List (List Char) → List Char
  | _, [] => []
  | first, t :: ts => separator spacing first ++ t ++ joined spacing false ts

/-- Further texts are joined behind a separator each. -/
theorem writeMore_eq_joined (spacing : Spacing) (ts : List (List Char)) :
    writeMore spacing ts = joined spacing false ts := by
  induction ts with
  | nil => rfl
  | cons t ts ih =>
    rw [joined, ← ih]
    simp [writeMore, separator]

/-- What stands between brackets is members with a blank after them. -/
theorem writeBracketed_eq_joined (spacing : Spacing) (opening closing : Char)
    (ts : List (List Char)) :
    ∃ w, Blank (encode w) ∧ writeBracketed spacing opening closing ts =
      opening :: (joined spacing.inner true ts ++ (w ++ [closing])) := by
  cases ts with
  | nil => exact ⟨[], Blank.nil, rfl⟩
  | cons t ts =>
    refine ⟨spacing.lineBreak, blank_lineBreak spacing, ?_⟩
    simp [writeBracketed, joined, separator, writeMore_eq_joined]

/-! ## Lists -/

/-- After a separator there is a further element. -/
theorem nextElement_separator (spacing : Spacing) (first : Bool) {t : List Char} (ht : Opens t)
    (rest : List UInt8) :
    nextElement first (encode (separator spacing first) ++ (encode t ++ rest)) =
      .ok (true, encode t ++ rest) := by
  rcases ht.encode_eq with ⟨b, s, hb, hspace, hclose, -⟩
  have hbreak := blank_lineBreak spacing
  cases first with
  | true =>
    simp only [separator, if_true]
    rw [nextElement, skipSpace_append hbreak, hb, List.cons_append, skipSpace_cons hspace]
    simp only [if_neg hclose, if_true]
  | false =>
    have hcomma : encode (separator spacing false) ++ (encode t ++ rest) =
        comma :: (encode spacing.lineBreak ++ (encode t ++ rest)) := rfl
    rw [hcomma, nextElement, skipSpace_cons rfl]
    simp only [Bool.false_eq_true, if_false, if_true]
    rw [skipSpace_append hbreak, hb, List.cons_append, skipSpace_cons hspace]
    simp only [if_neg hclose]
    rfl

section Lists

variable {α : Type} {element : Reader α} {text : α → List Char} {spacing : Spacing}

/-- The elements of a list are read one after the other. -/
theorem elements_cons {t : List Char} (ht : Opens t) (ts : List (List Char)) (rest : List UInt8)
    (fuel : Nat) (first : Bool) :
    elements element (fuel + 1) first (encode (joined spacing first (t :: ts)) ++ rest) =
      match element (encode t ++ (encode (joined spacing false ts) ++ rest)) with
      | .error f => .error f
      | .ok (x, s) =>
        match elements element fuel false s with
        | .error f => .error f
        | .ok (xs, s) => .ok (x :: xs, s) := by
  rewrite [joined, encode_append, encode_append, List.append_assoc, List.append_assoc, elements,
    nextElement_separator spacing first ht]
  rfl

/-- A list is refused when one of its elements is and each of the others is read or refused. -/
theorem elements_joined_refuses {xs : List α}
    (h : ∀ x ∈ xs, Opens (text x) ∧ (Reads element (text x) x ∨ Refuses element (text x)))
    (hbad : ∃ x ∈ xs, Refuses element (text x)) (rest : List UInt8) (fuel : Nat) (first : Bool) :
    ∃ f, elements element fuel first (encode (joined spacing first (xs.map text)) ++ rest) =
      .error f := by
  induction xs generalizing fuel first with
  | nil =>
    rcases hbad with ⟨x, hx, -⟩
    cases hx
  | cons x xs ih =>
    cases fuel with
    | zero => exact ⟨_, rfl⟩
    | succ k =>
      rcases h x (List.mem_cons_self ..) with ⟨hopens, hx⟩
      rw [List.map_cons, elements_cons hopens]
      by_cases hfirst : Refuses element (text x)
      · obtain ⟨f, hf⟩ := hfirst [] (encode (joined spacing false (xs.map text)) ++ rest) Blank.nil
        rw [List.nil_append] at hf
        exact ⟨f, by rw [hf]⟩
      · -- The first element is read, so the refused one is among the others.
        have hlater : ∃ x' ∈ xs, Refuses element (text x') := by
          rcases hbad with ⟨x', hx', hrefuses⟩
          rcases List.mem_cons.1 hx' with rfl | hx'
          · exact absurd hrefuses hfirst
          · exact ⟨x', hx', hrefuses⟩
        have hone := hx.resolve_right hfirst []
          (encode (joined spacing false (xs.map text)) ++ rest) Blank.nil
        rw [List.nil_append] at hone
        rcases ih (fun x' hx' => h x' (List.mem_cons_of_mem _ hx')) hlater k false with ⟨f, hf⟩
        exact ⟨f, by rw [hone]; simp only [hf]⟩

/-- The bytes of a list. -/
theorem encode_writeList (spacing : Spacing) (ts : List (List Char)) :
    ∃ w, Blank w ∧ ∀ rest, encode (writeList spacing ts) ++ rest =
      openBracket :: (encode (joined spacing.inner true ts) ++ (w ++ closeBracket :: rest)) := by
  rcases writeBracketed_eq_joined spacing '[' ']' ts with ⟨v, hv, htext⟩
  have hopen : String.utf8EncodeChar '[' = [openBracket] := rfl
  have hclose : String.utf8EncodeChar ']' = [closeBracket] := rfl
  refine ⟨encode v, hv, ?_⟩
  intro rest
  simp only [writeList, htext, encode_cons, encode_append, encode_nil, hopen, hclose,
    List.append_assoc, List.cons_append, List.nil_append]

/-- A list of texts of which one is refused is refused. -/
theorem refuses_list {xs : List α}
    (h : ∀ x ∈ xs, Opens (text x) ∧ (Reads element (text x) x ∨ Refuses element (text x)))
    (hbad : ∃ x ∈ xs, Refuses element (text x)) :
    Refuses (list element) (writeList spacing (xs.map text)) := by
  intro w rest hw
  rcases encode_writeList spacing (xs.map text) with ⟨v, -, hbytes⟩
  rw [list, skipSpace_append hw, hbytes, skipSpace_cons rfl]
  simp only [if_true, bracketed]
  have hrefused : ∀ fuel, ∃ f, elements element fuel true
      (encode (joined spacing.inner true (xs.map text)) ++ (v ++ closeBracket :: rest)) =
        .error f :=
    fun fuel => elements_joined_refuses h hbad (v ++ closeBracket :: rest) fuel true
  obtain ⟨f, hf⟩ := hrefused ((encode (joined spacing.inner true (xs.map text)) ++
    (v ++ closeBracket :: rest)).length + 1)
  exact ⟨f, by rw [hf]⟩

end Lists

/-! ## Objects -/

/-- The members of an object, as texts, with what stands in front of each. -/
def joinedMembers (spacing : Spacing) (first : Bool) (ms : List (String × List Char)) :
    List Char :=
  joined spacing.inner first (ms.map fun m => writeMember spacing m.1 m.2)

/-- After a separator there is a further member. -/
theorem nextMember_separator (spacing : Spacing) (first : Bool) (key : String)
    (rest : List UInt8) :
    nextMember first (encode (separator spacing first) ++ (encode (writeString key) ++ rest)) =
      .ok (true, encode (key.toList.flatMap escapeChar) ++ quote :: rest) := by
  have hbreak := blank_lineBreak spacing
  rw [encode_writeString]
  cases first with
  | true =>
    simp only [separator, if_true]
    rw [nextMember, skipSpace_append hbreak, skipSpace_cons rfl]
    rfl
  | false =>
    have hcomma : encode (separator spacing false) ++
          (quote :: (encode (key.toList.flatMap escapeChar) ++ quote :: rest)) =
        comma :: (encode spacing.lineBreak ++
          (quote :: (encode (key.toList.flatMap escapeChar) ++ quote :: rest))) := rfl
    rw [hcomma, nextMember, skipSpace_cons rfl]
    simp only [Bool.false_eq_true, if_false, if_true]
    rw [skipSpace_append hbreak, skipSpace_cons rfl]
    rfl

section Objects

variable {σ : Type} {member : σ → String → Reader σ} {spacing : Spacing}

/-- One of the members is refused, after those in front of it were read. -/
def RefusesMembers (member : σ → String → Reader σ) (spacing : Spacing) :
    σ → List (String × List Char) → Prop
  | _, [] => False
  | st, m :: ms =>
    (∀ rest, ∃ f, member st m.1 (encode (spacing.colon ++ m.2) ++ rest) = .error f) ∨
      ∃ mid, (∀ rest, member st m.1 (encode (spacing.colon ++ m.2) ++ rest) = .ok (mid, rest)) ∧
        RefusesMembers member spacing mid ms

/-- The members of an object are read one after the other. -/
theorem members_cons (m : String × List Char) (ms : List (String × List Char))
    (rest : List UInt8) (fuel : Nat) (first : Bool) (st : σ) :
    members member (fuel + 1) first st (encode (joinedMembers spacing first (m :: ms)) ++ rest) =
      match member st m.1
          (encode (spacing.colon ++ m.2) ++ (encode (joinedMembers spacing false ms) ++ rest)) with
      | .error f => .error f
      | .ok (st, s) => members member fuel false st s := by
  have htext : encode (joinedMembers spacing first (m :: ms)) ++ rest =
      encode (separator spacing.inner first) ++ (encode (writeString m.1) ++
        (encode (spacing.colon ++ m.2) ++ (encode (joinedMembers spacing false ms) ++ rest))) := by
    simp only [joinedMembers, List.map_cons, joined, writeMember, encode_append, List.append_assoc]
  rewrite [htext, members, nextMember_separator]
  dsimp only
  rewrite [string_flatMap_escapeChar]
  rfl

/-- An object is refused when one of its members is, after those in front of it were read. -/
theorem members_joined_refuses {ms : List (String × List Char)} {st : σ}
    (h : RefusesMembers member spacing st ms) (rest : List UInt8) (fuel : Nat) (first : Bool) :
    ∃ f, members member fuel first st (encode (joinedMembers spacing first ms) ++ rest) =
      .error f := by
  induction ms generalizing st fuel first with
  | nil => exact absurd h id
  | cons m ms ih =>
    cases fuel with
    | zero => exact ⟨_, rfl⟩
    | succ k =>
      rw [members_cons]
      rcases h with hm | ⟨mid, hm, hms⟩
      · rcases hm (encode (joinedMembers spacing false ms) ++ rest) with ⟨f, hf⟩
        exact ⟨f, by rw [hf]⟩
      · rw [hm]
        exact ih hms k false

/-- The bytes of an object. -/
theorem encode_writeObject (spacing : Spacing) (ms : List (String × List Char)) :
    ∃ w, Blank w ∧ ∀ rest, encode (writeObject spacing ms) ++ rest =
      openBrace :: (encode (joinedMembers spacing true ms) ++ (w ++ closeBrace :: rest)) := by
  obtain ⟨v, hv, htext⟩ := writeBracketed_eq_joined spacing '{' '}'
    (ms.map fun m => writeMember spacing m.1 m.2)
  have hopen : String.utf8EncodeChar '{' = [openBrace] := rfl
  have hclose : String.utf8EncodeChar '}' = [closeBrace] := rfl
  refine ⟨encode v, hv, ?_⟩
  intro rest
  simp only [writeObject, joinedMembers, htext, encode_cons, encode_append, encode_nil, hopen,
    hclose, List.append_assoc, List.cons_append, List.nil_append]

variable {α : Type} {expected : String} {fields : Reader α} {build : σ → α}

/-- An object of which a member is refused is refused as a record. -/
theorem refuses_record {ms : List (String × List Char)} {st : σ}
    (h : RefusesMembers member spacing st ms) :
    Refuses (record expected fields member st build) (writeObject spacing ms) := by
  intro w rest hw
  rcases encode_writeObject spacing ms with ⟨v, -, hbytes⟩
  have hbracket : ¬openBrace = openBracket := by decide
  obtain ⟨f, hf⟩ := members_joined_refuses h (v ++ closeBrace :: rest)
    ((encode (joinedMembers spacing true ms) ++ (v ++ closeBrace :: rest)).length + 1) true
  rw [record, skipSpace_append hw, hbytes, skipSpace_cons rfl]
  exact ⟨f, by simp only [if_neg hbracket, if_true, bracketed, hf]⟩

end Objects

end HclQuery.Json
