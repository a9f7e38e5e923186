import HclQuery.Proofs.Json.Decoding

/-!
# JSON: what the decoder gives

What a reader gives for a value, wherever the text of the value stands and however it is spaced.  A
list gives what its elements give.  For an object an invariant is carried from member to member: it
relates what was collected to the members that are left.

Main definitions:

- {lit}`Gives`: what a reader gives for the texts of a value.
- {lit}`GivesMember`: what a member does to what was collected before it.
- {lit}`Carries`: an invariant of what is collected and the members that are left.
- {lit}`valuesOf`: the values that an object gives under a name.
- {lit}`Awaits`: what a field was given before and is given by the members that are left.

Main results:

- Theorem {lit}`string_of_keyName?`: a string is read as its name.
- Theorems {lit}`gives_list`, {lit}`gives_map` and {lit}`gives_record`: what lists and objects give.
- Theorem {lit}`Gives.whole?`: a text that is a value gives what the value gives.
-/

namespace HclQuery.Json

open Byte

/-! ## Strings -/

/-- A string is its body, a quote, and what follows it. -/
theorem StringBody.eq_append {body s r : List UInt8} (h : StringBody body s r) :
    s = body ++ quote :: r := by
  induction h with
  | close => rfl
  | plain _ _ _ _ ih | letter _ _ ih | code _ _ _ _ _ ih => simp [ih]

/-- What follows a string may be replaced. -/
theorem StringBody.append {body s r : List UInt8} (h : StringBody body s r) (r' : List UInt8) :
    StringBody body (body ++ quote :: r') r' := by
  induction h with
  | close => exact .close
  | plain hquote hslash hcontrol _ ih => exact .plain hquote hslash hcontrol ih
  | letter hb _ ih => exact .letter hb ih
  | code ha hb hc hd _ ih => exact .code ha hb hc hd ih

/-- What follows a string does not change how it is read. -/
theorem content_append {s bytes r : List UInt8} (h : content s = .ok (bytes, r))
    (t : List UInt8) : content (s ++ t) = .ok (bytes, r ++ t) := by
  fun_induction content s generalizing bytes r with
  | case1 => cases h
  | case2 s =>
    cases h
    rw [List.cons_append, content, if_pos rfl]
  | case3 => cases h
  | case4 => cases h
  | case5 s e u hesc bytes v hbytes _ ih =>
    cases h
    rcases escape_eq_ok hesc with ⟨p, rfl, hescape, -⟩
    rw [List.cons_append, List.append_assoc]
    exact content_backslash (hescape _) (ih hbytes)
  | case6 => cases h
  | case7 => cases h
  | case8 b s hquote hslash hcontrol bytes u hbytes ih =>
    cases h
    rw [List.cons_append]
    exact content_cons_of_plain ⟨hquote, hslash, hcontrol⟩ (ih hbytes)

/-- A string is read as its name. -/
theorem string_of_keyName? {body s r : List UInt8} {x : String} (h : StringBody body s r)
    (hname : keyName? body = some x) : string s = .ok (x, r) := by
  have hs : s = (body ++ [quote]) ++ r := by rw [h.eq_append]; simp
  rcases hread : string (body ++ [quote]) with f | ⟨y, t⟩
  · rw [keyName?, hread] at hname
    cases hname
  · rw [keyName?, hread] at hname
    cases hname
    -- The closing quote is the end of what is read.
    obtain rfl : t = [] := by
      rcases string_eq_ok hread with ⟨body', hbody', -⟩
      exact (hbody'.unique (h.append [])).2
    unfold string at hread
    split at hread
    · cases hread
    next bytes u hbytes =>
    split at hread
    · next cs hcs =>
      cases hread
      rw [hs, string, content_append hbytes]
      simp only [hcs, List.nil_append]
    · split at hread
      · cases hread
      · cases hread

/-! ## The texts of a value -/

/-- A value is read after blanks as it is in front of them. -/
theorem Spells.skipSpace {v : Value} {s r : List UInt8} (h : Spells v s r) :
    Spells v (skipSpace s) r := by
  cases h with
  | scalar h => exact .scalar ((skipSpace_skipSpace s).symm ▸ h)
  | list ht h => exact .list ((skipSpace_skipSpace s).trans ht) h
  | object ht h => exact .object ((skipSpace_skipSpace s).trans ht) h

/-- The text of a string begins with a quote and its body. -/
theorem Spells.string_front {body s r : List UInt8} (h : Spells (.string body) s r) :
    ∃ t, Json.skipSpace s = quote :: t ∧ StringBody body t r := by
  generalize hv : Value.string body = v at h
  cases h with
  | scalar h =>
    generalize Json.skipSpace s = u at h
    cases h with
    | string h =>
      cases hv
      exact ⟨_, rfl, h⟩
    | null | true_ | false_ | negative | number => cases hv
  | list | object => cases hv

/-- The text of null is its letters. -/
theorem Spells.null_front {s r : List UInt8} (h : Spells .null s r) :
    Json.skipSpace s = 0x6e :: (nullRest ++ r) := by
  generalize hv : Value.null = v at h
  cases h with
  | scalar h =>
    generalize Json.skipSpace s = u at h
    cases h with
    | null => rfl
    | string | true_ | false_ | negative | number => cases hv
  | list | object => cases hv

/-- The letter of null begins no other value. -/
theorem Spells.front_of_ne_null {v : Value} {s r : List UInt8} (h : Spells v s r)
    (hv : v ≠ .null) : ∃ b t, Json.skipSpace s = b :: t ∧ b ≠ 0x6e := by
  cases h with
  | scalar h =>
    generalize Json.skipSpace s = u at h
    cases h with
    | null => exact absurd rfl hv
    | number h =>
      cases u with
      | nil =>
        rcases h with ⟨hwhole, -, -⟩
        cases hwhole
      | cons b t =>
        refine ⟨b, t, rfl, ?_⟩
        rintro rfl
        cases isDigit_of_unsigned h
    | true_ | false_ | negative | string => exact ⟨_, _, rfl, by decide⟩
  | list ht => exact ⟨_, _, ht, by decide⟩
  | object ht => exact ⟨_, _, ht, by decide⟩

/-- What separates values takes nothing back. -/
theorem Separated.length_le {first : Bool} {s t : List UInt8} (h : Separated first s t) :
    t.length ≤ s.length := by
  have hle := skipSpace_length_le s
  cases first with
  | true =>
    obtain rfl : t = Json.skipSpace s := h
    exact hle
  | false =>
    have hfront : Json.skipSpace s = comma :: t := h
    rw [hfront, List.length_cons] at hle
    omega

mutual

/-- The text of a value takes at least one byte. -/
theorem Spells.length_lt {v : Value} {s r : List UInt8} (h : Spells v s r) :
    r.length < s.length := by
  have hle := skipSpace_length_le s
  cases h with
  | scalar h => exact Nat.lt_of_lt_of_le h.length_lt hle
  | list ht h | object ht h =>
    have hlt := h.length_lt
    rw [ht, List.length_cons] at hle
    omega

/-- The items of a list take at least one byte each, and so does the closing bracket. -/
theorem Items.length_lt {first : Bool} {vs : List Value} {s r : List UInt8}
    (h : Items first vs s r) : r.length + vs.length < s.length := by
  cases h with
  | close hs =>
    have hle := skipSpace_length_le s
    rw [hs, List.length_cons] at hle
    exact hle
  | item hs hv h =>
    have hle := hs.length_le
    have hvlt := hv.length_lt
    have hlt := h.length_lt
    rw [List.length_cons]
    omega

/-- Each member of an object takes at least one byte. -/
theorem Members.length_lt {first : Bool} {ms : List (List UInt8 × Value)} {s r : List UInt8}
    (h : Members first ms s r) : r.length + ms.length < s.length := by
  cases h with
  | close hs =>
    have hle := skipSpace_length_le s
    rw [hs, List.length_cons] at hle
    exact hle
  | member hs hkey hv h =>
    have hle := hs.length_le
    have hkeyle := hkey.length_le
    have hvlt := hv.length_lt
    have hlt := h.length_lt
    rw [List.length_cons]
    omega

end

/-! ## Readers -/

/-- The reader gives the result for any text of the value. -/
def Gives {α : Type} (read : Reader α) (v : Value) (x : α) : Prop :=
  ∀ ⦃s r⦄, Spells v s r → read s = .ok (x, r)

/-- A string gives its name. -/
theorem gives_stringValue {body : List UInt8} {x : String} (h : keyName? body = some x) :
    Gives stringValue (.string body) x := by
  intro s r hs
  rcases hs.string_front with ⟨t, ht, hbody⟩
  rw [stringValue, ht]
  simp only [if_true]
  exact string_of_keyName? hbody h

/-- Null gives the default. -/
theorem gives_orDefault_null {α : Type} (default : α) (read : Reader α) :
    Gives (orDefault default read) .null default := by
  intro s r hs
  have hword : word nullRest (nullRest ++ r) = .ok r := word_eq_ok_iff.2 rfl
  rw [orDefault, hs.null_front]
  simp only [if_true, hword]

/-- A value that is not null gives what it gives without the default. -/
theorem Gives.orDefault {α : Type} {read : Reader α} {v : Value} {x : α} (h : Gives read v x)
    (default : α) (hv : v ≠ .null) : Gives (orDefault default read) v x := by
  intro s r hs
  rcases hs.front_of_ne_null hv with ⟨b, t, ht, hb⟩
  have hread := h hs.skipSpace
  rw [Json.orDefault, ht]
  rw [ht] at hread
  simp only [if_neg hb, hread]

/-- A text that is a value gives what the value gives. -/
theorem Gives.whole? {α : Type} {read : Reader α} {v : Value} {x : α} (h : Gives read v x)
    {s : List UInt8} (hs : IsText v s) : whole? read s = .ok x := by
  rcases hs with ⟨r, hspells, hr⟩
  simp only [Json.whole?, h hspells, hr]

/-! ## Lists -/

/-- After what separates it from the last one, there is a further element. -/
theorem nextElement_of_separated {first : Bool} {v : Value} {s t r : List UInt8}
    (hs : Separated first s t) (hv : Spells v t r) :
    nextElement first s = .ok (true, skipSpace t) := by
  rcases hv.front with ⟨b, u, hb, hclose⟩
  cases first with
  | true =>
    obtain rfl : t = skipSpace s := hs
    rw [skipSpace_skipSpace] at hb ⊢
    rw [nextElement, hb]
    simp only [if_neg hclose, if_true]
  | false =>
    have hfront : skipSpace s = comma :: t := hs
    have hcomma : comma ≠ closeBracket := by decide
    rw [nextElement, hfront]
    simp only [if_neg hcomma, Bool.false_eq_true, if_false, if_true, hb, if_neg hclose]

/-- In front of a closing bracket, there is no further element. -/
theorem nextElement_of_close {s r : List UInt8} (first : Bool)
    (hs : skipSpace s = closeBracket :: r) :
    nextElement first s = .ok (false, closeBracket :: r) := by
  rw [nextElement, hs]
  simp only [if_true]

/-- The elements of a list are given one after the other. -/
theorem elements_of_items {α : Type} {element : Reader α} {first : Bool} {vs : List Value}
    {s r : List UInt8} (h : Items first vs s r) {xs : List α} (hlength : vs.length = xs.length)
    (hgives : ∀ p ∈ vs.zip xs, Gives element p.1 p.2) {fuel : Nat} (hfuel : vs.length < fuel) :
    elements element fuel first s = .ok (xs, closeBracket :: r) := by
  induction vs generalizing first s xs fuel with
  | nil =>
    obtain ⟨k, rfl⟩ : ∃ k, fuel = k + 1 := ⟨fuel - 1, by omega⟩
    obtain rfl : xs = [] := List.length_eq_zero_iff.1 hlength.symm
    cases h with
    | close hs => rw [elements, nextElement_of_close first hs]
  | cons v vs ih =>
    obtain ⟨k, rfl⟩ : ∃ k, fuel = k + 1 := ⟨fuel - 1, by omega⟩
    cases xs with
    | nil => cases hlength
    | cons x xs =>
      rw [List.zip_cons_cons] at hgives
      cases h with
      | item hs hv h =>
        have hx := hgives (v, x) (List.mem_cons_self ..) hv.skipSpace
        have htail := ih h (Nat.succ.inj hlength)
          (fun p hp => hgives p (List.mem_cons_of_mem _ hp)) (Nat.lt_of_succ_lt_succ hfuel)
        rw [elements, nextElement_of_separated hs hv]
        simp only [hx, htail]

/-- A list gives what its elements give. -/
theorem gives_list {α : Type} {element : Reader α} {vs : List Value} {xs : List α}
    (hlength : vs.length = xs.length) (h : ∀ p ∈ vs.zip xs, Gives element p.1 p.2) :
    Gives (list element) (.list vs) xs := by
  intro s r hs
  cases hs with
  | scalar hs => cases hs
  | list ht hitems =>
    next t =>
    have hlt := hitems.length_lt
    have helements : elements element (t.length + 1) true t = .ok (xs, closeBracket :: r) :=
      elements_of_items hitems hlength h (by omega)
    rw [list, ht]
    simp only [if_true, bracketed, helements, endList,
      skipSpace_cons (show isSpace closeBracket = false from rfl)]

/-! ## Objects -/

/-- After what separates it from the last one, there is a further member. -/
theorem nextMember_of_key {first : Bool} {s t u : List UInt8} (hs : Separated first s t)
    (ht : skipSpace t = quote :: u) : nextMember first s = .ok (true, u) := by
  cases first with
  | true =>
    have hquote : quote ≠ closeBrace := by decide
    obtain rfl : t = skipSpace s := hs
    rw [skipSpace_skipSpace] at ht
    rw [nextMember, ht]
    simp only [if_neg hquote, if_true]
  | false =>
    have hfront : skipSpace s = comma :: t := hs
    have hcomma : comma ≠ closeBrace := by decide
    rw [nextMember, hfront]
    simp only [if_neg hcomma, Bool.false_eq_true, if_false, if_true, ht]

/-- In front of a closing brace, there is no further member. -/
theorem nextMember_of_close {s r : List UInt8} (first : Bool)
    (hs : skipSpace s = closeBrace :: r) :
    nextMember first s = .ok (false, closeBrace :: r) := by
  rw [nextMember, hs]
  simp only [if_true]

/-- A colon after blanks is read. -/
theorem afterColon_of_front {s r : List UInt8} (h : skipSpace s = colon :: r) :
    afterColon s = .ok r := by
  rw [afterColon, h]
  simp only [if_true]

/-- After the key of the member, its value leads from what was collected before to what is collected
with it. -/
def GivesMember {σ : Type} (member : σ → String → Reader σ) (st : σ) (m : List UInt8 × Value)
    (st' : σ) : Prop :=
  ∃ name, keyName? m.1 = some name ∧
    ∀ ⦃s t r⦄, skipSpace s = colon :: t → Spells m.2 t r → member st name s = .ok (st', r)

/-- The invariant of what is collected and the members that are left carries over each member. -/
def Carries {σ : Type} (member : σ → String → Reader σ)
    (inv : σ → List (List UInt8 × Value) → Prop) : Prop :=
  ∀ ⦃st m ms⦄, inv st (m :: ms) → ∃ st', GivesMember member st m st' ∧ inv st' ms

section

variable {σ : Type} {member : σ → String → Reader σ} {inv : σ → List (List UInt8 × Value) → Prop}

/-- The members of an object are collected one after the other. -/
theorem members_of_carries (hinv : Carries member inv) {first : Bool}
    {ms : List (List UInt8 × Value)} {s r : List UInt8} (h : Members first ms s r) {st : σ}
    (hst : inv st ms) {fuel : Nat} (hfuel : ms.length < fuel) :
    ∃ st', members member fuel first st s = .ok (st', closeBrace :: r) ∧ inv st' [] := by
  induction ms generalizing first s st fuel with
  | nil =>
    obtain ⟨k, rfl⟩ : ∃ k, fuel = k + 1 := ⟨fuel - 1, by omega⟩
    cases h with
    | close hs => exact ⟨st, by rw [members, nextMember_of_close first hs], hst⟩
  | cons m ms ih =>
    obtain ⟨k, rfl⟩ : ∃ k, fuel = k + 1 := ⟨fuel - 1, by omega⟩
    rcases hinv hst with ⟨mid, ⟨name, hname, hmember⟩, hmid⟩
    cases h with
    | member hs hkey hv h =>
      rcases hkey with ⟨t, u, ht, hbody, hcolon⟩
      have hone := hmember hcolon hv
      rcases ih h hmid (Nat.lt_of_succ_lt_succ hfuel) with ⟨st', hms, hst'⟩
      refine ⟨st', ?_, hst'⟩
      rw [members, nextMember_of_key hs ht]
      simp only [string_of_keyName? hbody hname, hone, hms]

/-- The members between two braces are read, with what the invariant says at their end. -/
theorem bracketed_members_of_carries (hinv : Carries member inv)
    {ms : List (List UInt8 × Value)} {s r : List UInt8} (h : Members true ms s r) {st : σ}
    (hst : inv st ms) :
    ∃ st', bracketed (members member (s.length + 1) true st) endObject s = .ok (st', r) ∧
      inv st' [] := by
  have hlt := h.length_lt
  have hfuel : ms.length < s.length + 1 := by omega
  rcases members_of_carries hinv h hst hfuel with ⟨st', hms, hst'⟩
  refine ⟨st', ?_, hst'⟩
  simp only [bracketed, hms, endObject, if_true,
    skipSpace_cons (show isSpace closeBrace = false from rfl)]

/-- An object gives what is collected from its members. -/
theorem gives_map (hinv : Carries member inv) {ms : List (List UInt8 × Value)} {start x : σ}
    (hstart : inv start ms) (hend : ∀ st, inv st [] → st = x) :
    Gives (map member start) (.object ms) x := by
  intro s r hs
  cases hs with
  | scalar hs => cases hs
  | object ht hmembers =>
    rcases bracketed_members_of_carries hinv hmembers hstart with ⟨st, hread, hst⟩
    rw [map, ht]
    simp only [if_true, hread, hend st hst]

/-- An object gives as a record what is built from its members. -/
theorem gives_record {α : Type} {build : σ → α} (hinv : Carries member inv)
    {ms : List (List UInt8 × Value)} {start : σ} {x : α} (hstart : inv start ms)
    (hend : ∀ st, inv st [] → build st = x) (expected : String) (fields : Reader α) :
    Gives (record expected fields member start build) (.object ms) x := by
  intro s r hs
  cases hs with
  | scalar hs => cases hs
  | object ht hmembers =>
    have hbrace : openBrace ≠ openBracket := by decide
    rcases bracketed_members_of_carries hinv hmembers hstart with ⟨st, hread, hst⟩
    rw [record, ht]
    simp only [if_neg hbrace, if_true, hread, hend st hst]

end

/-! ## Members -/

/-- A value is read after its colon. -/
theorem Gives.memberValue {α : Type} {read : Reader α} {v : Value} {x : α} (h : Gives read v x)
    {s t r : List UInt8} (hs : skipSpace s = colon :: t) (hv : Spells v t r) :
    memberValue read s = .ok (x, r) := by
  simp only [Json.memberValue, afterColon_of_front hs, h hv]

/-- A field that was not given before is stored. -/
theorem Gives.field {α σ : Type} {read : Reader α} {v : Value} {x : α} (h : Gives read v x)
    (name : String) (store : α → σ) {s t r : List UInt8} (hs : skipSpace s = colon :: t)
    (hv : Spells v t r) : field name none read store s = .ok (store x, r) := by
  simp only [Json.field, h.memberValue hs hv]

/-- A member that is not asked for is passed over, whatever its value is. -/
theorem ignored_of_spells {σ : Type} (st : σ) {v : Value} {s t r : List UInt8}
    (hs : skipSpace s = colon :: t) (hv : Spells v t r) : ignored st s = .ok (st, r) := by
  simp only [ignored, afterColon_of_front hs, skip_eq_ok_iff.2 ⟨v, hv⟩]

/-! ## Fields -/

/-- The values that an object gives under a name. -/
def valuesOf (name : String) (ms : List (List UInt8 × Value)) : List Value :=
  (ms.filter fun m => keyName? m.1 == some name).map (·.2)

/-- A member of the name has its value among those of the name. -/
theorem valuesOf_cons_self {name : String} {m : List UInt8 × Value} (h : keyName? m.1 = some name)
    (ms : List (List UInt8 × Value)) : valuesOf name (m :: ms) = m.2 :: valuesOf name ms := by
  simp [valuesOf, h]

theorem valuesOf_cons_of_ne {name key : String} {m : List UInt8 × Value}
    (h : keyName? m.1 = some key) (hne : key ≠ name) (ms : List (List UInt8 × Value)) :
    valuesOf name (m :: ms) = valuesOf name ms := by
  simp [valuesOf, h, hne]

/-- Members in another order have the same values under a name, in that order. -/
theorem valuesOf_perm (name : String) {ms ms' : List (List UInt8 × Value)} (h : ms.Perm ms') :
    (valuesOf name ms).Perm (valuesOf name ms') :=
  (h.filter _).map _

/-- The field was stored before and is not given again; or it was not, and the members that are left
give its value, or do not name it and its value is the default one. -/
def Awaits {α : Type} (name : String) (default : α) (value : Reader α) (x : α)
    (before : Option α) (ms : List (List UInt8 × Value)) : Prop :=
  (before = some x ∧ valuesOf name ms = []) ∨
    before = none ∧ (valuesOf name ms = [] ∧ x = default ∨
      ∃ v, valuesOf name ms = [v] ∧ Gives (orDefault default value) v x)

namespace Awaits

variable {α : Type} {name : String} {default : α} {value : Reader α} {x : α} {before : Option α}
  {m : List UInt8 × Value} {ms : List (List UInt8 × Value)}

/-- A member of another name is not waited for. -/
theorem of_ne {key : String} (hkey : keyName? m.1 = some key) (hne : key ≠ name)
    (h : Awaits name default value x before (m :: ms)) :
    Awaits name default value x before ms := by
  rwa [Awaits, valuesOf_cons_of_ne hkey hne] at h

/-- A member of the name gives the value, and no other one does. -/
theorem take (hkey : keyName? m.1 = some name)
    (h : Awaits name default value x before (m :: ms)) :
    before = none ∧ Gives (orDefault default value) m.2 x ∧
      Awaits name default value x (some x) ms := by
  rw [Awaits, valuesOf_cons_self hkey] at h
  rcases h with ⟨-, hnil⟩ | ⟨hbefore, ⟨hnil, -⟩ | ⟨v, hv, hgives⟩⟩
  · cases hnil
  · cases hnil
  · rw [List.cons.injEq] at hv
    rcases hv with ⟨rfl, hrest⟩
    exact ⟨hbefore, hgives, .inl ⟨rfl, hrest⟩⟩

/-- When no members are left, the field is what was stored or the default. -/
theorem getD (h : Awaits name default value x before []) : before.getD default = x := by
  rcases h with ⟨rfl, -⟩ | ⟨rfl, ⟨-, rfl⟩ | ⟨v, hv, -⟩⟩
  · rfl
  · rfl
  · cases hv

/-- A field is given its value if it is named at most once and given the value where it is not
null, and if the value is the default one where it is. -/
theorem of_valuesOf (honce : (valuesOf name ms).length ≤ 1)
    (hempty : (∀ v ∈ valuesOf name ms, v = .null) → x = default)
    (hgives : ∀ v ∈ valuesOf name ms, v ≠ .null → Gives value v x) :
    Awaits name default value x none ms := by
  refine .inr ⟨rfl, ?_⟩
  match hvs : valuesOf name ms with
  | [] =>
    rw [hvs] at hempty
    exact .inl ⟨rfl, hempty nofun⟩
  | [v] =>
    rw [hvs] at hempty hgives
    refine .inr ⟨v, rfl, ?_⟩
    by_cases hv : v = .null
    · rw [hv, hempty (by simpa using hv)]
      exact gives_orDefault_null default value
    · exact (hgives v (List.mem_singleton.2 rfl) hv).orDefault default hv
  | v :: v' :: vs =>
    rw [hvs] at honce
    simp at honce

end Awaits

/-- Every key of the object has a name. -/
def AllNamed (ms : List (List UInt8 × Value)) : Prop :=
  ∀ m ∈ ms, (keyName? m.1).isSome = true

/-- The keys of members are names when each of them is one. -/
theorem AllNamed.cons_iff {m : List UInt8 × Value} {ms : List (List UInt8 × Value)} :
    AllNamed (m :: ms) ↔ (∃ name, keyName? m.1 = some name) ∧ AllNamed ms := by
  simp only [AllNamed, List.forall_mem_cons, Option.isSome_iff_exists]

end HclQuery.Json
