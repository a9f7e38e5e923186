import HclQuery.Proofs.Json.Skipping
import HclQuery.Proofs.Json.Values

/-!
# JSON: what the decoder takes

A reader that gives a result has read the text of a JSON value, of a shape that depends on the
reader.  Nothing is said about what the result is.

Main definitions:

- {lit}`keyName?`: the name of a key as it is written.
- {lit}`Takes`: a reader only takes texts of values of one shape.
- {lit}`Placed`: values stand in the places of a list of fields.

Main results:

- Theorems {lit}`takes_stringValue`, {lit}`takes_list` and {lit}`takes_map`: what is read as a
  string, as a list or as an object is one.
- Theorem {lit}`takes_record`: what is read as a record is an object, or a list of its fields.
-/

namespace HclQuery.Json

open Byte

/-! ## Strings -/

/-- The number of four digits does not depend on what follows them. -/
theorem HexDigits.hexEscape_append {p r : List UInt8} {n : Nat} (hp : HexDigits p)
    (h : Json.hexEscape (p ++ r) = .ok (n, r)) (r' : List UInt8) :
    Json.hexEscape (p ++ r') = .ok (n, r') := by
  rcases hp.hexEscape with ⟨m, hm⟩
  rw [hm, Except.ok.injEq, Prod.mk.injEq] at h
  rw [hm, h.1]

/-- A trailing surrogate is an escape of four digits, whatever follows it. -/
theorem trailingSurrogate_eq_ok {s r : List UInt8} {n : Nat}
    (h : trailingSurrogate s = .ok (n, r)) :
    ∃ p, HexDigits p ∧ s = backslash :: 0x75 :: (p ++ r) ∧
      ∀ r', trailingSurrogate (backslash :: 0x75 :: (p ++ r')) = .ok (n, r') := by
  unfold trailingSurrogate at h
  split at h
  · cases h
  split at h
  · cases h
  next b s hb =>
  split at h
  · cases h
  split at h
  · cases h
  next c s hc =>
  split at h
  · cases h
  next m t hm =>
  split at h
  · cases h
  next hrange =>
  cases h
  rcases hexEscape_eq_ok hm with ⟨p, hp, rfl⟩
  have hlocal := hp.hexEscape_append hm
  obtain rfl : b = backslash := by simpa using hb
  obtain rfl : c = 0x75 := by simpa using hc
  refine ⟨p, hp, rfl, fun r' => ?_⟩
  simp [trailingSurrogate, hlocal r', hrange]

/-- A code point is one escape or two, whatever follows them, and belongs to the string around it.
-/
theorem codePoint_eq_ok {s r : List UInt8} {c : Char} (h : codePoint s = .ok (c, r)) :
    ∃ p, s = p ++ r ∧ (∀ r', codePoint (p ++ r') = .ok (c, r')) ∧
      ∀ {body t u}, StringBody body t u →
        StringBody (backslash :: 0x75 :: (p ++ body)) (backslash :: 0x75 :: (p ++ t)) u := by
  unfold codePoint at h
  split at h
  · cases h
  next n t hn =>
  rcases hexEscape_eq_ok hn with ⟨p, hp, rfl⟩
  have hlocal := hp.hexEscape_append hn
  split at h
  · cases h
  next hlone =>
  split at h
  · next hleading =>
    split at h
    · cases h
    next m u hm =>
    rw [Except.ok.injEq, Prod.mk.injEq] at h
    rcases h with ⟨rfl, rfl⟩
    rcases trailingSurrogate_eq_ok hm with ⟨q, hq, rfl, hlocal'⟩
    refine ⟨p ++ backslash :: 0x75 :: q, by simp, fun r' => ?_, fun hbody => ?_⟩
    · rw [List.append_assoc, List.cons_append, List.cons_append, codePoint, hlocal]
      simp only [if_neg hlone, if_pos hleading, hlocal' r']
    · have hboth := hp.stringBody (hq.stringBody hbody)
      simpa using hboth
  · next hleading =>
    cases h
    refine ⟨p, rfl, fun r' => ?_, fun hbody => hp.stringBody hbody⟩
    simp only [codePoint, hlocal r', if_neg hlone, if_neg hleading]

/-- What is read as an escape is one, whatever follows it. -/
theorem escape_eq_ok {s e r : List UInt8} (h : escape s = .ok (e, r)) :
    ∃ p, s = p ++ r ∧ (∀ r', escape (p ++ r') = .ok (e, r')) ∧
      ∀ {body t u}, StringBody body t u →
        StringBody (backslash :: (p ++ body)) (backslash :: (p ++ t)) u := by
  unfold escape at h
  split at h
  · cases h
  next b s =>
  split at h
  · next e' hletter =>
    cases h
    refine ⟨[b], rfl, fun r' => ?_, fun hbody => ?_⟩
    · simp only [List.cons_append, List.nil_append, escape, hletter]
    · exact .letter (by simp [hletter]) hbody
  · next hletter =>
    split at h
    · next hcode =>
      subst hcode
      split at h
      · cases h
      next c t hc =>
      cases h
      rcases codePoint_eq_ok hc with ⟨p, rfl, hlocal, hbody⟩
      refine ⟨0x75 :: p, rfl, fun r' => ?_, fun h => hbody h⟩
      simp only [List.cons_append, escape, hletter, if_true, hlocal r']
    · cases h

/-- What is read as the inside of a string is one, whatever follows it. -/
theorem content_eq_ok {s bytes r : List UInt8} (h : content s = .ok (bytes, r)) :
    ∃ body, StringBody body s r ∧ content (body ++ [quote]) = .ok (bytes, []) := by
  fun_induction content s generalizing bytes r with
  | case1 => cases h
  | case2 s =>
    cases h
    exact ⟨[], .close, by rw [List.nil_append, content, if_pos rfl]⟩
  | case3 => cases h
  | case4 => cases h
  | case5 s e t hesc bytes u hbytes _ ih =>
    cases h
    rcases ih hbytes with ⟨body, hbody, hlocal⟩
    rcases escape_eq_ok hesc with ⟨p, rfl, hescape, hwhole⟩
    refine ⟨backslash :: (p ++ body), hwhole hbody, ?_⟩
    rw [List.cons_append, List.append_assoc]
    exact content_backslash (hescape _) hlocal
  | case6 => cases h
  | case7 => cases h
  | case8 b s hquote hslash hcontrol bytes u hbytes ih =>
    cases h
    rcases ih hbytes with ⟨body, hbody, hlocal⟩
    refine ⟨b :: body, .plain hquote hslash hcontrol hbody, ?_⟩
    rw [List.cons_append]
    exact content_cons_of_plain ⟨hquote, hslash, hcontrol⟩ hlocal

/-- The name of a key as it is written between its quotes. -/
def keyName? (body : List UInt8) : Option String :=
  (string (body ++ [quote])).toOption.map (·.1)

-- A name may be written with escapes.
example : keyName? "b\\u006fdy".toUTF8.toList = some "body" := by
  decide +kernel

/-- What is read as a string is one, and its characters are those of its own bytes. -/
theorem string_eq_ok {s r : List UInt8} {x : String} (h : string s = .ok (x, r)) :
    ∃ body, StringBody body s r ∧ keyName? body = some x := by
  unfold string at h
  split at h
  · cases h
  next bytes t hbytes =>
  rcases content_eq_ok hbytes with ⟨body, hbody, hlocal⟩
  split at h
  · next cs hcs =>
    cases h
    refine ⟨body, hbody, ?_⟩
    simp only [keyName?, string, hlocal, hcs]
    rfl
  · split at h
    · cases h
    · cases h

/-! ## Readers -/

/-- The reader only takes the text of a value, of the given shape. -/
def Takes {α : Type} (read : Reader α) (shape : Value → Prop) : Prop :=
  ∀ ⦃s x r⦄, read s = .ok (x, r) → ∃ v, Spells v s r ∧ shape v

/-- What refuses brackets only takes texts of values, as it takes none. -/
theorem takes_refuseBracket {α : Type} (expected : String) (isOpen : UInt8 → Bool)
    (shape : Value → Prop) : Takes (refuseBracket (α := α) expected isOpen) shape := by
  intro s x r h
  unfold refuseBracket at h
  split at h
  · cases h
  · split at h
    · cases h
    · cases h

/-- What is read as a string is one. -/
theorem takes_stringValue : Takes stringValue fun v => ∃ body, v = .string body := by
  intro s x r h
  unfold stringValue at h
  split at h
  · cases h
  next b t ht =>
  split at h
  · next hb =>
    rcases string_eq_ok h with ⟨body, hbody, -⟩
    refine ⟨.string body, .scalar ?_, body, rfl⟩
    rw [ht, hb]
    exact .string hbody
  · cases h

/-- What may be null is null, or what is read otherwise. -/
theorem takes_orDefault {α : Type} {read : Reader α} {shape : Value → Prop} (default : α)
    (h : Takes read shape) : Takes (orDefault default read) fun v => v ≠ .null → shape v := by
  intro s x r hread
  unfold orDefault at hread
  split at hread
  · next hs =>
    rcases h hread with ⟨v, hv, hshape⟩
    exact ⟨v, .of_skipSpace (hs ▸ hv), fun _ => hshape⟩
  next b t hs =>
  split at hread
  · next hb =>
    split at hread
    · cases hread
    next u hu =>
    cases hread
    refine ⟨.null, .scalar ?_, fun hnull => absurd rfl hnull⟩
    rw [hs, hb, word_eq_ok_iff.1 hu]
    exact .null
  · rcases h hread with ⟨v, hv, hshape⟩
    exact ⟨v, .of_skipSpace (hs ▸ hv), fun _ => hshape⟩

/-! ## Lists -/

/-- Another element stands after what separates it from those before. -/
theorem nextElement_more {first : Bool} {s t : List UInt8}
    (h : nextElement first s = .ok (true, t)) : ∃ u, Separated first s u ∧ t = skipSpace u := by
  unfold nextElement at h
  split at h
  · cases h
  next b u hs =>
  split at h
  · cases h
  split at h
  · next hfirst =>
    subst hfirst
    cases h
    exact ⟨skipSpace s, rfl, by rw [skipSpace_skipSpace, hs]⟩
  next hfirst =>
  split at h
  · next hcomma =>
    subst hcomma
    split at h
    · cases h
    next c w hu =>
    split at h
    · cases h
    cases h
    refine ⟨u, ?_, hu.symm⟩
    rw [Bool.eq_false_iff.2 hfirst]
    exact hs
  · cases h

/-- The end of a list is found in front of its bracket. -/
theorem nextElement_end {first : Bool} {s t : List UInt8}
    (h : nextElement first s = .ok (false, t)) : ∃ u, skipSpace s = closeBracket :: u ∧
      t = closeBracket :: u := by
  unfold nextElement at h
  split at h
  · cases h
  next b u hs =>
  split at h
  · next hb =>
    subst hb
    cases h
    exact ⟨u, hs, rfl⟩
  split at h
  · cases h
  split at h
  · split at h
    · cases h
    split at h
    · cases h
    · cases h
  · cases h

/-- A list ends with its bracket. -/
theorem endList_eq_ok {s r : List UInt8} (h : endList s = .ok r) :
    skipSpace s = closeBracket :: r := by
  unfold endList at h
  split at h
  · cases h
  next b t ht =>
  split at h
  · next hb =>
    cases h
    rw [ht, hb]
  split at h
  · simp only at h
    split at h
    · cases h
    · cases h
  · cases h

/-- The elements that are read are items of the shape, up to the end of the list. -/
theorem elements_eq_ok {α : Type} {element : Reader α} {shape : Value → Prop}
    (helement : Takes element shape) {fuel : Nat} {first : Bool} {s t r : List UInt8}
    {xs : List α} (h : elements element fuel first s = .ok (xs, t)) (hend : endList t = .ok r) :
    ∃ vs, Items first vs s r ∧ ∀ v ∈ vs, shape v := by
  induction fuel generalizing first s t xs with
  | zero => cases h
  | succ fuel ih =>
    unfold elements at h
    split at h
    · cases h
    · next u hu =>
      cases h
      rcases nextElement_end hu with ⟨w, hs, rfl⟩
      have hw := endList_eq_ok hend
      rw [skipSpace_cons rfl] at hw
      cases hw
      exact ⟨[], .close hs, nofun⟩
    next u hu =>
    split at h
    · cases h
    next x w hx =>
    split at h
    · cases h
    next ys y hys =>
    cases h
    rcases nextElement_more hu with ⟨z, hz, rfl⟩
    rcases helement hx with ⟨v, hv, hshape⟩
    rcases ih hys hend with ⟨vs, hvs, hshapes⟩
    refine ⟨v :: vs, .item hz (.of_skipSpace hv) hvs, fun v' hv' => ?_⟩
    rcases List.mem_cons.1 hv' with rfl | hv'
    · exact hshape
    · exact hshapes v' hv'

/-- What is read as a list is one, of what is read as its elements. -/
theorem takes_list {α : Type} {element : Reader α} {shape : Value → Prop}
    (helement : Takes element shape) :
    Takes (list element) fun v => ∃ vs, v = .list vs ∧ ∀ v ∈ vs, shape v := by
  intro s xs r h
  unfold list at h
  split at h
  · cases h
  next b t hs =>
  split at h
  · next hb =>
    subst hb
    unfold bracketed at h
    split at h
    · cases h
    next ys u hys =>
    split at h
    · cases h
    next w hend =>
    cases h
    rcases elements_eq_ok helement hys hend with ⟨vs, hvs, hshapes⟩
    exact ⟨.list vs, .list hs hvs, vs, rfl, hshapes⟩
  · cases h

/-! ## Objects -/

/-- A further member is found at the quote of its key. -/
theorem nextMember_more {first : Bool} {s t : List UInt8}
    (h : nextMember first s = .ok (true, t)) :
    ∃ u, Separated first s u ∧ skipSpace u = quote :: t := by
  unfold nextMember at h
  split at h
  · cases h
  next b u hs =>
  split at h
  · cases h
  split at h
  · next hfirst =>
    subst hfirst
    split at h
    · next hb =>
      subst hb
      cases h
      exact ⟨skipSpace s, rfl, by rw [skipSpace_skipSpace, hs]⟩
    · cases h
  next hfirst =>
  split at h
  · next hcomma =>
    subst hcomma
    split at h
    · cases h
    next c w hu =>
    split at h
    · next hc =>
      subst hc
      cases h
      refine ⟨u, ?_, hu⟩
      rw [Bool.eq_false_iff.2 hfirst]
      exact hs
    split at h
    · cases h
    · cases h
  · cases h

/-- The end of an object is found in front of its brace. -/
theorem nextMember_end {first : Bool} {s t : List UInt8}
    (h : nextMember first s = .ok (false, t)) : ∃ u, skipSpace s = closeBrace :: u ∧
      t = closeBrace :: u := by
  unfold nextMember at h
  split at h
  · cases h
  next b u hs =>
  split at h
  · next hb =>
    subst hb
    cases h
    exact ⟨u, hs, rfl⟩
  split at h
  · split at h
    · cases h
    · cases h
  split at h
  · split at h
    · cases h
    split at h
    · cases h
    split at h
    · cases h
    · cases h
  · cases h

/-- An object ends with its brace. -/
theorem endObject_eq_ok {s r : List UInt8} (h : endObject s = .ok r) :
    skipSpace s = closeBrace :: r := by
  unfold endObject at h
  split at h
  · cases h
  next b t ht =>
  split at h
  · next hb =>
    cases h
    rw [ht, hb]
  split at h
  · cases h
  · cases h

/-- A colon is read after any blanks. -/
theorem afterColon_eq_ok {s r : List UInt8} (h : afterColon s = .ok r) :
    skipSpace s = colon :: r := by
  unfold afterColon at h
  split at h
  · cases h
  next b t ht =>
  split at h
  · next hb =>
    cases h
    rw [ht, hb]
  · cases h

/-- What is read after a key is a colon and the text of a value, of a shape that depends on the name
of the key. -/
def TakesMembers {σ : Type} (member : σ → String → Reader σ) (shape : String → Value → Prop) :
    Prop :=
  ∀ ⦃st st' : σ⦄ ⦃name : String⦄ ⦃s r : List UInt8⦄, member st name s = .ok (st', r) →
    ∃ v t, skipSpace s = colon :: t ∧ Spells v t r ∧ shape name v

/-- The members have the shape that goes with their names. -/
def Named (shape : String → Value → Prop) (ms : List (List UInt8 × Value)) : Prop :=
  ∀ m ∈ ms, ∃ name, keyName? m.1 = some name ∧ shape name m.2

/-- The members that are read are members of the shapes of their names, up to the end of the object.
-/
theorem members_eq_ok {σ : Type} {member : σ → String → Reader σ} {shape : String → Value → Prop}
    (hmember : TakesMembers member shape) {fuel : Nat} {first : Bool} {st st' : σ}
    {s t r : List UInt8} (h : members member fuel first st s = .ok (st', t))
    (hend : endObject t = .ok r) : ∃ ms, Members first ms s r ∧ Named shape ms := by
  induction fuel generalizing first st s t with
  | zero => cases h
  | succ fuel ih =>
    unfold members at h
    split at h
    · cases h
    · next u hu =>
      cases h
      rcases nextMember_end hu with ⟨w, hs, rfl⟩
      have hw := endObject_eq_ok hend
      rw [skipSpace_cons rfl] at hw
      cases hw
      exact ⟨[], .close hs, nofun⟩
    next u hu =>
    split at h
    · cases h
    next name w hname =>
    split at h
    · cases h
    next st'' x hx =>
    rcases nextMember_more hu with ⟨y, hy, hquote⟩
    rcases string_eq_ok hname with ⟨body, hbody, hkey⟩
    rcases hmember hx with ⟨v, z, hcolon, hv, hshape⟩
    rcases ih h hend with ⟨ms, hms, hnamed⟩
    refine ⟨(body, v) :: ms, .member hy ⟨u, w, hquote, hbody, hcolon⟩ hv hms, fun m hm => ?_⟩
    rcases List.mem_cons.1 hm with rfl | hm
    · exact ⟨name, hkey, hshape⟩
    · exact hnamed m hm

theorem bracketed_members_eq_ok {σ : Type} {member : σ → String → Reader σ}
    {shape : String → Value → Prop} (hmember : TakesMembers member shape) {fuel : Nat}
    {st st' : σ} {s r : List UInt8}
    (h : bracketed (members member fuel true st) endObject s = .ok (st', r)) :
    ∃ ms, Members true ms s r ∧ Named shape ms := by
  unfold bracketed at h
  split at h
  · cases h
  next st'' u hu =>
  split at h
  · cases h
  next w hend =>
  cases h
  exact members_eq_ok hmember hu hend

/-- What is read as an object is one, of what is read as its members. -/
theorem takes_map {σ : Type} {member : σ → String → Reader σ} {shape : String → Value → Prop}
    (hmember : TakesMembers member shape) (start : σ) :
    Takes (map member start) fun v => ∃ ms, v = .object ms ∧ Named shape ms := by
  intro s x r h
  unfold map at h
  split at h
  · cases h
  next b t hs =>
  split at h
  · next hb =>
    subst hb
    rcases bracketed_members_eq_ok hmember h with ⟨ms, hms, hnamed⟩
    exact ⟨.object ms, .object hs hms, ms, rfl, hnamed⟩
  · cases h

/-- The value of a member stands after a colon. -/
theorem memberValue_eq_ok {α : Type} {read : Reader α} {shape : Value → Prop}
    (hread : Takes read shape) {s r : List UInt8} {x : α} (h : memberValue read s = .ok (x, r)) :
    ∃ v t, skipSpace s = colon :: t ∧ Spells v t r ∧ shape v := by
  unfold memberValue at h
  split at h
  · cases h
  next t ht =>
  rcases hread h with ⟨v, hv, hshape⟩
  exact ⟨v, t, afterColon_eq_ok ht, hv, hshape⟩

/-- A field that is read stands after a colon. -/
theorem field_eq_ok {α σ : Type} {name : String} {before : Option α} {read : Reader α}
    {store : α → σ} {shape : Value → Prop} (hread : Takes read shape) {s r : List UInt8} {st : σ}
    (h : field name before read store s = .ok (st, r)) :
    ∃ v t, skipSpace s = colon :: t ∧ Spells v t r ∧ shape v := by
  unfold field at h
  split at h
  · cases h
  split at h
  · cases h
  next x t hx =>
  cases h
  exact memberValue_eq_ok hread hx

/-- A member that is not asked for has any value. -/
theorem ignored_eq_ok {σ : Type} {st st' : σ} {s r : List UInt8}
    (h : ignored st s = .ok (st', r)) : ∃ v t, skipSpace s = colon :: t ∧ Spells v t r := by
  unfold ignored at h
  split at h
  · cases h
  next t ht =>
  split at h
  · cases h
  next u hu =>
  cases h
  rcases skip_eq_ok_iff.1 hu with ⟨v, hv⟩
  exact ⟨v, t, afterColon_eq_ok ht, hv⟩

/-! ## Records -/

/-- The values stand in the places of the first fields, and have their shapes. -/
def Placed {φ : Type} (shape : φ → Value → Prop) (fields : List φ) (vs : List Value) : Prop :=
  vs.length ≤ fields.length ∧ ∀ p ∈ fields.zip vs, shape p.1 p.2

theorem Placed.nil {φ : Type} (shape : φ → Value → Prop) (fields : List φ) :
    Placed shape fields [] := by
  simp [Placed]

/-- One value more, in the place of one field more. -/
theorem Placed.cons {φ : Type} {shape : φ → Value → Prop} {f : φ} {fields : List φ} {v : Value}
    {vs : List Value} (hv : shape f v) (h : Placed shape fields vs) :
    Placed shape (f :: fields) (v :: vs) := by
  refine ⟨Nat.succ_le_succ h.1, fun p hp => ?_⟩
  rw [List.zip_cons_cons] at hp
  rcases List.mem_cons.1 hp with rfl | hp
  · exact hv
  · exact h.2 p hp

/-- Bytes begin with values that stand in the places of fields, and the end of their list. -/
def Places {φ : Type} (shape : φ → Value → Prop) (fields : List φ) (first : Bool)
    (s rest : List UInt8) : Prop :=
  ∃ vs, Items first vs s rest ∧ Placed shape fields vs

/-- At the end of a list, no values are left for the places. -/
theorem places_of_endList {φ : Type} (shape : φ → Value → Prop) (fields : List φ) (first : Bool)
    {s r : List UInt8} (h : endList s = .ok r) : Places shape fields first s r :=
  ⟨[], .close (endList_eq_ok h), .nil shape fields⟩

/-- Steps that succeed one after the other succeed each. -/
theorem ok_of_bind {ε α β : Type} {x : Except ε α} {f : α → Except ε β} {y : β}
    (h : x >>= f = .ok y) : ∃ a, x = .ok a ∧ f a = .ok y := by
  cases x with
  | error e => cases h
  | ok a => exact ⟨a, rfl, h⟩

/-- A field given by its place is a value of its shape, or the list is at its end. -/
theorem positional_eq_ok {α φ : Type} {shape : φ → Value → Prop} {f : φ} {fields : List φ}
    {read : Reader α} (hread : Takes read (shape f)) {first : Bool} {default x : α}
    {s t r : List UInt8} (h : positional first default read s = .ok (x, t))
    (hrest : Places shape fields false t r) : Places shape (f :: fields) first s r := by
  rcases hrest with ⟨vs, hvs, hplaced⟩
  unfold positional at h
  split at h
  · cases h
  · next u hu =>
    cases h
    rcases nextElement_end hu with ⟨w, hs, rfl⟩
    cases hvs with
    | close ht =>
      rw [skipSpace_cons rfl] at ht
      cases ht
      exact ⟨[], .close hs, .nil shape _⟩
    | item ht =>
      have hfront : skipSpace (closeBracket :: w) = comma :: _ := ht
      rw [skipSpace_cons rfl] at hfront
      cases hfront
  · next u hu =>
    rcases nextElement_more hu with ⟨w, hw, rfl⟩
    rcases hread h with ⟨v, hv, hshape⟩
    exact ⟨v :: vs, .item hw (.of_skipSpace hv) hvs, hplaced.cons hshape⟩

/-- What is read as a record is an object, or a list of its fields. -/
theorem takes_record {α σ φ : Type} {byPlace : Reader α} {member : σ → String → Reader σ}
    {shape : φ → Value → Prop} {fields : List φ} {named : String → Value → Prop}
    (hplace : ∀ {s x t r}, byPlace s = .ok (x, t) → endList t = .ok r →
      Places shape fields true s r)
    (hmember : TakesMembers member named) (expected : String) (start : σ) (build : σ → α) :
    Takes (record expected byPlace member start build) fun v =>
      (∃ vs, v = .list vs ∧ Placed shape fields vs) ∨ ∃ ms, v = .object ms ∧ Named named ms := by
  intro s x r h
  unfold record at h
  split at h
  · cases h
  next b t hs =>
  split at h
  · next hb =>
    subst hb
    unfold bracketed at h
    split at h
    · cases h
    next y u hy =>
    split at h
    · cases h
    next w hend =>
    cases h
    rcases hplace hy hend with ⟨vs, hvs, hplaced⟩
    exact ⟨.list vs, .list hs hvs, .inl ⟨vs, rfl, hplaced⟩⟩
  split at h
  · next hb =>
    subst hb
    split at h
    · cases h
    next st u hu =>
    cases h
    rcases bracketed_members_eq_ok hmember hu with ⟨ms, hms, hnamed⟩
    exact ⟨.object ms, .object hs hms, .inr ⟨ms, rfl, hnamed⟩⟩
  · cases h

/-- A value that takes up the whole input is the text of a value. -/
theorem whole?_eq_ok {α : Type} {read : Reader α} {shape : Value → Prop} (hread : Takes read shape)
    {s : List UInt8} {x : α} (h : whole? read s = .ok x) : ∃ v, IsText v s ∧ shape v := by
  unfold whole? at h
  split at h
  · cases h
  next y t hy =>
  split at h
  · next ht =>
    rcases hread hy with ⟨v, hv, hshape⟩
    exact ⟨v, ⟨t, hv, ht⟩, hshape⟩
  · cases h

end HclQuery.Json
