import HclQuery.Proofs.Json.Grammar

/-!
# JSON: what is skipped

Skipping takes exactly the text of a value.  What is left to be read while brackets are open is what
has to come next, and then what closes each of the brackets.

Main definitions:

- {lit}`Closes`: bytes begin with what closes the open brackets.
- {lit}`Expecting.Meets`: bytes begin with what has to come next, and with what closes the brackets.

Main results:

- Theorem {lit}`skipFrom_meets`: what is skipped is what is left to be read.
- Theorem {lit}`skipFrom_of_meets`: what is left to be read is skipped in steps enough.
- Theorem {lit}`skip_eq_ok_iff`: what is skipped is the text of a value.
-/

namespace HclQuery.Json

open Byte

/-! ## What is skipped is JSON -/

/-- Bytes begin with what closes the open brackets, innermost first. -/
def Closes : List Bracket → (first : Bool) → (s rest : List UInt8) → Prop
  | [], _, s, rest => rest = s
  | .list :: outer, first, s, rest => ∃ vs t, Items first vs s t ∧ Closes outer false t rest
  | .object :: outer, first, s, rest => ∃ ms t, Members first ms s t ∧ Closes outer false t rest

/-- Bytes begin with what has to come next and with what closes the open brackets after it. -/
def Expecting.Meets (brackets : List Bracket) (s rest : List UInt8) : Expecting → Prop
  | .value => ∃ v t, Spells v s t ∧ Closes brackets false t rest
  | .first => Closes brackets true s rest
  | .more => Closes brackets false s rest

/-- A closing bracket closes the innermost one that is open. -/
theorem Closes.close {bracket : Bracket} {outer : List Bracket} {first : Bool}
    {s t r : List UInt8} (hs : skipSpace s = bracket.close :: t) (h : Closes outer false t r) :
    Closes (bracket :: outer) first s r := by
  cases bracket with
  | list => exact ⟨[], t, .close hs, h⟩
  | object => exact ⟨[], t, .close hs, h⟩

/-- An item and what closes the brackets after it. -/
theorem Closes.item {bracket : Bracket} {outer : List Bracket} {first : Bool} {v : Value}
    {s t u w r : List UInt8} (hs : Separated first s t) (hkey : skipKey bracket t = .ok u)
    (hv : Spells v u w) (h : Closes (bracket :: outer) false w r) :
    Closes (bracket :: outer) first s r := by
  cases bracket with
  | list =>
    obtain rfl : t = u := by simpa [skipKey] using hkey
    rcases h with ⟨vs, x, hitems, hclose⟩
    exact ⟨v :: vs, x, .item hs hv hitems, hclose⟩
  | object =>
    rcases skipKey_object_eq_ok_iff.1 hkey with ⟨body, hbody⟩
    rcases h with ⟨ms, x, hmembers, hclose⟩
    exact ⟨(body, v) :: ms, x, .member hs hbody hv hmembers, hclose⟩

/-- What is expected inside a bracket, in front of its first item or of another one. -/
def Expecting.inside : (first : Bool) → Expecting
  | true => .first
  | false => .more

/-- What is skipped inside a bracket: its end, or an item of it. -/
theorem skipFrom_inside (fuel : Nat) (first : Bool) (bracket : Bracket) (outer : List Bracket)
    {s t : List UInt8} {b : UInt8} (ht : skipSpace s = b :: t) :
    skipFrom (fuel + 1) (.inside first) (bracket :: outer) s =
      if b = bracket.close then
        if outer.isEmpty then .ok t else skipFrom fuel .more outer t
      else if first = true then
        match skipKey bracket (b :: t) with
        | .error f => .error f
        | .ok u => skipFrom fuel .value (bracket :: outer) u
      else if b = comma then
        match skipKey bracket t with
        | .error f => .error f
        | .ok u => skipFrom fuel .value (bracket :: outer) u
      else .error ⟨bracket.unseparated, t⟩ := by
  cases first with
  | true =>
    rewrite [if_pos rfl, Expecting.inside, skipFrom, ht]
    · rfl
    · nofun
  | false =>
    rewrite [if_neg Bool.false_ne_true, Expecting.inside, skipFrom, ht]
    · rfl
    · nofun

/-- At the end of the bytes, the innermost bracket that is open is missed. -/
theorem skipFrom_inside_nil (fuel : Nat) (first : Bool) (bracket : Bracket) (outer : List Bracket)
    {s : List UInt8} (ht : skipSpace s = []) :
    skipFrom (fuel + 1) (.inside first) (bracket :: outer) s = .error ⟨bracket.unclosed, []⟩ := by
  cases first <;> simp only [Expecting.inside, skipFrom, ht]

/-- When no brackets are open, nothing is skipped. -/
theorem skipFrom_nil (fuel : Nat) (first : Bool) (s : List UInt8) :
    skipFrom (fuel + 1) (.inside first) [] s = .ok s := by
  cases first <;> simp [Expecting.inside, skipFrom]

section

variable {fuel : Nat} {r : List UInt8}
  (ih : ∀ {expecting : Expecting} {brackets : List Bracket} {s : List UInt8},
    skipFrom fuel expecting brackets s = .ok r → expecting.Meets brackets s r)
include ih

/-- One step inside a bracket. -/
theorem closes_of_skipFrom (first : Bool) {brackets : List Bracket} {s : List UInt8}
    (h : skipFrom (fuel + 1) (.inside first) brackets s = .ok r) : Closes brackets first s r := by
  cases brackets with
  | nil =>
    rw [skipFrom_nil] at h
    cases h
    rfl
  | cons bracket outer =>
    cases ht : skipSpace s with
    | nil =>
      rw [skipFrom_inside_nil fuel first bracket outer ht] at h
      cases h
    | cons b t =>
      rw [skipFrom_inside fuel first bracket outer ht] at h
      split at h
      · next hb =>
        refine .close (hb ▸ ht) ?_
        split at h
        · next hempty =>
          rw [List.isEmpty_iff.1 hempty]
          cases h
          rfl
        · exact ih h
      split at h
      · next hfirst =>
        subst hfirst
        split at h
        · cases h
        · next u hu =>
          rcases ih h with ⟨v, w, hv, hclose⟩
          exact .item ht.symm hu hv hclose
      split at h
      · next hfirst hcomma =>
        have hs : Separated first s t := by
          cases first with
          | true => exact absurd rfl hfirst
          | false =>
            rw [hcomma] at ht
            exact ht
        split at h
        · cases h
        · next u hu =>
          rcases ih h with ⟨v, w, hv, hclose⟩
          exact .item hs hu hv hclose
      · cases h

/-- One step in front of a value. -/
theorem meets_of_skipFrom_value {brackets : List Bracket} {s : List UInt8}
    (h : skipFrom (fuel + 1) .value brackets s = .ok r) : Expecting.value.Meets brackets s r := by
  rw [skipFrom] at h
  split at h
  · cases h
  · next b t ht =>
    split at h
    · next hb =>
      rcases ih h with ⟨vs, u, hitems, hclose⟩
      exact ⟨.list vs, u, .list (hb ▸ ht) hitems, hclose⟩
    split at h
    · next hb =>
      rcases ih h with ⟨ms, u, hmembers, hclose⟩
      exact ⟨.object ms, u, .object (hb ▸ ht) hmembers, hclose⟩
    split at h
    · cases h
    · next u hu =>
      rcases skipScalar_eq_ok_iff.1 hu with ⟨v, hv⟩
      refine ⟨v, u, .scalar (ht ▸ hv), ?_⟩
      split at h
      · next hopen =>
        rw [List.isEmpty_iff.1 hopen]
        cases h
        rfl
      · exact ih h

end

/-- What is skipped is what has to come next and what closes the open brackets. -/
theorem skipFrom_meets {fuel : Nat} {expecting : Expecting} {brackets : List Bracket}
    {s r : List UInt8} (h : skipFrom fuel expecting brackets s = .ok r) :
    expecting.Meets brackets s r := by
  induction fuel generalizing expecting brackets s with
  | zero =>
    rw [skipFrom] at h
    cases h
  | succ fuel ih =>
    cases expecting with
    | value => exact meets_of_skipFrom_value ih h
    | first => exact closes_of_skipFrom ih true h
    | more => exact closes_of_skipFrom ih false h

/-! ## Whatever is JSON is skipped -/

theorem Digits.length_le {s r : List UInt8} (h : Digits s r) : r.length ≤ s.length := by
  rw [h.rest_eq]
  exact (List.dropWhile_sublist isDigit).length_le

/-- A number takes at least one byte. -/
theorem Unsigned.length_lt {s r : List UInt8} (h : Unsigned s r) : r.length < s.length := by
  cases h with | @mk t u _ hwhole hfraction hexponent
  have ht : t.length < s.length := by
    cases hwhole with
    | zero => exact Nat.lt_succ_self _
    | digits => exact Nat.lt_succ_of_le (List.dropWhile_sublist isDigit).length_le
  have hu : u.length ≤ t.length := by
    cases hfraction with
    | missing => exact Nat.le_refl _
    | digits h => exact Nat.le_succ_of_le h.length_le
  have hr : r.length ≤ u.length := by
    cases hexponent with
    | missing => exact Nat.le_refl _
    | unsigned _ h => exact Nat.le_succ_of_le h.length_le
    | signed _ _ h => exact Nat.le_succ_of_le (Nat.le_succ_of_le h.length_le)
  omega

/-- A value that is no list or object takes at least one byte. -/
theorem Scalar.length_lt {v : Value} {s r : List UInt8} (h : Scalar v s r) :
    r.length < s.length := by
  cases h with
  | negative h => exact Nat.lt_succ_of_lt h.length_lt
  | number h => exact h.length_lt
  | string h => exact Nat.lt_succ_of_lt h.length_lt
  | null | true_ | false_ =>
    simp only [List.length_cons, List.length_append]
    omega

theorem Key.length_le {body s r : List UInt8} (h : Key body s r) : r.length ≤ s.length := by
  rcases h with ⟨t, u, ht, hbody, hu⟩
  have hs := skipSpace_length_le s
  have hlt := hbody.length_lt
  have hr := skipSpace_length_le u
  rw [ht, List.length_cons] at hs
  rw [hu, List.length_cons] at hr
  omega

/-- Skipping a key takes nothing back. -/
theorem skipKey_length_le {bracket : Bracket} {s r : List UInt8} (h : skipKey bracket s = .ok r) :
    r.length ≤ s.length := by
  cases bracket with
  | list =>
    cases h
    exact Nat.le_refl _
  | object =>
    rcases skipKey_object_eq_ok_iff.1 h with ⟨body, hbody⟩
    exact hbody.length_le

/-- Nothing that ends a bracket begins an item of it. -/
theorem front_of_skipKey {bracket : Bracket} {v : Value} {s t r : List UInt8}
    (hkey : skipKey bracket s = .ok t) (hv : Spells v t r) :
    ∃ b u, skipSpace s = b :: u ∧ b ≠ bracket.close := by
  cases bracket with
  | list =>
    cases hkey
    exact hv.front
  | object =>
    rcases skipKey_object_eq_ok_iff.1 hkey with ⟨body, u, -, hu, -⟩
    exact ⟨quote, u, hu, by decide⟩

/-- What closes a bracket is its end, or an item and what closes it after that. -/
theorem Closes.cases {bracket : Bracket} {outer : List Bracket} {first : Bool}
    {s r : List UInt8} (h : Closes (bracket :: outer) first s r) :
    (∃ t, skipSpace s = bracket.close :: t ∧ Closes outer false t r) ∨
      ∃ v t u w, Separated first s t ∧ skipKey bracket t = .ok u ∧ Spells v u w ∧
        Closes (bracket :: outer) false w r := by
  cases bracket with
  | list =>
    rcases h with ⟨vs, x, hitems, hclose⟩
    cases hitems with
    | close hs => exact .inl ⟨x, hs, hclose⟩
    | item hs hv hitems => exact .inr ⟨_, _, _, _, hs, rfl, hv, _, x, hitems, hclose⟩
  | object =>
    rcases h with ⟨ms, x, hmembers, hclose⟩
    cases hmembers with
    | close hs => exact .inl ⟨x, hs, hclose⟩
    | member hs hkey hv hmembers =>
      exact .inr ⟨_, _, _, _, hs, skipKey_object_eq_ok_iff.2 ⟨_, hkey⟩, hv, _, x, hmembers, hclose⟩

/-- A bound on the steps that skipping takes without taking a byte. -/
def Expecting.steps : Expecting → Nat
  | .first => 1
  | _ => 0

section

variable {fuel : Nat} {r : List UInt8}
  (ih : ∀ (expecting : Expecting) {brackets : List Bracket} {s : List UInt8},
    expecting.Meets brackets s r → 2 * s.length + expecting.steps < fuel →
      skipFrom fuel expecting brackets s = .ok r)
include ih

/-- One step inside a bracket. -/
theorem skipFrom_of_closes (first : Bool) {brackets : List Bracket} {s : List UInt8}
    (h : Closes brackets first s r)
    (hfuel : 2 * s.length + (Expecting.inside first).steps < fuel + 1) :
    skipFrom (fuel + 1) (.inside first) brackets s = .ok r := by
  have hle := skipSpace_length_le s
  cases brackets with
  | nil =>
    cases h
    exact skipFrom_nil fuel first _
  | cons bracket outer =>
    rcases h.cases with ⟨t, ht, hclose⟩ | ⟨v, t, u, w, hs, hkey, hv, hclose⟩
    · rw [ht, List.length_cons] at hle
      rw [skipFrom_inside fuel first bracket outer ht, if_pos rfl]
      split
      · next hempty =>
        rw [List.isEmpty_iff.1 hempty] at hclose
        cases hclose
        rfl
      · exact ih .more hclose (by simp only [Expecting.steps]; omega)
    · have hu := skipKey_length_le hkey
      rcases front_of_skipKey hkey hv with ⟨b, x, hb, hne⟩
      cases first with
      | true =>
        obtain rfl : t = skipSpace s := hs
        rw [skipSpace_skipSpace] at hb
        rw [skipFrom_inside fuel true bracket outer hb, if_neg hne, if_pos rfl, ← hb, hkey]
        refine ih .value ⟨v, w, hv, hclose⟩ ?_
        simp only [Expecting.inside, Expecting.steps] at hfuel ⊢
        omega
      | false =>
        have hcomma : comma ≠ bracket.close := by cases bracket <;> decide
        have ht : skipSpace s = comma :: t := hs
        rw [ht, List.length_cons] at hle
        rw [skipFrom_inside fuel false bracket outer ht, if_neg hcomma,
          if_neg Bool.false_ne_true, if_pos rfl, hkey]
        refine ih .value ⟨v, w, hv, hclose⟩ ?_
        simp only [Expecting.steps]
        omega

/-- One step in front of a value. -/
theorem skipFrom_of_spells {brackets : List Bracket} {s : List UInt8}
    (h : Expecting.value.Meets brackets s r)
    (hfuel : 2 * s.length + Expecting.value.steps < fuel + 1) :
    skipFrom (fuel + 1) .value brackets s = .ok r := by
  have hle := skipSpace_length_le s
  rcases h with ⟨v, t, hv, hclose⟩
  cases hv with
  | scalar hv =>
    have hlt := hv.length_lt
    rcases hv.front with ⟨b, u, hb, hbracket, hbrace, -⟩
    rw [hb] at hv
    have hscalar := skipScalar_eq_ok_iff.2 ⟨v, hv⟩
    rw [skipFrom, hb]
    simp only [if_neg hbracket, if_neg hbrace, hscalar]
    split
    · next hempty =>
      rw [List.isEmpty_iff.1 hempty] at hclose
      cases hclose
      rfl
    · exact ih .more hclose (by simp only [Expecting.steps]; omega)
  | list ht hitems =>
    rw [ht, List.length_cons] at hle
    rw [skipFrom, ht]
    simp only [if_true]
    exact ih .first ⟨_, t, hitems, hclose⟩
      (by simp only [Expecting.steps]; omega)
  | object ht hmembers =>
    have hne : openBrace ≠ openBracket := by decide
    rw [ht, List.length_cons] at hle
    rw [skipFrom, ht]
    simp only [if_neg hne, if_true]
    exact ih .first ⟨_, t, hmembers, hclose⟩
      (by simp only [Expecting.steps]; omega)

end

/-- What has to come next and what closes the open brackets is skipped in steps enough. -/
theorem skipFrom_of_meets {fuel : Nat} (expecting : Expecting) {brackets : List Bracket}
    {s r : List UInt8} (h : expecting.Meets brackets s r)
    (hfuel : 2 * s.length + expecting.steps < fuel) :
    skipFrom fuel expecting brackets s = .ok r := by
  induction fuel generalizing expecting brackets s with
  | zero => omega
  | succ fuel ih =>
    cases expecting with
    | value => exact skipFrom_of_spells ih h hfuel
    | first => exact skipFrom_of_closes ih true h hfuel
    | more => exact skipFrom_of_closes ih false h hfuel

/-- What is skipped is the text of a value. -/
theorem skip_eq_ok_iff {s r : List UInt8} : skip s = .ok r ↔ ∃ v, Spells v s r := by
  constructor
  · intro h
    rcases skipFrom_meets h with ⟨v, t, hv, hclose⟩
    cases hclose
    exact ⟨v, hv⟩
  · rintro ⟨v, hv⟩
    exact skipFrom_of_meets .value ⟨v, r, hv, rfl⟩ (by simp only [Expecting.steps]; omega)

end HclQuery.Json
