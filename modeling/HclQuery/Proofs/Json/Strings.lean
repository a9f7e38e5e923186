import HclQuery.Json.Reader
import HclQuery.Json.Writer
import HclQuery.Proofs.Text.Utf8

/-!
# JSON: strings that are written and read back

Every string, whatever characters it holds, is read back from its JSON text.

Main results:

- Theorem {lit}`content_escapeChar`: the text of one character is read as its bytes.
- Theorem {lit}`string_flatMap_escapeChar`: a string in quotes is read as that string.
-/

namespace HclQuery.Json

open Byte
open Text (Utf8.encode)
open Text.Utf8

/-! ## Bytes that stand for themselves -/

/-- A byte that stands for itself inside a string. -/
def IsPlainByte (b : UInt8) : Prop :=
  b ≠ quote ∧ b ≠ backslash ∧ ¬b < 0x20

/-- A byte that stands for itself is read in front of more. -/
theorem content_cons_of_plain {b : UInt8} {s bytes r : List UInt8} (hb : IsPlainByte b)
    (h : content s = .ok (bytes, r)) : content (b :: s) = .ok (b :: bytes, r) := by
  rcases hb with ⟨hq, hs, hc⟩
  rw [content, if_neg hq, if_neg hs, if_neg hc, h]

/-- Bytes that stand for themselves are read in front of more. -/
theorem content_append_of_plain {l s bytes r : List UInt8} (hl : ∀ b ∈ l, IsPlainByte b)
    (h : content s = .ok (bytes, r)) : content (l ++ s) = .ok (l ++ bytes, r) := by
  induction l with
  | nil => exact h
  | cons b l ih =>
    have htail : content (l ++ s) = .ok (l ++ bytes, r) :=
      ih fun b' hb' => hl b' (List.mem_cons_of_mem _ hb')
    exact content_cons_of_plain (hl b (List.mem_cons_self ..)) htail

/-- The bytes of characters beyond ASCII stand for themselves. -/
theorem isPlainByte_of_le {b : UInt8} (h : 0x80 ≤ b.toNat) : IsPlainByte b := by
  refine ⟨?_, ?_, ?_⟩
  · rintro rfl
    exact absurd h (by decide)
  · rintro rfl
    exact absurd h (by decide)
  · intro hlt
    have : b.toNat < 0x20 := UInt8.lt_iff_toNat_lt.1 hlt
    omega

/-- The bytes of a character that is written as it is stand for themselves. -/
theorem isPlainByte_of_mem_encodeChar {c : Char} (hq : c ≠ '"') (hs : c ≠ '\\')
    (hc : ¬c.toNat < 0x20) {b : UInt8} (hb : b ∈ String.utf8EncodeChar c) : IsPlainByte b := by
  by_cases hascii : c.toNat < 0x80
  · rw [encodeChar_ascii hascii, List.mem_singleton] at hb
    have hn : b.toNat = c.toNat := by rw [hb, toNat_ofNat_of_lt (by omega)]
    have hback : Char.ofNat c.toNat = c := Char.ofNat_toNat c
    refine ⟨?_, ?_, ?_⟩
    · rintro rfl
      exact hq (by rw [← hback, ← hn]; rfl)
    · rintro rfl
      exact hs (by rw [← hback, ← hn]; rfl)
    · intro hlt
      have : b.toNat < 0x20 := UInt8.lt_iff_toNat_lt.1 hlt
      omega
  · exact isPlainByte_of_le (encode_byte_of_not_ascii (by omega) hb)

/-! ## Escapes -/

/-- An escape is read in front of more. -/
theorem content_backslash {s e r bytes r' : List UInt8} (he : escape s = .ok (e, r))
    (h : content r = .ok (bytes, r')) : content (backslash :: s) = .ok (e ++ bytes, r') := by
  rw [content, if_neg (by decide), if_pos rfl]
  split
  · rename_i he'
    rw [he] at he'
    contradiction
  · rename_i e' r'' he'
    rw [he] at he'
    obtain ⟨rfl, rfl⟩ : e = e' ∧ r = r'' := by simpa using he'
    rw [h]

/-- An escape by letter is read as the byte that the letter stands for. -/
theorem escape_letter {b e : UInt8} (h : escapeLetter? b = some e) (s : List UInt8) :
    escape (b :: s) = .ok ([e], s) := by
  simp only [escape, h]

/-- The digit of a number below sixteen is read as that number. -/
theorem hex?_digitChar : ∀ n < 16, hex? (UInt8.ofNat (Nat.digitChar n).toNat) = some n := by
  decide

theorem digitChar_ascii : ∀ n < 16, (Nat.digitChar n).toNat < 0x80 := by
  decide

/-- The escape of a control character is read as that character. -/
theorem escape_controlEscape {c : Char} (hc : c.toNat < 0x20) (s : List UInt8) :
    escape (0x75 :: 0x30 :: 0x30 :: UInt8.ofNat (Nat.digitChar (c.toNat / 16)).toNat ::
      UInt8.ofNat (Nat.digitChar (c.toNat % 16)).toNat :: s) =
      .ok (String.utf8EncodeChar c, s) := by
  have hhigh := hex?_digitChar (c.toNat / 16) (by omega)
  have hlow := hex?_digitChar (c.toNat % 16) (by omega)
  have hzero : hex? 0x30 = some 0 := rfl
  have hnum : ((0 * 16 + 0) * 16 + c.toNat / 16) * 16 + c.toNat % 16 = c.toNat := by omega
  have hdigits : hexEscape (0x30 :: 0x30 :: UInt8.ofNat (Nat.digitChar (c.toNat / 16)).toNat ::
      UInt8.ofNat (Nat.digitChar (c.toNat % 16)).toNat :: s) = .ok (c.toNat, s) := by
    simp only [hexEscape, hzero, hhigh, hlow, hnum]
  have hpoint : codePoint (0x30 :: 0x30 :: UInt8.ofNat (Nat.digitChar (c.toNat / 16)).toNat ::
      UInt8.ofNat (Nat.digitChar (c.toNat % 16)).toNat :: s) = .ok (c, s) := by
    have hlo : (decide (0xdc00 ≤ c.toNat) && decide (c.toNat ≤ 0xdfff)) = false := by
      simp
      omega
    have hhi : (decide (0xd800 ≤ c.toNat) && decide (c.toNat ≤ 0xdbff)) = false := by
      simp
      omega
    simp [codePoint, hdigits, hlo, hhi]
  have hletter : escapeLetter? 0x75 = none := rfl
  simp [escape, hletter, hpoint]

/-! ## Whole strings -/

/-- A character escaped by a letter. -/
theorem content_letter {c l : Char} {e : UInt8} (hl : l.toNat < 0x80) (hc : c.toNat < 0x80)
    (he : escapeLetter? (UInt8.ofNat l.toNat) = some e) (hb : UInt8.ofNat c.toNat = e)
    {s bytes r : List UInt8} (h : content s = .ok (bytes, r)) :
    content (encode ['\\', l] ++ s) = .ok (String.utf8EncodeChar c ++ bytes, r) := by
  have hslash : String.utf8EncodeChar '\\' = [backslash] := rfl
  rw [encode_cons, encode_cons, encode_nil, hslash, encodeChar_ascii hl, encodeChar_ascii hc, hb]
  exact content_backslash (escape_letter he s) h

/-- The text of one character is read as its bytes. -/
theorem content_escapeChar (c : Char) {s bytes r : List UInt8} (h : content s = .ok (bytes, r)) :
    content (encode (escapeChar c) ++ s) = .ok (String.utf8EncodeChar c ++ bytes, r) := by
  unfold escapeChar
  by_cases hquote : c = '"'
  · subst hquote
    exact content_letter (by decide) (by decide) rfl rfl h
  rw [if_neg hquote]
  by_cases hslash : c = '\\'
  · subst hslash
    exact content_letter (by decide) (by decide) rfl rfl h
  rw [if_neg hslash]
  by_cases hb : c = '\x08'
  · subst hb
    exact content_letter (by decide) (by decide) rfl rfl h
  rw [if_neg hb]
  by_cases hf : c = '\x0c'
  · subst hf
    exact content_letter (by decide) (by decide) rfl rfl h
  rw [if_neg hf]
  by_cases hn : c = '\n'
  · subst hn
    exact content_letter (by decide) (by decide) rfl rfl h
  rw [if_neg hn]
  by_cases hr : c = '\r'
  · subst hr
    exact content_letter (by decide) (by decide) rfl rfl h
  rw [if_neg hr]
  by_cases ht : c = '\t'
  · subst ht
    exact content_letter (by decide) (by decide) rfl rfl h
  rw [if_neg ht]
  by_cases hcontrol : c.toNat < 0x20
  · have hu : String.utf8EncodeChar 'u' = [0x75] := rfl
    have hzero : String.utf8EncodeChar '0' = [0x30] := rfl
    have hback : String.utf8EncodeChar '\\' = [backslash] := rfl
    have hhigh := encodeChar_ascii (digitChar_ascii (c.toNat / 16) (by omega))
    have hlow := encodeChar_ascii (digitChar_ascii (c.toNat % 16) (by omega))
    rw [if_pos hcontrol, controlEscape]
    simp only [encode_cons, encode_nil, hu, hzero, hback, hhigh, hlow, List.cons_append,
      List.nil_append]
    exact content_backslash (escape_controlEscape hcontrol s) h
  · rw [if_neg hcontrol, encode_cons, encode_nil, List.append_nil]
    exact content_append_of_plain
      (fun b hmem => isPlainByte_of_mem_encodeChar hquote hslash hcontrol hmem) h

/-- Characters that were escaped one by one are read back. -/
theorem content_flatMap_escapeChar (cs : List Char) (rest : List UInt8) :
    content (encode (cs.flatMap escapeChar) ++ quote :: rest) = .ok (encode cs, rest) := by
  induction cs with
  | nil => rw [List.flatMap_nil, encode_nil, List.nil_append, content, if_pos rfl]
  | cons c cs ih =>
    rw [List.flatMap_cons, encode_append, List.append_assoc, encode_cons]
    exact content_escapeChar c ih

/-- A string in quotes, of which the first has been read, is read as that string. -/
theorem string_flatMap_escapeChar (x : String) (rest : List UInt8) :
    string (encode (x.toList.flatMap escapeChar) ++ quote :: rest) = .ok (x, rest) := by
  rw [string, content_flatMap_escapeChar]
  simp only [decode_encode, String.ofList_toList]

end HclQuery.Json
