import HclQuery.Text.Utf8

/-!
# UTF-8: encoding and decoding

The machine that reads bytes gives back the characters that were written, one after the other.

Main results:

- Theorem {lit}`piecesFrom_encodeChar`: the bytes of one character are read as that character.
- Theorem {lit}`decode_encode`: decoding undoes encoding.
- Theorem {lit}`encode_byte_of_not_ascii`: the bytes of a character beyond ASCII are not ASCII
  bytes.
- Theorem {lit}`encode_lt_encode_iff`: texts stand in the order of their bytes.
-/

namespace HclQuery.Text.Utf8

@[simp]
theorem encode_nil : encode [] = [] := rfl

@[simp]
theorem encode_cons (c : Char) (t : List Char) :
    encode (c :: t) = String.utf8EncodeChar c ++ encode t := by
  simp [encode]

/-- The bytes of two texts follow each other. -/
@[simp]
theorem encode_append (s t : List Char) : encode (s ++ t) = encode s ++ encode t := by
  simp [encode]

/-- An ASCII character is its own byte. -/
theorem encodeChar_ascii {c : Char} (h : c.toNat < 0x80) :
    String.utf8EncodeChar c = [UInt8.ofNat c.toNat] := by
  have hle : c.val.toNat ≤ 0x7f := Nat.le_of_lt_succ h
  unfold String.utf8EncodeChar
  exact if_pos hle

/-! ## Reading one character -/

/-- A small number is kept by a byte. -/
theorem toNat_ofNat_of_lt {n : Nat} (h : n < 256) : (UInt8.ofNat n).toNat = n := by
  simpa using h

/-- The last continuation byte completes a character. -/
theorem piecesFrom_last {bits seen low high m : Nat} (hl : low ≤ m % 64 + 128)
    (hh : m % 64 + 128 ≤ high) (rest : List UInt8) :
    piecesFrom (.inside bits seen 1 low high) (UInt8.ofNat (m % 64 + 128) :: rest) =
      .char (Char.ofNat (bits * 64 + m % 64)) :: piecesFrom .between rest := by
  have hn : (UInt8.ofNat (m % 64 + 128)).toNat = m % 64 + 128 := toNat_ofNat_of_lt (by omega)
  have hin : (decide (low ≤ m % 64 + 128) && decide (m % 64 + 128 ≤ high)) = true := by
    simp only [decide_eq_true hl, decide_eq_true hh, Bool.and_self]
  have hm : m % 64 + 128 - 0x80 = m % 64 := by omega
  rw [piecesFrom, step]
  simp only [hn, hin, hm, if_true, List.cons_append, List.nil_append]

/-- Any other continuation byte adds its six bits. -/
theorem piecesFrom_more {bits seen due low high m : Nat} (hl : low ≤ m % 64 + 128)
    (hh : m % 64 + 128 ≤ high) (rest : List UInt8) :
    piecesFrom (.inside bits seen (due + 2) low high) (UInt8.ofNat (m % 64 + 128) :: rest) =
      piecesFrom (.inside (bits * 64 + m % 64) (seen + 1) (due + 1) 0x80 0xbf) rest := by
  have hn : (UInt8.ofNat (m % 64 + 128)).toNat = m % 64 + 128 := toNat_ofNat_of_lt (by omega)
  have hin : (decide (low ≤ m % 64 + 128) && decide (m % 64 + 128 ≤ high)) = true := by
    simp only [decide_eq_true hl, decide_eq_true hh, Bool.and_self]
  have hm : m % 64 + 128 - 0x80 = m % 64 := by omega
  have hdue : ¬due + 2 = 1 := by omega
  rw [piecesFrom, step]
  simp only [hn, hin, hm, if_true, if_neg hdue, List.nil_append]
  rfl

/-- The first byte of a character of two bytes. -/
theorem piecesFrom_two {n : Nat} (hl : 2 ≤ n) (hh : n < 32) (rest : List UInt8) :
    piecesFrom .between (UInt8.ofNat (n + 0xc0) :: rest) =
      piecesFrom (.inside n 1 1 0x80 0xbf) rest := by
  have hn : (UInt8.ofNat (n + 0xc0)).toNat = n + 0xc0 := toNat_ofNat_of_lt (by omega)
  rw [piecesFrom, step, start]
  simp only [hn]
  rw [if_neg (by omega), if_neg (by omega), if_pos (by omega)]
  simp

/-- The least continuation byte after the first byte of a character of three bytes. -/
def lowThree (n : Nat) : Nat := if n = 0 then 0xa0 else 0x80

/-- The greatest continuation byte after the first byte of a character of three bytes. -/
def highThree (n : Nat) : Nat := if n = 0xd then 0x9f else 0xbf

/-- The first byte of a character of three bytes. -/
theorem piecesFrom_three {n : Nat} (hn : n < 16) (rest : List UInt8) :
    piecesFrom .between (UInt8.ofNat (n + 0xe0) :: rest) =
      piecesFrom (.inside n 1 2 (lowThree n) (highThree n)) rest := by
  have hb : (UInt8.ofNat (n + 0xe0)).toNat = n + 0xe0 := toNat_ofNat_of_lt (by omega)
  rw [piecesFrom, step, start]
  simp only [hb]
  rw [if_neg (by omega), if_neg (by omega), if_neg (by omega)]
  by_cases h0 : n = 0
  · subst h0
    rfl
  · by_cases hd : n = 0xd
    · subst hd
      rfl
    · rw [if_neg (by omega), if_neg (by omega), if_pos (by omega)]
      simp [lowThree, highThree, h0, hd]

/-- The least continuation byte after the first byte of a character of four bytes. -/
def lowFour (n : Nat) : Nat := if n = 0 then 0x90 else 0x80

/-- The greatest continuation byte after the first byte of a character of four bytes. -/
def highFour (n : Nat) : Nat := if n = 4 then 0x8f else 0xbf

/-- The first byte of a character of four bytes. -/
theorem piecesFrom_four {n : Nat} (hn : n < 5) (rest : List UInt8) :
    piecesFrom .between (UInt8.ofNat (n + 0xf0) :: rest) =
      piecesFrom (.inside n 1 3 (lowFour n) (highFour n)) rest := by
  have hb : (UInt8.ofNat (n + 0xf0)).toNat = n + 0xf0 := toNat_ofNat_of_lt (by omega)
  rw [piecesFrom, step, start]
  simp only [hb]
  rw [if_neg (by omega), if_neg (by omega), if_neg (by omega), if_neg (by omega),
    if_neg (by omega), if_neg (by omega)]
  by_cases h0 : n = 0
  · subst h0
    rfl
  · by_cases h4 : n = 4
    · subst h4
      rfl
    · rw [if_neg (by omega), if_pos (by omega)]
      simp [lowFour, highFour, h0, h4]

/-- The bytes of one character are read as that character. -/
theorem piecesFrom_encodeChar (c : Char) (rest : List UInt8) :
    piecesFrom .between (String.utf8EncodeChar c ++ rest) =
      .char c :: piecesFrom .between rest := by
  have hvalid : c.val.toNat < 0xd800 ∨ (0xdfff < c.val.toNat ∧ c.val.toNat < 0x110000) := c.valid
  have hc : Char.ofNat c.val.toNat = c := Char.ofNat_toNat c
  unfold String.utf8EncodeChar
  generalize c.val.toNat = n at hvalid hc ⊢
  simp only
  split
  · have hn : (UInt8.ofNat n).toNat = n := toNat_ofNat_of_lt (by omega)
    rw [List.cons_append, List.nil_append, piecesFrom, step, start]
    simp only [hn]
    rw [if_pos (by omega), hc]
    rfl
  · split
    · have hm : n / 64 % 32 = n / 64 := Nat.mod_eq_of_lt (by omega)
      have hbits : n / 64 * 64 + n % 64 = n := by omega
      simp only [List.cons_append, List.nil_append]
      rw [hm, piecesFrom_two (by omega) (by omega), piecesFrom_last (by omega) (by omega),
        hbits, hc]
    · split
      · have hm : n / 4096 % 16 = n / 4096 := Nat.mod_eq_of_lt (by omega)
        have hbits : (n / 4096 * 64 + n / 64 % 64) * 64 + n % 64 = n := by omega
        have hlow : lowThree (n / 4096) ≤ n / 64 % 64 + 128 := by
          unfold lowThree
          split <;> omega
        have hhigh : n / 64 % 64 + 128 ≤ highThree (n / 4096) := by
          unfold highThree
          split <;> omega
        simp only [List.cons_append, List.nil_append]
        rw [hm, piecesFrom_three (by omega), piecesFrom_more hlow hhigh,
          piecesFrom_last (by omega) (by omega), hbits, hc]
      · have hm : n / 262144 % 8 = n / 262144 := Nat.mod_eq_of_lt (by omega)
        have hbits : ((n / 262144 * 64 + n / 4096 % 64) * 64 + n / 64 % 64) * 64 + n % 64 = n := by
          omega
        have hlow : lowFour (n / 262144) ≤ n / 4096 % 64 + 128 := by
          unfold lowFour
          split <;> omega
        have hhigh : n / 4096 % 64 + 128 ≤ highFour (n / 262144) := by
          unfold highFour
          split <;> omega
        simp only [List.cons_append, List.nil_append]
        rw [hm, piecesFrom_four (by omega), piecesFrom_more hlow hhigh,
          piecesFrom_more (by omega) (by omega), piecesFrom_last (by omega) (by omega), hbits, hc]

/-! ## Reading a text -/

/-- The pieces of encoded characters are the characters. -/
theorem pieces_encode (t : List Char) : pieces (encode t) = t.map .char := by
  unfold pieces
  induction t with
  | nil => rfl
  | cons c t ih => rw [encode_cons, piecesFrom_encodeChar, ih, List.map_cons]

/-- Characters alone are collected as a text. -/
theorem collect_map_char (index : Nat) (t : List Char) :
    collect index (t.map .char) = .ok t := by
  induction t generalizing index with
  | nil => rfl
  | cons c t ih => rw [List.map_cons, collect, ih]

/-- What is collected as a text is characters alone. -/
theorem eq_map_char_of_collect {ps : List Piece} {index : Nat} {t : List Char}
    (h : collect index ps = .ok t) : ps = t.map .char := by
  fun_induction collect index ps generalizing t with
  | case1 =>
    cases h
    rfl
  | case2 index c ps cs hcs ih =>
    cases h
    rw [List.map_cons, ih hcs]
  | case3 => cases h
  | case4 => cases h
  | case5 => cases h

/-- Bytes are a text if their pieces are its characters. -/
theorem decode_eq_ok {bytes : List UInt8} {t : List Char} :
    decode bytes = .ok t ↔ pieces bytes = t.map .char := by
  constructor
  · exact eq_map_char_of_collect
  · intro h
    rw [decode, h, collect_map_char]

/-- Decoding undoes encoding. -/
theorem decode_encode (t : List Char) : decode (encode t) = .ok t := by
  rw [decode, pieces_encode, collect_map_char]

/-- Texts with the same bytes are the same. -/
theorem encode_injective {s t : List Char} (h : encode s = encode t) : s = t := by
  have hs := decode_encode s
  rw [h, decode_encode] at hs
  exact (Except.ok.inj hs).symm

/-! ## Texts one after the other -/

theorem piecesFrom_cons (s : State) (b : UInt8) (bytes : List UInt8) :
    piecesFrom s (b :: bytes) = (step s b).1 ++ piecesFrom (step s b).2 bytes := rfl

/-- After whole characters the machine is between two of them. -/
theorem piecesFrom_append {s : State} {a : List UInt8} {t : List Char}
    (h : piecesFrom s a = t.map .char) (b : List UInt8) :
    piecesFrom s (a ++ b) = t.map .char ++ pieces b := by
  induction a generalizing s t with
  | nil =>
    cases s with
    | between =>
      rw [piecesFrom] at h
      rw [← h]
      rfl
    | inside =>
      rw [piecesFrom] at h
      cases t <;> cases h
  | cons x a ih =>
    rw [piecesFrom_cons] at h
    rcases List.append_eq_map_iff.1 h with ⟨u, v, rfl, hu, hv⟩
    rw [List.cons_append, piecesFrom_cons, ih hv.symm, List.map_append, List.append_assoc, hu]

/-- The text of bytes and of what follows them. -/
theorem decode_append {a b : List UInt8} {t u : List Char} (ha : decode a = .ok t)
    (hb : decode b = .ok u) : decode (a ++ b) = .ok (t ++ u) := by
  rw [decode_eq_ok] at ha hb ⊢
  rw [pieces, piecesFrom_append ha, hb, List.map_append]

/-- A continuation byte that is due is no ASCII byte. -/
def State.Due : State → Prop
  | between => True
  | inside _ _ _ low _ => 0x80 ≤ low

/-- After a first byte, no ASCII byte is due. -/
theorem start_due (b : UInt8) : (start b).2.Due := by
  unfold start
  simp only
  repeat' split
  all_goals simp [State.Due]

/-- After any byte, no ASCII byte is due. -/
theorem step_due {s : State} (b : UInt8) : (step s b).2.Due := by
  cases s with
  | between => exact start_due b
  | inside =>
    unfold step
    simp only
    repeat' split
    · simp [State.Due]
    · simp [State.Due]
    · exact start_due b

/-- A newline is read as itself. -/
theorem step_newline {s : State} (hs : s.Due) :
    ∃ ps, step s 0x0a = (ps ++ [.char '\n'], .between) := by
  cases s with
  | between => exact ⟨[], rfl⟩
  | inside bits seen due low high =>
    have hlow : ¬low ≤ 10 := by
      have hdue : 0x80 ≤ low := hs
      omega
    refine ⟨[.malformed seen], ?_⟩
    simp [step, start, hlow]

/-- A newline at the end of bytes is read as itself. -/
theorem getLast?_piecesFrom {s : State} (hs : s.Due) (a : List UInt8) :
    (piecesFrom s (a ++ [0x0a])).getLast? = some (.char '\n') := by
  induction a generalizing s with
  | nil =>
    rcases step_newline hs with ⟨ps, hps⟩
    rw [List.nil_append, piecesFrom_cons, hps]
    simp [piecesFrom]
  | cons x a ih =>
    rw [List.cons_append, piecesFrom_cons, List.getLast?_append, ih (step_due x)]
    rfl

/-- A text ends with a newline if its bytes do. -/
theorem getLast?_of_decode {a : List UInt8} {t : List Char} (h : decode (a ++ [0x0a]) = .ok t) :
    t.getLast? = some '\n' := by
  have hlast := getLast?_piecesFrom (s := .between) trivial a
  have hpieces := decode_eq_ok.1 h
  rw [pieces] at hpieces
  rw [hpieces, List.getLast?_map] at hlast
  rcases Option.map_eq_some_iff.1 hlast with ⟨c, hc, hchar⟩
  cases hchar
  exact hc

/-- The bytes of a character beyond ASCII are not ASCII bytes. -/
theorem encode_byte_of_not_ascii {c : Char} (hc : 0x80 ≤ c.toNat) {b : UInt8}
    (hb : b ∈ String.utf8EncodeChar c) : 0x80 ≤ b.toNat := by
  have hvalid : c.val.toNat < 0xd800 ∨ (0xdfff < c.val.toNat ∧ c.val.toNat < 0x110000) := c.valid
  have hv : 0x80 ≤ c.val.toNat := hc
  unfold String.utf8EncodeChar at hb
  generalize c.val.toNat = n at hvalid hv hb
  simp only at hb
  split at hb
  · omega
  · split at hb
    · simp only [List.mem_cons, List.not_mem_nil, or_false] at hb
      rcases hb with rfl | rfl <;> rw [toNat_ofNat_of_lt (by omega)] <;> omega
    · split at hb <;> simp only [List.mem_cons, List.not_mem_nil, or_false] at hb
      · rcases hb with rfl | rfl | rfl <;> rw [toNat_ofNat_of_lt (by omega)] <;> omega
      · rcases hb with rfl | rfl | rfl | rfl <;> rw [toNat_ofNat_of_lt (by omega)] <;> omega

/-! ## The order of the bytes -/

/-- The bytes of a lesser character come first, whatever follows them. -/
theorem encodeChar_append_lt {c d : Char} (h : c < d) (s t : List UInt8) :
    String.utf8EncodeChar c ++ s < String.utf8EncodeChar d ++ t := by
  have hlt : c.val.toNat < d.val.toNat := h
  have hvalid : d.val.toNat < 0xd800 ∨ (0xdfff < d.val.toNat ∧ d.val.toNat < 0x110000) := d.valid
  unfold String.utf8EncodeChar
  generalize c.val.toNat = m at hlt
  generalize d.val.toNat = n at hlt hvalid
  simp only
  have hm : m / 262144 % 8 = m / 262144 := Nat.mod_eq_of_lt (by omega)
  have hn : n / 262144 % 8 = n / 262144 := Nat.mod_eq_of_lt (by omega)
  have hdiv : ∀ k : Nat, k / 64 / 64 = k / 4096 ∧ k / 4096 / 64 = k / 262144 := by omega
  have hmdiv := hdiv m
  have hndiv := hdiv n
  -- The first bytes differ if the characters take different numbers of bytes; otherwise the bytes
  -- are the digits of the two numbers.
  repeat' split
  all_goals
    simp (disch := omega) only [List.cons_append, List.nil_append, List.cons_lt_cons_iff,
      UInt8.lt_iff_toNat_lt, ← UInt8.toNat_inj, toNat_ofNat_of_lt]
    omega

/-- The bytes of a lesser text come first. -/
theorem encode_lt_encode {s t : List Char} (h : s < t) : encode s < encode t := by
  induction s generalizing t with
  | nil =>
    cases t with
    | nil => exact absurd h (List.lt_irrefl _)
    | cons d t =>
      obtain ⟨b, bs, hb⟩ := List.exists_cons_of_ne_nil (String.utf8EncodeChar_ne_nil (c := d))
      rw [encode_nil, encode_cons, hb]
      exact List.nil_lt_cons ..
  | cons c s ih =>
    cases t with
    | nil => exact absurd h (List.not_lt_nil _)
    | cons d t =>
      rw [encode_cons, encode_cons]
      rcases List.cons_lt_cons_iff.1 h with hlt | ⟨rfl, hst⟩
      · exact encodeChar_append_lt hlt ..
      · exact List.append_left_lt (ih hst)

/-- Texts stand in the order of their bytes. -/
theorem encode_lt_encode_iff {s t : String} : encode s.toList < encode t.toList ↔ s < t := by
  refine ⟨fun h => ?_, encode_lt_encode⟩
  by_cases hts : t < s
  · exact absurd (List.lt_trans h (encode_lt_encode hts)) (List.lt_irrefl _)
  · by_cases hst : s < t
    · exact hst
    · have heq : s = t := String.le_antisymm (String.not_lt.1 hts) (String.not_lt.1 hst)
      exact absurd (heq ▸ h) (List.lt_irrefl _)

end HclQuery.Text.Utf8
