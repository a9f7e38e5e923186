import HclQuery.Proofs.Document.Codec
import HclQuery.Proofs.Document.RoundTrip

/-!
# The line that opens a block

The literal of a label holds no control character, so labels of any kind stay on the line of their
block.  The type of a block is written as it is: a header takes one line just if no newline is in
the type, and there is none in a type that was read.

Main definitions:

- {lit}`Layout.headerLine`: the line that opens a block, without its newline.

Main results:

- Theorem {lit}`Label.quote_injective`: different labels have different literals.
- Theorem {lit}`Label.any_isControl_quote`: a literal holds no control character.
- Theorem {lit}`Layout.header_oneLine_iff`: a header takes one line just if its type does.
- Theorem {lit}`quoted_header`: labels are read back and do not break the line of their block.
-/

namespace HclQuery

open Text Layout

/-! ## Literals -/

namespace Label

/-- Different labels have different literals. -/
theorem quote_injective : Function.Injective quote :=
  Function.LeftInverse.injective unquote_quote

theorem any_isControl_fourDigits : ∀ n < 160, (fourDigits n).any isControl = false := by
  decide +kernel

/-- A template mark is no control character. -/
theorem isControl_of_isMarker {c : Char} (h : isMarker c = true) : isControl c = false := by
  rw [isMarker, Bool.or_eq_true, beq_iff_eq, beq_iff_eq] at h
  rcases h with rfl | rfl <;> rfl

/-- No escape of a character holds a control character. -/
theorem Escaped.any_isControl {c : Char} {next : Option Char} {t : List Char}
    (h : Escaped c next t) : t.any isControl = false := by
  cases h with
  | letter hd hc => rcases hd with rfl | rfl | rfl | rfl | rfl <;> rfl
  | doubled hmarker hnext => simp [isControl_of_isMarker hmarker]
  | code hcontrol =>
    have hdigits := any_isControl_fourDigits c.toNat (isControl_lt hcontrol)
    rw [List.any_cons, List.any_cons, hdigits]
    rfl
  | plain hquote hslash hcontrol hmarker => simp [hcontrol]

/-- An escaped text has no control characters. -/
theorem any_isControl_escape (t : List Char) : (escape t).any isControl = false := by
  induction t with
  | nil => rfl
  | cons c rest ih =>
    rw [escape, List.any_append, (escaped_escapeChar c rest.head?).any_isControl, ih, Bool.or_self]

/-- A literal holds no control character. -/
theorem any_isControl_quote (l : String) : (quote l).toList.any isControl = false := by
  rw [toList_quote, List.any_cons, List.any_append, any_isControl_escape]
  rfl

/-- A literal has no newline in it. -/
theorem newline_not_mem_quote (l : String) : '\n' ∉ (quote l).toList := by
  intro h
  have hany : (quote l).toList.any isControl = true := List.any_eq_true.2 ⟨_, h, rfl⟩
  rw [any_isControl_quote] at hany
  cases hany

end Label

/-! ## Headers -/

namespace Layout

/-- The line that opens a block, without its newline. -/
def headerLine (depth : Nat) (kind : String) (labels : List String) : List Char :=
  indent depth ++ kind.toList ++ labels.flatMap (fun l => ' ' :: (Label.quote l).toList) ++
    [' ', '{']

/-- The header of a block is a line and the newline after it. -/
theorem header_eq_headerLine (depth : Nat) (kind : String) (labels : List String) :
    header depth kind labels = headerLine depth kind labels ++ ['\n'] := by
  simp [header, headerLine]

/-- A header is broken just where the type of its block is. -/
theorem mem_newline_headerLine (depth : Nat) (kind : String) (labels : List String) :
    '\n' ∈ headerLine depth kind labels ↔ '\n' ∈ kind.toList := by
  simp [headerLine, indent, Label.newline_not_mem_quote]

/-- A header takes one line just if the type of its block does, whatever its labels are. -/
theorem header_oneLine_iff (depth : Nat) (kind : String) (labels : List String) :
    (∃ line, header depth kind labels = line ++ ['\n'] ∧ '\n' ∉ line) ↔ '\n' ∉ kind.toList := by
  rw [← mem_newline_headerLine depth kind labels, header_eq_headerLine]
  simp

end Layout

/-- There is no newline in an identifier. -/
theorem Grammar.IsName.newline_not_mem {n : List Char} (h : IsName n) : '\n' ∉ n := by
  obtain ⟨a, -, hvisible, ha⟩ := identifier?_takes h
  rw [List.append_nil] at ha
  rintro hmem
  have hblank := hvisible '\n' (ha ▸ hmem)
  cases hblank

/-- A label is read back from its literal, so different labels have different literals; a literal
holds no control character, so the header of a block takes one line whatever its labels are, just
if its type does.  The types that are read from a configuration do. -/
theorem quoted_header :
    (∀ l, Label.unquote (Label.quote l) = l) ∧
      Function.Injective Label.quote ∧
      (∀ l, (Label.quote l).toList.any isControl = false) ∧
      (∀ depth kind labels,
        (∃ line, header depth kind labels = line ++ ['\n'] ∧ '\n' ∉ line) ↔ '\n' ∉ kind.toList) ∧
      ∀ source d, toDocument source = .ok d → ∀ n ∈ d.names, '\n' ∉ n.toList := by
  refine ⟨Label.unquote_quote, Label.quote_injective, Label.any_isControl_quote,
    header_oneLine_iff, ?_⟩
  intro source d hd n hn
  exact ((toDocument_wellFormed hd).names n hn).newline_not_mem

/-- A block whose type takes two lines. -/
def brokenKind : Block :=
  .mk "a\nb" ["x"] .empty []

/-- The type is decoded and written as it is, so the header takes two lines. -/
theorem header_brokenKind :
    Document.decode (Document.encode ⟨[brokenKind]⟩) = .ok ⟨[brokenKind]⟩ ∧
      fromDocument ⟨[brokenKind]⟩ = Utf8.encode (header 0 "a\nb" ["x"] ++ footer 0) ∧
      ¬∃ line, header 0 "a\nb" ["x"] = line ++ ['\n'] ∧ '\n' ∉ line := by
  refine ⟨Document.decode_text .compact _ (by decide), by decide +kernel, ?_⟩
  rw [header_oneLine_iff]
  decide

end HclQuery
