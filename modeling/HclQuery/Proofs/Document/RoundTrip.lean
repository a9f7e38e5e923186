import HclQuery.Proofs.Document.Reading
import HclQuery.Proofs.Grammar.Parsed
import HclQuery.Proofs.Grammar.Quoted

/-!
# Documents and their canonical bytes

A document that was read from bytes is well formed.  So the canonical bytes of a document are read
as the document with its values as they are written just when these are expressions, and then they
are the canonical bytes of what they are read as.  Re-indented values are expressions unless blanks
beyond ASCII stand at the ends of their lines: the layout ends a heredoc at a line that is its
marker between any blanks, and the grammar only between blanks of ASCII.

Main definitions:

- {lit}`oneValue`: a document with one value.
- {lit}`earlyMarker`: a heredoc that the layout takes to end too early.

Main results:

- Theorem {lit}`toDocument_wellFormed`: a document that was read is well formed.
- Theorem {lit}`Document.roundTrip`: when the canonical bytes of a document are read back.
- Theorem {lit}`canonical_fixedPoint`: when canonical bytes are their own canonical bytes.
- Theorem {lit}`quoted_reindent_value`: what becomes of the quoted strings of a value.
-/

namespace HclQuery

open Text Layout HclQuery.Tree

open Grammar (IsName IsExpression ItemWellFormed AsciiLineEnds Mark Alike quoted)

/-! ## Documents that were read -/

/-- The names and values read from a well-formed body are names and expressions. -/
theorem Attributes.ofBody_wellFormed {b : Body} (hb : ∀ i ∈ b, ItemWellFormed i) :
    (∀ n ∈ (Attributes.ofBody b).names, IsName n.toList) ∧
      ∀ v ∈ (Attributes.ofBody b).values, IsExpression v.toList := by
  have hentry : ∀ e ∈ (Attributes.ofBody b).entries,
      IsName e.1.toList ∧ IsExpression e.2.toList := by
    intro e he
    rcases List.mem_map.1 (Attributes.mem_of_mem_ofList he) with ⟨a, ha, rfl⟩
    have hwell := hb _ (Body.mem_attributes_iff.1 ha)
    cases hwell with
    | attr hname hvalue =>
      rw [String.toList_ofList, hvalue.trimmed.begins.trimStart_eq]
      exact ⟨hname, hvalue⟩
  constructor
  · intro n hn
    rcases List.mem_map.1 hn with ⟨e, he, rfl⟩
    exact (hentry e he).1
  · intro v hv
    rcases List.mem_map.1 hv with ⟨e, he, rfl⟩
    exact (hentry e he).2

mutual

/-- The names and values of a block that is read from a well-formed item are names and expressions.
-/
theorem Block.ofItem_wellFormed : (i : Item) → ItemWellFormed i → ∀ b, Block.ofItem i = some b →
    (∀ n ∈ b.names, IsName n.toList) ∧ ∀ v ∈ b.values, IsExpression v.toList
  | .attr a => by
    intro _ b hb
    cases hb
  | .blank => by
    intro _ b hb
    cases hb
  | .block kind labels body => by
    intro hwell b hb
    cases hwell with
    | block hkind hbody =>
      rcases Attributes.ofBody_wellFormed hbody with ⟨hnames, hvalues⟩
      rcases Block.ofItems_wellFormed body hbody with ⟨hinner, hinner'⟩
      cases hb
      rw [Block.names, Block.values]
      constructor
      · intro n hn
        rcases List.mem_cons.1 hn with rfl | hn
        · exact hkind
        · rcases List.mem_append.1 hn with hn | hn
          · exact hnames n hn
          · exact hinner n hn
      · intro v hv
        rcases List.mem_append.1 hv with hv | hv
        · exact hvalues v hv
        · exact hinner' v hv

/-- The names and values of all blocks read from well-formed items are names and expressions. -/
theorem Block.ofItems_wellFormed : (is : List Item) → (∀ i ∈ is, ItemWellFormed i) →
    (∀ n ∈ Block.namesList (Block.ofItems is), IsName n.toList) ∧
      ∀ v ∈ Block.valuesList (Block.ofItems is), IsExpression v.toList
  | [] => by
    intro _
    exact ⟨List.forall_mem_nil _, List.forall_mem_nil _⟩
  | i :: is => by
    intro hwell
    have htail := Block.ofItems_wellFormed is fun j hj => hwell j (List.mem_cons_of_mem _ hj)
    rw [Block.ofItems]
    cases hb : Block.ofItem i with
    | none => exact htail
    | some b =>
      have hhead := Block.ofItem_wellFormed i (hwell i (List.mem_cons_self ..)) b hb
      rw [Block.namesList, Block.valuesList]
      constructor
      · intro n hn
        rcases List.mem_append.1 hn with hn | hn
        · exact hhead.1 n hn
        · exact htail.1 n hn
      · intro v hv
        rcases List.mem_append.1 hv with hv | hv
        · exact hhead.2 v hv
        · exact htail.2 v hv

end

/-- A document that was read is well formed. -/
theorem toDocument_wellFormed {source : List UInt8} {d : Document}
    (h : toDocument source = .ok d) : d.WellFormed := by
  rcases toDocument_eq_ok.1 h with ⟨t, b, -, hparse, rfl⟩
  rcases Block.ofItems_wellFormed b (Grammar.parse_wellFormed hparse) with ⟨hnames, hvalues⟩
  exact ⟨hnames, hvalues⟩

/-! ## Documents of one value -/

/-- A document with one value. -/
def oneValue (v : List Char) : Document :=
  ⟨[.mk "a" [] (Attributes.empty.insert "x" (String.ofList v)) []]⟩

/-- Re-indenting the document with one value re-indents that value. -/
theorem reindented_oneValue (v : List Char) :
    (oneValue v).reindented = oneValue (reindent 1 v) := by
  have hvalue : (oneValue v).reindented =
      oneValue (reindent 1 (String.ofList v).toList) := rfl
  rw [hvalue, String.toList_ofList]

/-- The document with one value is well-formed when the value is an expression. -/
theorem wellFormed_oneValue {v : List Char} (hv : IsExpression v) : (oneValue v).WellFormed := by
  have hnames : (oneValue v).names = ["a", "x"] := rfl
  have ha : Grammar.identifier? ['a'] = some (['a'], []) := by decide
  have hx : Grammar.identifier? ['x'] = some (['x'], []) := by decide
  constructor
  · intro n hn
    rw [hnames] at hn
    rcases List.mem_cons.1 hn with rfl | hn
    · exact ha
    · rw [List.mem_singleton.1 hn]
      exact hx
  · intro w hw
    rw [List.mem_singleton.1 hw, String.toList_ofList]
    exact hv

/-- A list on two lines. -/
def twoLines : List Char :=
  ['[', '1', ',', '\n', '2', ']']

/-- The value of two lines ends both of them in ASCII. -/
theorem asciiLineEnds_twoLines : ∀ v ∈ (oneValue twoLines).values, AsciiLineEnds v.toList := by
  intro v hv
  rw [List.mem_singleton.1 hv, String.toList_ofList]
  exact Grammar.asciiLineEnds_of_ascii (by simp [twoLines])

/-- A heredoc in which two lines are its marker after a blank beyond ASCII. -/
def earlyMarker : List Char :=
  ['<', '<', 'E', 'O', 'F', '\n', '\u00a0', 'E', 'O', 'F', '\n', '\u00a0', 'E', 'O', 'F', '\n',
    'E', 'O', 'F']

/-- The layout takes the heredoc to end at the first of them, so it moves the second one, and the
grammar takes it to end there. -/
theorem unreadable_earlyMarker (d : Document) :
    toDocument (fromDocument (oneValue earlyMarker)) ≠ .ok d := by
  have hnone : (toDocument (fromDocument (oneValue earlyMarker))).toOption = none := by
    decide +kernel
  intro hread
  rw [hread] at hnone
  cases hnone

/-! ## Reading canonical bytes -/

/-- Canonical bytes are read back just when the values as they are written are expressions. -/
theorem toDocument_fromDocument_iff {d : Document} (hnames : ∀ n ∈ d.names, IsName n.toList) :
    toDocument (fromDocument d) = .ok d.reindented ↔
      ∀ v ∈ d.reindented.values, IsExpression v.toList := by
  constructor
  · intro h
    exact (toDocument_wellFormed h).values
  · intro hvalues
    exact toDocument_fromDocument hnames hvalues

/-- The canonical bytes of a document are read as the document with its values as they are written
just when these are expressions, which they are if only blanks of ASCII stand at the ends of their
lines; a document whose values stand on one line is read back as it is. -/
theorem Document.roundTrip {d : Document} (hd : d.WellFormed) :
    (toDocument (fromDocument d) = .ok d.reindented ↔
        ∀ v ∈ d.reindented.values, IsExpression v.toList) ∧
      ((∀ v ∈ d.values, AsciiLineEnds v.toList) →
        toDocument (fromDocument d) = .ok d.reindented) ∧
      ((∀ v ∈ d.values, '\n' ∉ v.toList) → toDocument (fromDocument d) = .ok d) := by
  have hiff := toDocument_fromDocument_iff hd.names
  refine ⟨hiff, ?_, ?_⟩
  · intro hascii
    exact hiff.2 (Document.isExpression_reindented hd hascii)
  · intro hsingle
    have hsame := Document.reindented_of_single hd hsingle
    have hvalues := hd.values
    rw [← hsame] at hvalues
    rw [hiff.2 hvalues, hsame]

/-- The second line of a list is moved. -/
theorem roundTrip_twoLines :
    (oneValue twoLines).WellFormed ∧
      toDocument (fromDocument (oneValue twoLines)) =
        .ok (oneValue ['[', '1', ',', '\n', ' ', ' ', ' ', ' ', '2', ']']) := by
  have hd : (oneValue twoLines).WellFormed :=
    wellFormed_oneValue
      ⟨Grammar.skipTrivia_cons rfl (by decide) (by decide) _, ok_of_toOption (by decide +kernel)⟩
  have hread := (Document.roundTrip hd).2.1 asciiLineEnds_twoLines
  rw [reindented_oneValue] at hread
  exact ⟨hd, hread⟩

/-- A heredoc that ends too early is not read back. -/
theorem not_roundTrip_earlyMarker :
    (oneValue earlyMarker).WellFormed ∧
      ∀ d, toDocument (fromDocument (oneValue earlyMarker)) ≠ .ok d := by
  have hd : (oneValue earlyMarker).WellFormed :=
    wellFormed_oneValue
      ⟨Grammar.skipTrivia_cons rfl (by decide) (by decide) _, ok_of_toOption (by decide +kernel)⟩
  exact ⟨hd, unreadable_earlyMarker⟩

/-- Canonical bytes are read as the document with its values as they are written, and are their own
canonical bytes, just when these values are expressions, which they are if only blanks of ASCII
stand at the ends of the lines of the values. -/
theorem canonical_fixedPoint {source : List UInt8} {d : Document}
    (hsource : toDocument source = .ok d) :
    (toDocument (fromDocument d) = .ok d.reindented ∧
        (toDocument (fromDocument d)).map fromDocument = .ok (fromDocument d) ↔
      ∀ v ∈ d.reindented.values, IsExpression v.toList) ∧
      ((∀ v ∈ d.values, AsciiLineEnds v.toList) →
        ∀ v ∈ d.reindented.values, IsExpression v.toList) := by
  have hd := toDocument_wellFormed hsource
  have hiff := toDocument_fromDocument_iff hd.names
  refine ⟨⟨fun h => hiff.1 h.1, ?_⟩, Document.isExpression_reindented hd⟩
  intro hvalues
  have hread := hiff.2 hvalues
  refine ⟨hread, ?_⟩
  rw [hread]
  exact congrArg Except.ok (fromDocument_reindented d)

/-- A configuration with one value. -/
def oneValueSource (v : List Char) : List UInt8 :=
  Utf8.encode (['a', ' ', '{', '\n', 'x', ' ', '=', ' '] ++ v ++ ['\n', '}', '\n'])

/-- A list of two lines is written, and written again. -/
theorem canonical_fixedPoint_twoLines :
    toDocument (oneValueSource twoLines) = .ok (oneValue twoLines) ∧
      toDocument (fromDocument (oneValue twoLines)) =
        .ok (oneValue ['[', '1', ',', '\n', ' ', ' ', ' ', ' ', '2', ']']) ∧
      (toDocument (fromDocument (oneValue twoLines))).map fromDocument =
        .ok (fromDocument (oneValue twoLines)) := by
  have hsource : toDocument (oneValueSource twoLines) = .ok (oneValue twoLines) :=
    ok_of_toOption (by decide +kernel)
  rcases canonical_fixedPoint hsource with ⟨hiff, hexpression⟩
  rcases hiff.2 (hexpression asciiLineEnds_twoLines) with ⟨hread, hagain⟩
  rw [reindented_oneValue] at hread
  exact ⟨hsource, hread, hagain⟩

/-- The canonical bytes of the heredoc are not read at all. -/
theorem not_canonical_fixedPoint_earlyMarker :
    toDocument (oneValueSource earlyMarker) = .ok (oneValue earlyMarker) ∧
      ∀ d, toDocument (fromDocument (oneValue earlyMarker)) ≠ .ok d := by
  have hsource : toDocument (oneValueSource earlyMarker) = .ok (oneValue earlyMarker) :=
    ok_of_toOption (by decide +kernel)
  exact ⟨hsource, unreadable_earlyMarker⟩

/-! ## Quoted strings of values -/

/-- A value of a configuration is written as an expression with the same quoted strings, but for the
blanks around the newlines in them, if only blanks of ASCII stand at the ends of its lines.  So
quoted strings without newlines are written as they are. -/
theorem quoted_reindent_value {source : List UInt8} {d : Document}
    (hsource : toDocument source = .ok d) {value : String} (hvalue : value ∈ d.values)
    (hascii : AsciiLineEnds value.toList) (depth : Nat) :
    IsExpression (reindent depth value.toList) ∧
      Alike (quoted value.toList) (quoted (reindent depth value.toList)) ∧
      (Mark.char '\n' ∉ quoted value.toList →
        quoted (reindent depth value.toList) = quoted value.toList) := by
  have hexpression := (toDocument_wellFormed hsource).values value hvalue
  have halike := hexpression.quoted_reindent hascii depth
  exact ⟨hexpression.reindent hascii depth, halike, halike.eq_of_not_mem⟩

/-- A list of strings on two lines. -/
def twoStrings : List Char :=
  ['[', '"', 'p', '"', ',', '\n', '"', 'q', '"', ']']

/-- The second string is moved and kept. -/
theorem quoted_reindent_twoStrings :
    toDocument (oneValueSource twoStrings) = .ok (oneValue twoStrings) ∧
      quoted (reindent 1 twoStrings) =
        [.opened, .char 'p', .closed, .opened, .char 'q', .closed] := by
  have hsource : toDocument (oneValueSource twoStrings) = .ok (oneValue twoStrings) :=
    ok_of_toOption (by decide +kernel)
  have hascii : AsciiLineEnds (String.ofList twoStrings).toList :=
    Grammar.asciiLineEnds_of_ascii (by simp [twoStrings])
  have hquoted : quoted (String.ofList twoStrings).toList =
      [.opened, .char 'p', .closed, .opened, .char 'q', .closed] := by decide +kernel
  have hkept := (quoted_reindent_value hsource (List.mem_singleton.2 rfl) hascii 1).2.2
  rw [hquoted, String.toList_ofList] at hkept
  exact ⟨hsource, hkept (by decide)⟩

/-- A string over two lines. -/
def brokenString : List Char :=
  ['"', 'p', '\n', ' ', ' ', ' ', 'q', '"']

/-- The blanks in front of its second line are not kept. -/
theorem quoted_reindent_brokenString :
    toDocument (oneValueSource brokenString) = .ok (oneValue brokenString) ∧
      quoted (reindent 1 brokenString) ≠ quoted brokenString :=
  ⟨ok_of_toOption (by decide +kernel), by decide +kernel⟩

end HclQuery
