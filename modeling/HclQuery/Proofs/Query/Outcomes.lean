import HclQuery.Proofs.Query.Selection

/-!
# Outcomes of queries

Whatever the filter does, a query ends in one of a few ways: the source is refused, the filter
fails, or its output is formatted or passed through.  Being strict only turns output that is passed
through into an error, and output is formatted just when it decodes as a document with blocks.

Main definitions:

- {lit}`Query.Gives`: the output that a filter gives for a source.
- {lit}`Query.Unformatted`: output that is not formatted, and why.
- {lit}`Query.strictly`: what a strict query makes of a result.
- {lit}`Query.Outcome`: the ways in which a query ends.

Main results:

- Theorem {lit}`Query.convertBack_cases`: what becomes of output, case by case.
- Theorem {lit}`Query.outcome`: how a query ends, case by case.
- Theorem {lit}`Query.execute_outcomes`: the outcomes of a query, strict and not.
-/

namespace HclQuery.Query

/-! ## What becomes of output -/

/-- Output that is not formatted: it is no document, or a document without blocks. -/
inductive Unformatted (output : List UInt8) : FallbackReason → Prop where
  | notADocument {f : Json.Fault} (h : Document.decode output = .error f) :
    Unformatted output (.notADocument (f.message output))
  | emptyRendering (h : Document.decode output = .ok .empty) : Unformatted output .emptyRendering

/-- Output that is formatted: it is a document with blocks. -/
def Formatted (output text : List UInt8) : Prop :=
  ∃ d, Document.decode output = .ok d ∧ d.blocks ≠ [] ∧ fromDocument d = text

/-- What a strict query makes of the result of one that is not. -/
def strictly : QueryOutput → Except QueryError QueryOutput
  | .formatted text => .ok (.formatted text)
  | .raw _ reason => .error (.notConvertible reason)

/-- Output is either formatted, or not for one reason, however strict the query is. -/
theorem convertBack_cases (output : List UInt8) :
    (∃ reason, Unformatted output reason ∧
        ∀ strict, convertBack strict output = fallBack strict output reason) ∨
      ∃ text, Formatted output text ∧
        ∀ strict, convertBack strict output = .ok (.formatted text) := by
  cases hdecode : Document.decode output with
  | error f =>
    exact .inl ⟨_, .notADocument hdecode, convertBack_of_fault hdecode⟩
  | ok d =>
    by_cases hblocks : d.blocks = []
    · obtain ⟨bs⟩ := d
      obtain rfl : bs = [] := hblocks
      exact .inl ⟨_, .emptyRendering hdecode, convertBack_of_decode_nil hdecode rfl⟩
    · exact .inr ⟨_, ⟨d, hdecode, hblocks, rfl⟩, convertBack_of_decode hdecode hblocks⟩

/-- There is one reason for which output is not formatted. -/
theorem Unformatted.unique {output : List UInt8} {r s : FallbackReason}
    (hr : Unformatted output r) (hs : Unformatted output s) : r = s := by
  cases hr with
  | notADocument h =>
    cases hs with
    | notADocument h' => simp_all
    | emptyRendering h' => simp_all
  | emptyRendering h =>
    cases hs with
    | notADocument h' => simp_all
    | emptyRendering h' => rfl

/-- An output is formatted in one way. -/
theorem Formatted.unique {output t u : List UInt8} (ht : Formatted output t)
    (hu : Formatted output u) : t = u := by
  obtain ⟨d, hd, -, rfl⟩ := ht
  obtain ⟨d', hd', -, rfl⟩ := hu
  rw [hd] at hd'
  cases hd'
  rfl

/-- An output that is formatted is not left unformatted. -/
theorem Formatted.not_unformatted {output text : List UInt8} {reason : FallbackReason}
    (ht : Formatted output text) : ¬Unformatted output reason := by
  obtain ⟨d, hd, hblocks, -⟩ := ht
  intro hr
  cases hr with
  | notADocument h => simp_all
  | emptyRendering h =>
    rw [hd] at h
    cases h
    exact hblocks rfl

/-- Formatted text is the text of the decoded output, and it is not empty. -/
theorem formatted_iff (output text : List UInt8) :
    Formatted output text ↔
      text ≠ [] ∧ ∃ d, Document.decode output = .ok d ∧ fromDocument d = text := by
  constructor
  · rintro ⟨d, hd, hblocks, rfl⟩
    refine ⟨?_, d, hd, rfl⟩
    rw [Ne, fromDocument_eq_nil_iff]
    exact hblocks
  · rintro ⟨hne, d, hd, rfl⟩
    refine ⟨d, hd, ?_, rfl⟩
    rw [Ne, fromDocument_eq_nil_iff] at hne
    exact hne

/-- Nothing is rendered of an output that is a document without blocks, and of no other. -/
theorem unformatted_emptyRendering_iff (output : List UInt8) :
    Unformatted output .emptyRendering ↔
      ∃ d, Document.decode output = .ok d ∧ d.blocks = [] := by
  constructor
  · intro h
    cases h with
    | emptyRendering h => exact ⟨.empty, h, rfl⟩
  · rintro ⟨⟨bs⟩, hd, rfl⟩
    exact .emptyRendering hd

/-! ## How a query ends -/

/-- The output that a filter gives for a source: it gets the expression and the JSON of the
document. -/
def Gives (filter : Filter) (expression : String) (source output : List UInt8) : Prop :=
  ∃ d, toDocument source = .ok d ∧ filter expression d.encode = .ok output

variable {filter : Filter} {expression : String} {source : List UInt8}

/-- A filter gives one output for a source. -/
theorem Gives.unique {output output' : List UInt8} (h : Gives filter expression source output)
    (h' : Gives filter expression source output') : output = output' := by
  obtain ⟨d, hd, hout⟩ := h
  obtain ⟨d', hd', hout'⟩ := h'
  rw [hd] at hd'
  cases hd'
  rw [hout] at hout'
  exact Except.ok.inj hout'

/-- The outcome of a query is what becomes of the output of the filter. -/
theorem Gives.execute_eq {output : List UInt8} (h : Gives filter expression source output)
    (strict : Bool) : execute filter strict expression source = convertBack strict output := by
  obtain ⟨d, hd, hout⟩ := h
  simp only [execute, hd, hout]

/-- The ways in which a query ends, the same for a strict query and one that is not, but for what
becomes of output that is not formatted. -/
inductive Outcome (filter : Filter) (expression : String) (source : List UInt8) : Prop where
  /-- The source is refused or the filter fails. -/
  | failed {e : QueryError} (hne : ∀ reason, e ≠ .notConvertible reason)
    (hgives : ∀ output, ¬Gives filter expression source output)
    (hexecute : ∀ strict, execute filter strict expression source = .error e)
  /-- The output of the filter is not formatted. -/
  | fellBack {output : List UInt8} {reason : FallbackReason}
    (hgives : Gives filter expression source output) (houtput : Unformatted output reason)
    (hexecute : ∀ strict,
      execute filter strict expression source = fallBack strict output reason)
  /-- The output of the filter is formatted. -/
  | formatted {output text : List UInt8} (hgives : Gives filter expression source output)
    (houtput : Formatted output text)
    (hexecute : ∀ strict, execute filter strict expression source = .ok (.formatted text))

/-- Every query ends in one of these ways. -/
theorem outcome (filter : Filter) (expression : String) (source : List UInt8) :
    Outcome filter expression source := by
  cases hsource : toDocument source with
  | error e =>
    apply Outcome.failed (e := .parse e)
    · simp
    · rintro output ⟨d, hd, -⟩
      simp [hsource] at hd
    · simp [execute, hsource]
  | ok d =>
    cases hfilter : filter expression d.encode with
    | error e =>
      apply Outcome.failed (e := .filter e)
      · simp
      · rintro output ⟨d', hd', hout⟩
        rw [hsource] at hd'
        cases hd'
        simp [hfilter] at hout
      · simp [execute, hsource, hfilter]
    | ok output =>
      have hgives : Gives filter expression source output := ⟨d, hsource, hfilter⟩
      obtain ⟨reason, hreason, hconvert⟩ | ⟨text, htext, hconvert⟩ := convertBack_cases output
      · apply Outcome.fellBack hgives hreason
        intro strict
        rw [hgives.execute_eq, hconvert]
      · apply Outcome.formatted hgives htext
        intro strict
        rw [hgives.execute_eq, hconvert]

/-- A strict query ends as one that is not, but for output that is passed through. -/
theorem execute_strict (filter : Filter) (expression : String) (source : List UInt8) :
    execute filter true expression source =
      (execute filter false expression source).bind strictly := by
  cases outcome filter expression source with
  | failed hne hgives hexecute => simp [hexecute, Except.bind]
  | fellBack hgives houtput hexecute => simp [hexecute, fallBack, Except.bind, strictly]
  | formatted hgives houtput hexecute => simp [hexecute, Except.bind, strictly]

/-- What is passed through is the output of the filter, which is not formatted. -/
theorem execute_eq_raw_iff (output : List UInt8) (reason : FallbackReason) :
    execute filter false expression source = .ok (.raw output reason) ↔
      Gives filter expression source output ∧ Unformatted output reason := by
  cases outcome filter expression source with
  | failed hne hgives hexecute => simp [hexecute, hgives output]
  | @fellBack output' reason' hgives houtput hexecute =>
    rw [hexecute, fallBack, if_neg Bool.false_ne_true]
    constructor
    · intro h
      cases h
      exact ⟨hgives, houtput⟩
    · rintro ⟨hgives', houtput'⟩
      cases hgives.unique hgives'
      cases houtput.unique houtput'
      rfl
  | @formatted output' text hgives houtput hexecute =>
    rw [hexecute]
    constructor
    · intro h
      cases h
    · rintro ⟨hgives', houtput'⟩
      cases hgives.unique hgives'
      exact absurd houtput' houtput.not_unformatted

/-- What is formatted is the output of the filter. -/
theorem execute_eq_formatted_iff (strict : Bool) (text : List UInt8) :
    execute filter strict expression source = .ok (.formatted text) ↔
      ∃ output, Gives filter expression source output ∧ Formatted output text := by
  cases outcome filter expression source with
  | failed hne hgives hexecute => simp [hexecute, hgives]
  | @fellBack output reason hgives houtput hexecute =>
    rw [hexecute]
    constructor
    · intro h
      exact absurd h (fallBack_ne_formatted strict output reason text)
    · rintro ⟨output', hgives', houtput'⟩
      cases hgives.unique hgives'
      exact absurd houtput houtput'.not_unformatted
  | @formatted output text' hgives houtput hexecute =>
    rw [hexecute]
    constructor
    · intro h
      cases h
      exact ⟨output, hgives, houtput⟩
    · rintro ⟨output', hgives', houtput'⟩
      cases hgives.unique hgives'
      rw [houtput.unique houtput']

/-- A strict query refuses just what is passed through otherwise. -/
theorem execute_eq_notConvertible_iff (reason : FallbackReason) :
    execute filter true expression source = .error (.notConvertible reason) ↔
      ∃ output, execute filter false expression source = .ok (.raw output reason) := by
  cases outcome filter expression source with
  | failed hne hgives hexecute => simp [hexecute, hne reason]
  | fellBack hgives houtput hexecute => simp [hexecute, fallBack]
  | formatted hgives houtput hexecute => simp [hexecute]

/-- Strict or not, a query has the same result, but that the strict one fails with a reason just
when the other one passes output through for that reason.  What is passed through is the output of
the filter; what is formatted is the text of the document that the output decodes as, and is not
empty; and the reason is an empty rendering just when that document has no blocks. -/
theorem execute_outcomes (filter : Filter) (expression : String) (source : List UInt8) :
    execute filter true expression source =
        (execute filter false expression source).bind strictly ∧
      (∀ reason, execute filter true expression source = .error (.notConvertible reason) ↔
        ∃ output, execute filter false expression source = .ok (.raw output reason)) ∧
      (∀ output reason, execute filter false expression source = .ok (.raw output reason) ↔
        Gives filter expression source output ∧ Unformatted output reason) ∧
      (∀ strict text, execute filter strict expression source = .ok (.formatted text) ↔
        text ≠ [] ∧ ∃ output d, Gives filter expression source output ∧
          Document.decode output = .ok d ∧ fromDocument d = text) ∧
      ∀ output, execute filter false expression source = .ok (.raw output .emptyRendering) ↔
        Gives filter expression source output ∧
          ∃ d, Document.decode output = .ok d ∧ d.blocks = [] := by
  refine ⟨execute_strict filter expression source, execute_eq_notConvertible_iff,
    execute_eq_raw_iff, fun strict text => ?_, fun output => ?_⟩
  · rw [execute_eq_formatted_iff]
    constructor
    · rintro ⟨output, hgives, houtput⟩
      obtain ⟨hne, d, hd, htext⟩ := (formatted_iff output text).1 houtput
      exact ⟨hne, output, d, hgives, hd, htext⟩
    · rintro ⟨hne, output, d, hgives, hd, htext⟩
      exact ⟨output, hgives, (formatted_iff output text).2 ⟨hne, d, hd, htext⟩⟩
  · rw [execute_eq_raw_iff, unformatted_emptyRendering_iff]

end HclQuery.Query
