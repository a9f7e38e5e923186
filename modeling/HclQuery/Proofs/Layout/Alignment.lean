import HclQuery.Layout.Render
import HclQuery.Proofs.Layout.Reindent
import Mathlib.Data.List.Basic

/-!
# Attributes in runs

The attributes of a block are written one after the other, each with its name padded to the width of
its run.  The runs and the widths do not change when the values are re-indented first.

Main definitions:

- {lit}`reindented`: an attribute with its value re-indented.

Main results:

- Theorem {lit}`assemble_attributes`: the text of attributes, attribute by attribute.
- Theorem {lit}`assemble_reindented`: the text of attributes whose values were re-indented.
-/

namespace HclQuery.Layout

open Text HclQuery.Tree

/-! ## One after the other -/

/-- The attributes of a run, each with the width that its name is padded to. -/
def Run.padded : Run → List (Nat × Attribute)
  | .aligned as => as.map fun a => (nameWidth as, a)
  | .alone a => [(0, a)]
  | .text _ => []

/-- The attributes of a run, in order. -/
def Run.attributes : Run → List Attribute
  | .aligned as => as
  | .alone a => [a]
  | .text _ => []

/-- Padding the attributes of a run loses none of them. -/
theorem Run.padded_attributes (r : Run) : r.padded.map (·.2) = r.attributes := by
  cases r with
  | aligned as =>
    rw [Run.padded, List.map_map]
    exact List.map_id as
  | alone a => rfl
  | text t => rfl

/-- An attribute stands in front of those of the runs that it is put on. -/
theorem Run.cons_attr (a : Attribute) (rs : List Run) :
    (Run.cons (.attr a) rs).flatMap Run.attributes = a :: rs.flatMap Run.attributes := by
  by_cases hmulti : isMultiline a.raw
  · simp [Run.cons, hmulti, Run.attributes]
  · cases rs with
    | nil => simp [Run.cons, hmulti, Run.attributes]
    | cons r rs => cases r <;> simp [Run.cons, hmulti, Run.attributes]

/-- Runs of attributes alone, none of which is a text. -/
def NoText (rs : List Run) : Prop :=
  ∀ t, .text t ∉ rs

/-- Attributes alone stay so with one more in front. -/
theorem noText_cons {a : Attribute} {rs : List Run} (h : NoText rs) :
    NoText (Run.cons (.attr a) rs) := by
  intro t
  have ht := h t
  by_cases hmulti : isMultiline a.raw
  · simp [Run.cons, hmulti, ht]
  · cases rs with
    | nil => simp [Run.cons, hmulti]
    | cons r rs => cases r <;> simp_all [Run.cons]

theorem runs_cons (e : Entry) (es : List Entry) : runs (e :: es) = Run.cons e (runs es) := rfl

/-- Attributes make runs of attributes alone, in their order. -/
theorem runs_attributes (as : List Attribute) :
    NoText (runs (as.map Entry.attr)) ∧
      (runs (as.map Entry.attr)).flatMap Run.attributes = as := by
  induction as with
  | nil => exact ⟨nofun, rfl⟩
  | cons a as ih =>
    rcases ih with ⟨htext, has⟩
    refine ⟨noText_cons htext, ?_⟩
    rw [List.map_cons, runs_cons, Run.cons_attr, has]

/-- A run of attributes is their lines, each padded like the others of its run. -/
theorem Run.render_padded (depth : Nat) {r : Run} (h : ∀ t, .text t ≠ r) :
    r.render depth = r.padded.flatMap fun p => renderAttribute depth p.1 p.2 := by
  cases r with
  | aligned as => simp [Run.render, Run.padded, List.flatMap_map]
  | alone a => simp [Run.render, Run.padded]
  | text t => exact absurd rfl (h t)

/-- The text of attributes, attribute by attribute. -/
theorem assemble_attributes (depth : Nat) (as : List Attribute) :
    ∃ ps : List (Nat × Attribute), ps.map (·.2) = as ∧
      assemble depth (as.map Entry.attr) =
        ps.flatMap fun p => renderAttribute depth p.1 p.2 := by
  rcases runs_attributes as with ⟨htext, has⟩
  refine ⟨(runs (as.map Entry.attr)).flatMap Run.padded, ?_, ?_⟩
  · rw [List.map_flatMap]
    simp only [Run.padded_attributes]
    exact has
  · rw [assemble, List.flatMap_assoc]
    refine List.flatMap_congr fun r hr => Run.render_padded depth ?_
    rintro t rfl
    exact htext t hr

/-! ## Values that were re-indented -/

/-- An attribute with its value re-indented, after one space. -/
def reindented (depth : Nat) (a : Attribute) : Attribute :=
  ⟨a.name, String.ofList (' ' :: reindent depth a.raw.toList)⟩

/-- Re-indenting a value again is re-indenting it once. -/
theorem reindent_reindented (depth : Nat) (a : Attribute) :
    reindent depth (reindented depth a).raw.toList = reindent depth a.raw.toList := by
  rw [reindented, String.toList_ofList, reindent_space, reindent_reindent]

/-- A value takes several lines if a newline is left when it is trimmed. -/
theorem isMultiline_iff {raw : String} : isMultiline raw = true ↔ '\n' ∈ trim raw.toList := by
  rw [isMultiline, List.contains_iff_mem]

/-- Re-indenting a value makes it neither one line nor several. -/
theorem isMultiline_reindented (depth : Nat) (a : Attribute) :
    isMultiline (reindented depth a).raw = isMultiline a.raw := by
  have hmem := mem_newline_reindent depth (reindented depth a).raw.toList
  rw [reindent_reindented, mem_newline_reindent] at hmem
  rw [Bool.eq_iff_iff, isMultiline_iff, isMultiline_iff]
  exact hmem.symm

/-- A run with the values of its attributes re-indented. -/
def Run.reindented (depth : Nat) : Run → Run
  | .aligned as => .aligned (as.map (Layout.reindented depth))
  | .alone a => .alone (Layout.reindented depth a)
  | .text t => .text t

/-- Attributes are put into the same runs when they are re-indented. -/
theorem Run.cons_reindented (depth : Nat) (a : Attribute) (rs : List Run) :
    Run.cons (.attr (Layout.reindented depth a)) (rs.map (Run.reindented depth)) =
      (Run.cons (.attr a) rs).map (Run.reindented depth) := by
  have hsame := isMultiline_reindented depth a
  by_cases hmulti : isMultiline a.raw
  · simp [Run.cons, hsame, hmulti, Run.reindented]
  · cases rs with
    | nil => simp [Run.cons, hsame, hmulti, Run.reindented]
    | cons r rs => cases r <;> simp [Run.cons, hsame, hmulti, Run.reindented]

/-- Re-indented attributes make the runs of the attributes, re-indented. -/
theorem runs_reindented (depth : Nat) (as : List Attribute) :
    runs ((as.map (reindented depth)).map Entry.attr) =
      (runs (as.map Entry.attr)).map (Run.reindented depth) := by
  induction as with
  | nil => rfl
  | cons a as ih =>
    rw [List.map_cons, List.map_cons, runs_cons, ih, Run.cons_reindented, List.map_cons,
      runs_cons]

/-- The line of a re-indented attribute is that of the attribute. -/
theorem renderAttribute_reindented (depth width : Nat) (a : Attribute) :
    renderAttribute depth width (reindented depth a) = renderAttribute depth width a := by
  rw [renderAttribute, reindent_reindented, renderAttribute, reindented]

/-- Re-indenting attributes changes none of their names. -/
theorem nameWidth_reindented (depth : Nat) (as : List Attribute) :
    nameWidth (as.map (reindented depth)) = nameWidth as := by
  rw [nameWidth, nameWidth, List.map_map]
  rfl

/-- A re-indented run is laid out like the run. -/
theorem Run.render_reindented (depth : Nat) (r : Run) :
    (r.reindented depth).render depth = r.render depth := by
  cases r with
  | aligned as =>
    rw [Run.reindented, Run.render, Run.render, List.flatMap_map, nameWidth_reindented]
    exact List.flatMap_congr fun a _ => renderAttribute_reindented depth _ a
  | alone a => exact renderAttribute_reindented depth 0 a
  | text t => rfl

/-- The text of attributes whose values were re-indented. -/
theorem assemble_reindented (depth : Nat) (as : List Attribute) :
    assemble depth ((as.map (reindented depth)).map Entry.attr) =
      assemble depth (as.map Entry.attr) := by
  rw [assemble, runs_reindented, List.flatMap_map, assemble]
  exact List.flatMap_congr fun r _ => Run.render_reindented depth r

end HclQuery.Layout
