import HclQuery.Proofs.Settings.Layers
import Mathlib.Data.List.Forall2

/-!
# The shape of a settings file

A settings file may set a boolean, and in a table of its own the program and the arguments of the
filter, each of them or not; it has no other key.  The filter is also taken as an array of its
fields in order, of which any may be missing at the end and what follows them is not looked at.
Said here is which texts are taken as settings, as which ones, and why the others are refused, with
and without that array.

Main definitions:

- {lit}`Settings.FilterTable`: a filter that is written as a table.
- {lit}`Settings.FilterList`: a filter that is written as an array of its fields.
- {lit}`Settings.Shaped`: a table of the right shape and what it sets.
- {lit}`Settings.DecidedBy`: the settings of a text are decided by a shape.

Main results:

- Theorem {lit}`Settings.filterForm_iff`: the filters that are taken.
- Theorem {lit}`Settings.shaped_iff`: the tables that are taken.
- Theorem {lit}`Settings.ofText_shape`: the texts that are taken and those that are refused.
-/

namespace HclQuery.Settings

open Toml (Entries Key Value)

/-! ## Shapes -/

/-- A value is a boolean. -/
def IsBoolean (v : Value) (b : Bool) : Prop :=
  ∃ span, v = .scalar span (.boolean b)

/-- A value is a string. -/
def IsString (v : Value) (s : String) : Prop :=
  ∃ span, v = .scalar span (.string s)

/-- A value is an array of strings. -/
def IsStrings (v : Value) (ss : List String) : Prop :=
  ∃ vs, elements? v = some vs ∧ List.Forall₂ IsString vs ss

/-- What a filter is written as, with the program and the arguments that it sets. -/
abbrev Form := Value → Option String → Option (List String) → Prop

/-- A filter is a table with no other keys than those of its fields. -/
inductive FilterTable : Form where
  | intro {origin span} {es : Entries} {program : Option String} {args : Option (List String)}
    (known : ∀ e ∈ es, e.1.name = "program" ∨ e.1.name = "args")
    (program_rel : Option.Rel IsString (Value.find? "program" es) program)
    (args_rel : Option.Rel IsStrings (Value.find? "args" es) args) :
    FilterTable (.table origin span es) program args

/-- A filter is an array that begins with its fields. -/
inductive FilterList : Form where
  | intro {v : Value} {vs : List Value} {program : Option String} {args : Option (List String)}
    (elements : elements? v = some vs) (program_rel : Option.Rel IsString vs[0]? program)
    (args_rel : Option.Rel IsStrings vs[1]? args) : FilterList v program args

/-- A filter is written in one of the two ways. -/
def FilterForm : Form :=
  fun v program args => FilterTable v program args ∨ FilterList v program args

/-- A table has no other keys than those of the settings, what stands under them is of the right
kind, and this is what the table sets. -/
inductive Shaped (form : Form) : Value → FileSettings → Prop where
  | intro {origin span} {es : Entries} {file : FileSettings}
    (known : ∀ e ∈ es, e.1.name = "strict" ∨ e.1.name = "filter")
    (strict_rel : Option.Rel IsBoolean (Value.find? "strict" es) file.strict)
    (absent : Value.find? "filter" es = none → file.program = none ∧ file.args = none)
    (present : ∀ v, Value.find? "filter" es = some v → form v file.program file.args) :
    Shaped form (.table origin span es) file

/-- A text is refused as TOML: it is none, or its table has a shape that is not taken. -/
def Refused (t : List Char) : Prop :=
  ofText t = .error (.malformed none) ∨ ∃ report, ofText t = .error (.shape none report)

/-- The settings of a text are those of its table over the default ones, if the table has the shape
and its program is not blank; a blank program is invalid, and any other text is refused as TOML. -/
structure DecidedBy (form : Form) (t : List Char) : Prop where
  accepted : ∀ s, ofText t = .ok s ↔
    ∃ table file, Toml.parse? t = some table ∧ Shaped form table file ∧
      (∀ program ∈ file.program, isBlankText program = false) ∧ s = file.settings
  invalid : ofText t = .error (.invalid none "filter.program must not be empty") ↔
    ∃ table file, Toml.parse? t = some table ∧ Shaped form table file ∧
      ∃ program ∈ file.program, isBlankText program = true
  refused : Refused t ↔ ∀ table file, Toml.parse? t = some table → ¬ Shaped form table file

/-! ## Values -/

/-- A boolean is read from values that are one. -/
theorem boolean_eq_ok_iff {v : Value} {b : Bool} : boolean v = .ok b ↔ IsBoolean v b := by
  constructor
  · intro h
    unfold boolean at h
    split at h
    · next span _ =>
      cases h
      exact ⟨span, rfl⟩
    · cases h
  · rintro ⟨span, rfl⟩
    rfl

/-- A string is read from values that are one. -/
theorem string_eq_ok_iff {v : Value} {s : String} : string v = .ok s ↔ IsString v s := by
  constructor
  · intro h
    unfold string at h
    split at h
    · next span _ =>
      cases h
      exact ⟨span, rfl⟩
    · cases h
  · rintro ⟨span, rfl⟩
    rfl

/-- Strings are read from lists of values that are strings, one by one. -/
theorem stringList_eq_ok_iff {vs : List Value} {ss : List String} :
    stringList vs = .ok ss ↔ List.Forall₂ IsString vs ss := by
  induction vs generalizing ss with
  | nil => simp [stringList, eq_comm]
  | cons v vs ih =>
    rw [stringList, List.forall₂_cons_left_iff]
    simp only [← ih, ← string_eq_ok_iff]
    cases string v with
    | error f => simp
    | ok s => cases stringList vs <;> simp [eq_comm]

/-- A list of strings is read from values that are one. -/
theorem strings_eq_ok_iff {v : Value} {ss : List String} : strings v = .ok ss ↔ IsStrings v ss := by
  rw [strings, IsStrings]
  cases elements? v with
  | none => simp [refuse]
  | some vs => simp [stringList_eq_ok_iff]

/-- What is set by a value that may be missing. -/
theorem rel_iff {α : Type} {decode : Value → Except Fault α} {Is : Value → α → Prop}
    (hdecode : ∀ v a, decode v = .ok a ↔ Is v a) {o : Option Value} {set : Option α} :
    Option.Rel Is o set ↔
      (∀ v ∈ o, ∃ a, decode v = .ok a) ∧ set = o.bind fun v => (decode v).toOption := by
  constructor
  · rintro (⟨hv⟩ | _)
    · rw [← hdecode] at hv
      exact ⟨by simpa using ⟨_, hv⟩, by simp [hv, Except.toOption]⟩
    · exact ⟨by simp, rfl⟩
  · rintro ⟨hok, rfl⟩
    cases o with
    | none => exact .none
    | some v =>
      rcases hok v rfl with ⟨a, ha⟩
      rw [Option.bind_some, ha]
      exact .some ((hdecode v a).1 ha)

/-! ## Entries -/

/-- Entries are read if each of them is read by itself. -/
theorem OneByOne.exists_ok_iff {σ : Type} {read : σ → Entries → Except Fault σ}
    (hread : OneByOne read) {Good : Key × Value → Prop}
    (hstep : ∀ s e, (∃ s', read s [e] = .ok s') ↔ Good e) (s : σ) (es : Entries) :
    (∃ s', read s es = .ok s') ↔ ∀ e ∈ es, Good e := by
  induction es generalizing s with
  | nil => simp [hread.nil]
  | cons e es ih =>
    rw [hread.cons, List.forall_mem_cons, ← hstep s e]
    cases hs : read s [e] with
    | error f => simp [Except.bind]
    | ok s₁ => simpa [Except.bind] using ih s₁

/-- What is found under the name of an entry is its value, if no name is there twice. -/
theorem find?_of_mem {es : Entries} (hnames : (Entries.names es).Nodup) {e : Key × Value}
    (he : e ∈ es) : Value.find? e.1.name es = some e.2 := by
  induction es with
  | nil => cases he
  | cons e' es ih =>
    rw [Entries.names_cons, List.nodup_cons] at hnames
    rcases List.mem_cons.1 he with rfl | he
    · simp [Value.find?]
    · have hne : e'.1.name ≠ e.1.name := by
        intro h
        rw [h] at hnames
        exact hnames.1 (List.mem_map_of_mem he)
      rw [← ih hnames.2 he]
      simp [Value.find?, hne]

/-- What is found under a name is the value of an entry. -/
theorem exists_mem_of_find? {name : String} {es : Entries} {v : Value}
    (h : Value.find? name es = some v) : ∃ e ∈ es, e.1.name = name ∧ e.2 = v := by
  obtain ⟨e, he, rfl⟩ := Option.map_eq_some_iff.1 h
  exact ⟨e, List.mem_of_find?_eq_some he, by simpa using List.find?_some he, rfl⟩

/-- Entries under two names, by what is found under them. -/
theorem forall_entries_iff {P Q : Value → Prop} {m n : String} (hmn : m ≠ n) {es : Entries}
    (hnames : (Entries.names es).Nodup) :
    (∀ e ∈ es, (e.1.name = m ∧ P e.2) ∨ (e.1.name = n ∧ Q e.2)) ↔
      (∀ e ∈ es, e.1.name = m ∨ e.1.name = n) ∧
        (∀ v ∈ Value.find? m es, P v) ∧ ∀ v ∈ Value.find? n es, Q v := by
  constructor
  · intro h
    refine ⟨fun e he => (h e he).imp And.left And.left, fun v hv => ?_, fun v hv => ?_⟩
    · rcases exists_mem_of_find? hv with ⟨e, he, rfl, rfl⟩
      exact ((h e he).resolve_right fun hn => hmn hn.1).2
    · rcases exists_mem_of_find? hv with ⟨e, he, rfl, rfl⟩
      exact ((h e he).resolve_left fun hm => hmn hm.1.symm).2
  · rintro ⟨hknown, hP, hQ⟩ e he
    have hfind := find?_of_mem hnames he
    rcases hknown e he with hm | hn
    · exact .inl ⟨hm, hP e.2 (hm ▸ hfind)⟩
    · exact .inr ⟨hn, hQ e.2 (hn ▸ hfind)⟩

/-- One entry of settings is read when it has the name of a field and the shape of that field. -/
theorem exists_entries_single_iff (s : Settings) (e : Key × Value) :
    (∃ s', entries s [e] = .ok s') ↔
      (e.1.name = "strict" ∧ ∃ b, boolean e.2 = .ok b) ∨
        (e.1.name = "filter" ∧ ∃ c, filterOf e.2 = .ok c) := by
  constructor
  · rintro ⟨s', h⟩
    rcases entries_single h with ⟨hname, b, hb, -⟩ | ⟨hname, c, hc, -⟩
    · exact .inl ⟨hname, b, ok_of_toOption hb⟩
    · exact .inr ⟨hname, c, ok_of_toOption hc⟩
  · obtain ⟨key, v⟩ := e
    rintro (⟨hname, b, hb⟩ | ⟨hname, c, hc⟩)
    · refine ⟨{ s with strict := b }, ?_⟩
      rw [entries, if_pos hname, hb]
      rfl
    · refine ⟨{ s with filter := c }, ?_⟩
      have hne : key.name ≠ "strict" := by simp_all
      rw [entries, if_neg hne, if_pos hname, hc]
      rfl

/-- One entry of a filter is read when it has the name of a field and the shape of that field. -/
theorem exists_filterEntries_single_iff (c : FilterCommand) (e : Key × Value) :
    (∃ c', filterEntries c [e] = .ok c') ↔
      (e.1.name = "program" ∧ ∃ s, string e.2 = .ok s) ∨
        (e.1.name = "args" ∧ ∃ ss, strings e.2 = .ok ss) := by
  constructor
  · rintro ⟨c', h⟩
    rcases filterEntries_single h with ⟨hname, s, hs, -⟩ | ⟨hname, ss, hss, -⟩
    · exact .inl ⟨hname, s, ok_of_toOption hs⟩
    · exact .inr ⟨hname, ss, ok_of_toOption hss⟩
  · obtain ⟨key, v⟩ := e
    rintro (⟨hname, s, hs⟩ | ⟨hname, ss, hss⟩)
    · refine ⟨{ c with program := s }, ?_⟩
      rw [filterEntries, if_pos hname, hs]
      rfl
    · refine ⟨{ c with args := ss }, ?_⟩
      have hne : key.name ≠ "program" := by simp_all
      rw [filterEntries, if_neg hne, if_pos hname, hss]
      rfl

/-- Entries of settings are read when each has the name of a field and the shape of that field. -/
theorem exists_entries_iff (s : Settings) {es : Entries} (hnames : (Entries.names es).Nodup) :
    (∃ s', entries s es = .ok s') ↔
      (∀ e ∈ es, e.1.name = "strict" ∨ e.1.name = "filter") ∧
        (∀ v ∈ Value.find? "strict" es, ∃ b, boolean v = .ok b) ∧
        ∀ v ∈ Value.find? "filter" es, ∃ c, filterOf v = .ok c := by
  rw [entries_oneByOne.exists_ok_iff exists_entries_single_iff]
  exact forall_entries_iff (P := fun v => ∃ b, boolean v = .ok b)
    (Q := fun v => ∃ c, filterOf v = .ok c) (by decide) hnames

/-- Entries of a filter are read when each has the name of a field and the shape of that field. -/
theorem exists_filterEntries_iff (c : FilterCommand) {es : Entries}
    (hnames : (Entries.names es).Nodup) :
    (∃ c', filterEntries c es = .ok c') ↔
      (∀ e ∈ es, e.1.name = "program" ∨ e.1.name = "args") ∧
        (∀ v ∈ Value.find? "program" es, ∃ s, string v = .ok s) ∧
        ∀ v ∈ Value.find? "args" es, ∃ ss, strings v = .ok ss := by
  rw [filterEntries_oneByOne.exists_ok_iff exists_filterEntries_single_iff]
  exact forall_entries_iff (P := fun v => ∃ s, string v = .ok s)
    (Q := fun v => ∃ ss, strings v = .ok ss) (by decide) hnames

/-! ## Filters and tables -/

/-- The elements of an array are taken by their places. -/
theorem exists_filterElements_iff (vs : List Value) :
    (∃ c, filterElements vs = .ok c) ↔
      (∀ v ∈ vs[0]?, ∃ s, string v = .ok s) ∧ ∀ v ∈ vs[1]?, ∃ ss, strings v = .ok ss := by
  match vs with
  | [] => simp [filterElements]
  | [v] => simp [filterElements, map_eq_ok_iff]
  | v :: w :: vs =>
    rw [filterElements]
    cases hv : string v with
    | error f => simp [hv]
    | ok s => simp [hv, map_eq_ok_iff]

section

variable {program : Option String} {args : Option (List String)}

/-- An array is a filter by its first two elements. -/
theorem filterForm_elements_iff {v : Value} {vs : List Value} (hvs : elements? v = some vs) :
    FilterForm v program args ↔
      (∃ c, filterElements vs = .ok c) ∧
        (program = (vs[0]?).bind fun v => (string v).toOption) ∧
        args = (vs[1]?).bind fun v => (strings v).toOption := by
  rw [exists_filterElements_iff, and_and_and_comm, ← rel_iff @string_eq_ok_iff,
    ← rel_iff @strings_eq_ok_iff]
  constructor
  · rintro (⟨_, _, _⟩ | ⟨hvs', hprogram, hargs⟩)
    · cases hvs
    · cases hvs.symm.trans hvs'
      exact ⟨hprogram, hargs⟩
  · rintro ⟨hprogram, hargs⟩
    exact .inr ⟨hvs, hprogram, hargs⟩

/-- A table is a filter by what is found under the names of the fields. -/
theorem filterForm_table_iff {origin : Toml.Origin} {span : Option Toml.Span} {es : Entries} :
    FilterForm (.table origin span es) program args ↔
      (∀ e ∈ es, e.1.name = "program" ∨ e.1.name = "args") ∧
        Option.Rel IsString (Value.find? "program" es) program ∧
        Option.Rel IsStrings (Value.find? "args" es) args := by
  constructor
  · rintro (⟨known, hprogram, hargs⟩ | ⟨hvs, _, _⟩)
    · exact ⟨known, hprogram, hargs⟩
    · cases hvs
  · rintro ⟨known, hprogram, hargs⟩
    exact .inl ⟨known, hprogram, hargs⟩

/-- The filters that are taken are those that are written in one of the two ways. -/
theorem filterForm_iff {v : Value} (hv : v.Distinct) :
    FilterForm v program args ↔
      (∃ c, filterOf v = .ok c) ∧
        program = FileSettings.program? v ∧ args = FileSettings.args? v := by
  cases v with
  | scalar span value =>
    constructor
    · rintro (h | ⟨h, -, -⟩) <;> cases h
    · rintro ⟨⟨c, hc⟩, -⟩
      cases value <;> cases hc
  | array span vs => exact filterForm_elements_iff rfl
  | tables vs => exact filterForm_elements_iff rfl
  | table origin span es =>
    rw [filterForm_table_iff, rel_iff @string_eq_ok_iff, rel_iff @strings_eq_ok_iff, filterOf,
      exists_filterEntries_iff _ (Value.distinct_table_iff.1 hv).1, and_and_and_comm]
    exact and_assoc.symm

end

/-- The tables that are taken are those of the shape, and this is what they set. -/
theorem shaped_iff {table : Value} (htable : table.Distinct) {file : FileSettings} :
    Shaped FilterForm table file ↔
      (∃ s, ofTable table = .ok s) ∧ file = FileSettings.ofTable table := by
  cases table with
  | scalar span value => exact ⟨nofun, fun ⟨⟨_, h⟩, _⟩ => nomatch h⟩
  | array span vs => exact ⟨nofun, fun ⟨⟨_, h⟩, _⟩ => nomatch h⟩
  | tables vs => exact ⟨nofun, fun ⟨⟨_, h⟩, _⟩ => nomatch h⟩
  | table origin span es =>
    obtain ⟨hnames, hvalues⟩ := Value.distinct_table_iff.1 htable
    rw [ofTable, exists_entries_iff _ hnames]
    obtain ⟨strict, program, args⟩ := file
    have hfilter : (Value.find? "filter" es = none → program = none ∧ args = none) ∧
        (∀ v, Value.find? "filter" es = some v → FilterForm v program args) ↔
        (∀ v ∈ Value.find? "filter" es, ∃ c, filterOf v = .ok c) ∧
          program = (Value.find? "filter" es).bind FileSettings.program? ∧
          args = (Value.find? "filter" es).bind FileSettings.args? := by
      cases hfind : Value.find? "filter" es with
      | none => simp
      | some v => simp [filterForm_iff (Value.distinct_of_find? hvalues hfind)]
    constructor
    · rintro ⟨known, hstrict, habsent, hpresent⟩
      rw [rel_iff @boolean_eq_ok_iff] at hstrict
      have hset := hfilter.1 ⟨habsent, hpresent⟩
      refine ⟨⟨known, hstrict.1, hset.1⟩, ?_⟩
      rw [FileSettings.ofTable, FileSettings.mk.injEq]
      exact ⟨hstrict.2, hset.2⟩
    · rintro ⟨⟨known, hstrict, hok⟩, hfile⟩
      rw [FileSettings.ofTable, FileSettings.mk.injEq] at hfile
      have hshape := hfilter.2 ⟨hok, hfile.2⟩
      exact ⟨known, (rel_iff @boolean_eq_ok_iff).2 ⟨hstrict, hfile.1⟩, hshape.1, hshape.2⟩

/-! ## Texts -/

/-- Settings with a blank program are invalid. -/
theorem checked_eq_invalid {file : FileSettings} {program : String}
    (hprogram : program ∈ file.program) (hblank : isBlankText program = true) :
    file.settings.checked = .error (.invalid none "filter.program must not be empty") := by
  have hsettings : file.settings.filter.program = program := by
    rw [FileSettings.settings, hprogram, Option.getD_some]
  rw [checked, problem?, hsettings, if_pos hblank]

/-- The settings of a text whose table has the shape are those of the table, unless something is
wrong with them. -/
theorem ofText_of_shaped {t : List Char} {table : Value} {file : FileSettings}
    (hparse : Toml.parse? t = some table) (hshape : Shaped FilterForm table file) :
    ofText t = file.settings.checked := by
  have hdistinct := Toml.parse?_distinct hparse
  rcases (shaped_iff hdistinct).1 hshape with ⟨⟨s, hs⟩, hfile⟩
  rw [ofText, hparse]
  simp only [hs]
  rw [ofTable_eq_settings hdistinct hs, hfile]

/-- A text without a table of the shape is refused. -/
theorem ofText_of_not_shaped {t : List Char}
    (h : ∀ table file, Toml.parse? t = some table → ¬ Shaped FilterForm table file) :
    Refused t := by
  rw [Refused, ofText]
  cases hparse : Toml.parse? t with
  | none => exact .inl rfl
  | some table =>
    cases htable : ofTable table with
    | error f =>
      simp only [htable]
      exact .inr ⟨_, rfl⟩
    | ok s =>
      refine absurd ?_ (h table (FileSettings.ofTable table) hparse)
      exact (shaped_iff (Toml.parse?_distinct hparse)).2 ⟨⟨s, htable⟩, rfl⟩

/-- What becomes of a text, one way or another. -/
theorem ofText_cases (t : List Char) :
    (∃ table file, Toml.parse? t = some table ∧ Shaped FilterForm table file ∧
      (∀ program ∈ file.program, isBlankText program = false) ∧ ofText t = .ok file.settings) ∨
    (∃ table file, Toml.parse? t = some table ∧ Shaped FilterForm table file ∧
      (∃ program ∈ file.program, isBlankText program = true) ∧
      ofText t = .error (.invalid none "filter.program must not be empty")) ∨
    ((∀ table file, Toml.parse? t = some table → ¬ Shaped FilterForm table file) ∧ Refused t) := by
  by_cases hshape : ∃ table file, Toml.parse? t = some table ∧ Shaped FilterForm table file
  · rcases hshape with ⟨table, file, hparse, hshape⟩
    have htext := ofText_of_shaped hparse hshape
    by_cases hblank : ∃ program ∈ file.program, isBlankText program = true
    · refine .inr (.inl ⟨table, file, hparse, hshape, hblank, ?_⟩)
      rcases hblank with ⟨program, hprogram, hblank⟩
      rw [htext, checked_eq_invalid hprogram hblank]
    · have hvisible : ∀ program ∈ file.program, isBlankText program = false := by
        simpa using hblank
      refine .inl ⟨table, file, hparse, hshape, hvisible, ?_⟩
      rw [htext, checked_eq_ok_iff]
      exact ⟨FileSettings.isBlankText_settings.2 hvisible, rfl⟩
  · have hnone : ∀ table file, Toml.parse? t = some table → ¬ Shaped FilterForm table file :=
      fun table file hparse h => hshape ⟨table, file, hparse, h⟩
    exact .inr (.inr ⟨hnone, ofText_of_not_shaped hnone⟩)

/-- The settings of a text are decided by the shape in which a filter is written in one of the two
ways. -/
theorem decidedBy_filterForm (t : List Char) : DecidedBy FilterForm t where
  accepted := by
    intro s
    constructor
    · intro h
      rcases ofText_cases t with ⟨table, file, hparse, hshape, hvisible, htext⟩ |
        ⟨_, _, _, _, _, htext⟩ | ⟨_, htext | ⟨_, htext⟩⟩
      · rw [htext] at h
        cases h
        exact ⟨table, file, hparse, hshape, hvisible, rfl⟩
      all_goals
        rw [htext] at h
        cases h
    · rintro ⟨table, file, hparse, hshape, hvisible, rfl⟩
      rw [ofText_of_shaped hparse hshape, checked_eq_ok_iff]
      exact ⟨FileSettings.isBlankText_settings.2 hvisible, rfl⟩
  invalid := by
    constructor
    · intro h
      rcases ofText_cases t with ⟨_, _, _, _, _, htext⟩ |
        ⟨table, file, hparse, hshape, hblank, -⟩ | ⟨_, htext | ⟨_, htext⟩⟩
      · rw [htext] at h
        cases h
      · exact ⟨table, file, hparse, hshape, hblank⟩
      all_goals
        rw [htext] at h
        cases h
    · rintro ⟨table, file, hparse, hshape, program, hprogram, hblank⟩
      rw [ofText_of_shaped hparse hshape, checked_eq_invalid hprogram hblank]
  refused := by
    constructor
    · intro h
      rcases ofText_cases t with ⟨_, _, _, _, _, htext⟩ |
        ⟨_, _, _, _, _, htext⟩ | ⟨hnone, -⟩
      · rcases h with h | ⟨_, h⟩ <;> cases htext.symm.trans h
      · rcases h with h | ⟨_, h⟩ <;> cases htext.symm.trans h
      · exact hnone
    · exact ofText_of_not_shaped

/-! ## Filters that are no arrays -/

/-- Nothing but an array is a filter only in the second way. -/
theorem Shaped.filterTable {table : Value} {file : FileSettings}
    (h : Shaped FilterForm table file)
    (hfilter : ∀ v, FileSettings.named? "filter" table = some v → elements? v = none) :
    Shaped FilterTable table file := by
  obtain ⟨known, hstrict, habsent, hpresent⟩ := h
  refine ⟨known, hstrict, habsent, fun v hv => ?_⟩
  rcases hpresent v hv with htable | ⟨hvs, -, -⟩
  · exact htable
  · cases (hfilter v hv).symm.trans hvs

/-- What has the shape with the filter as a table has the shape with the filter in either form. -/
theorem Shaped.filterForm {table : Value} {file : FileSettings}
    (h : Shaped FilterTable table file) : Shaped FilterForm table file := by
  obtain ⟨known, hstrict, habsent, hpresent⟩ := h
  exact ⟨known, hstrict, habsent, fun v hv => .inl (hpresent v hv)⟩

/-- A filter that is written as a table is no array. -/
theorem Shaped.elements?_eq_none {table v : Value} {file : FileSettings}
    (h : Shaped FilterTable table file) (hv : FileSettings.named? "filter" table = some v) :
    elements? v = none := by
  obtain ⟨-, -, -, hpresent⟩ := h
  obtain ⟨-, -, -⟩ := hpresent v hv
  rfl

/-- Two shapes that the table of a text has alike decide alike. -/
theorem DecidedBy.congr {form form' : Form} {t : List Char} (h : DecidedBy form t)
    (hshape : ∀ table file, Toml.parse? t = some table →
      (Shaped form table file ↔ Shaped form' table file)) : DecidedBy form' t where
  accepted s := (h.accepted s).trans (exists₂_congr fun table file =>
    and_congr_right fun hparse => and_congr_left' (hshape table file hparse))
  invalid := h.invalid.trans (exists₂_congr fun table file =>
    and_congr_right fun hparse => and_congr_left' (hshape table file hparse))
  refused := h.refused.trans (forall₃_congr fun table file hparse =>
    not_congr (hshape table file hparse))

/-- The settings of a text are decided by the shape in which a filter is a table or an array of its
fields: what has the shape and no blank program is accepted as what it sets over the default
settings, what has the shape and a blank program is invalid, and everything else is refused as TOML.
The shape in which a filter is a table decides them too, but for the texts of the shape whose filter
is an array. -/
theorem ofText_shape (t : List Char) :
    DecidedBy FilterForm t ∧
      (DecidedBy FilterTable t ↔
        ¬ ∃ table file filter vs, Toml.parse? t = some table ∧ Shaped FilterForm table file ∧
          FileSettings.named? "filter" table = some filter ∧ elements? filter = some vs) := by
  refine ⟨decidedBy_filterForm t, ?_, ?_⟩
  · rintro h ⟨table, file, filter, vs, hparse, hshape, hfilter, hvs⟩
    have hrefused := h.refused.2 fun table' file' hparse' hshape' => by
      cases hparse.symm.trans hparse'
      cases (hshape'.elements?_eq_none hfilter).symm.trans hvs
    exact (decidedBy_filterForm t).refused.1 hrefused table file hparse hshape
  · intro h
    refine (decidedBy_filterForm t).congr fun table file hparse =>
      ⟨fun hshape => hshape.filterTable fun v hv => ?_, Shaped.filterForm⟩
    rw [Option.eq_none_iff_forall_ne_some]
    exact fun vs hvs => h ⟨table, file, v, vs, hparse, hshape, hv, hvs⟩

/-- A filter that is an array: two fields and something after them. -/
def listedFilter : List Char :=
  "filter = [\"gojq\", [\"-c\"], \"--seq\"]\n".toList

/-- It is taken, though no filter is written as an array. -/
theorem not_decidedBy_filterTable : ¬ DecidedBy FilterTable listedFilter := by
  intro h
  have htext : ofText listedFilter = .ok ⟨false, ⟨"gojq", ["-c"]⟩⟩ :=
    ok_of_toOption (by decide +kernel)
  have hlisted : (((Toml.parse? listedFilter).bind (FileSettings.named? "filter")).bind
      elements?).isSome = true := by decide +kernel
  rcases (h.accepted _).1 htext with ⟨table, file, hparse, hshape, -⟩
  rw [hparse, Option.bind_some] at hlisted
  cases hfilter : FileSettings.named? "filter" table with
  | none => simp [hfilter] at hlisted
  | some v => simp [hfilter, hshape.elements?_eq_none hfilter] at hlisted

end HclQuery.Settings
