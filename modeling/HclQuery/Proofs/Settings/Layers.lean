import HclQuery.Proofs.Configuration
import HclQuery.Proofs.Toml.Keys
import HclQuery.Settings.Source

/-!
# What a settings file sets

A settings file may set any of three fields.  Which ones it sets is said here without the order in
which its entries are decoded: a field is set by what stands under its name, and what is not set has
its default value.

Main definitions:

- {lit}`FileSettings`: what a file sets.
- {lit}`FileSettings.ofTable`: what a table sets.
- {lit}`FileSettings.Accepted`: what an acceptable file sets.

Main results:

- Theorem {lit}`Settings.OneByOne.get_eq`: a field that is read from entries.
- Theorem {lit}`Settings.ofTable_eq_settings`: the settings of a table.
- Theorem {lit}`FileSettings.ofFile_eq_ok_iff`: the settings of a file.
-/

namespace HclQuery

open Toml (Key Value Entries)

/-- What a settings file sets. -/
structure FileSettings where
  strict : Option Bool
  program : Option String
  args : Option (List String)
  deriving DecidableEq, Repr

namespace FileSettings

/-- Nothing is set. -/
def nothing : FileSettings := ⟨none, none, none⟩

/-- The settings where only this is asked for. -/
def settings (file : FileSettings) : Settings where
  strict := file.strict.getD false
  filter := { program := file.program.getD "jq", args := file.args.getD ["-r"] }

/-- Settings of which nothing is set are the defaults. -/
theorem settings_nothing : nothing.settings = .default := rfl

/-- What stands under a name in a table. -/
def named? (name : String) : Value → Option Value
  | .table _ _ es => Value.find? name es
  | _ => none

/-- A field of a filter, which has a name in a table and a place in a list. -/
def filterField? (name : String) (place : Nat) : Value → Option Value
  | .table _ _ es => Value.find? name es
  | .array _ vs => vs[place]?
  | .tables vs => vs[place]?
  | .scalar .. => none

/-- What the filter under a name sets as its program. -/
def program? (filter : Value) : Option String :=
  (filterField? "program" 0 filter).bind fun v => (Settings.string v).toOption

/-- What it sets as its arguments. -/
def args? (filter : Value) : Option (List String) :=
  (filterField? "args" 1 filter).bind fun v => (Settings.strings v).toOption

/-- What a table sets. -/
def ofTable (table : Value) : FileSettings where
  strict := (named? "strict" table).bind fun v => (Settings.boolean v).toOption
  program := (named? "filter" table).bind program?
  args := (named? "filter" table).bind args?

/-- The file at a path is accepted: it can be read, its text is a table of the right shape, and the
program that it sets, if it sets one, is not blank. -/
def Accepted (disk : Disk) (path : String) (file : FileSettings) : Prop :=
  ∃ text table, disk.readText path = .ok text ∧ Toml.parse? text = some table ∧
    (∃ s, Settings.ofTable table = .ok s) ∧ file = ofTable table ∧
    ∀ program ∈ file.program, isBlankText program = false

end FileSettings

namespace Settings

/-! ## Fields of entries -/

/-- Entries are read one after the other. -/
structure OneByOne {σ : Type} (read : σ → Entries → Except Fault σ) : Prop where
  nil : ∀ s, read s [] = .ok s
  cons : ∀ s e es, read s (e :: es) = (read s [e]).bind fun s => read s es

/-- The entries of settings are read one after the other. -/
theorem entries_oneByOne : OneByOne entries where
  nil _ := rfl
  cons s e es := by
    obtain ⟨key, v⟩ := e
    simp only [entries]
    split
    · cases field key v (boolean v) <;> rfl
    · split
      · cases field key v (filterOf v) <;> rfl
      · rfl

/-- The entries of a filter are read one after the other. -/
theorem filterEntries_oneByOne : OneByOne filterEntries where
  nil _ := rfl
  cons c e es := by
    obtain ⟨key, v⟩ := e
    simp only [filterEntries]
    split
    · cases field key v (string v) <;> rfl
    · split
      · cases field key v (strings v) <;> rfl
      · rfl

section OneByOne

variable {σ α : Type} {read : σ → Entries → Except Fault σ} {get : σ → α} {name : String}
  {decode : Value → Option α}

/-- A field that only the entry under a name sets has the value of that entry, if no name is there
twice, and is left alone without such an entry. -/
theorem OneByOne.get_cases (hread : OneByOne read)
    (hstep : ∀ s e s', read s [e] = .ok s' →
      (e.1.name = name ∧ decode e.2 = some (get s')) ∨ (e.1.name ≠ name ∧ get s' = get s))
    {es : Entries} (hnames : (Entries.names es).Nodup) {s s' : σ} (h : read s es = .ok s') :
    (∃ v, Value.find? name es = some v ∧ decode v = some (get s')) ∨
      (Value.find? name es = none ∧ get s' = get s) := by
  induction es generalizing s with
  | nil =>
    rw [hread.nil] at h
    cases h
    exact .inr ⟨rfl, rfl⟩
  | cons e es ih =>
    rw [Entries.names_cons, List.nodup_cons] at hnames
    rw [hread.cons] at h
    cases hs : read s [e] with
    | error f =>
      rw [hs] at h
      cases h
    | ok s₁ =>
      rw [hs] at h
      have hrest := ih hnames.2 h
      obtain ⟨hname, hfirst⟩ | ⟨hname, hfirst⟩ := hstep s e s₁ hs
      · -- the name is not there again, so the rest leaves the field alone
        have hnone : Value.find? name es = none := by
          rw [Value.find?_eq_none_iff, ← hname]
          exact hnames.1
        obtain ⟨v, hv, -⟩ | ⟨-, hrest⟩ := hrest
        · rw [hnone] at hv
          cases hv
        · exact .inl ⟨e.2, by simp [Value.find?, hname], by rw [hrest, hfirst]⟩
      · have hfind : Value.find? name (e :: es) = Value.find? name es := by
          simp [Value.find?, hname]
        rw [hfind, ← hfirst]
        exact hrest

/-- The same as an equation. -/
theorem OneByOne.get_eq (hread : OneByOne read)
    (hstep : ∀ s e s', read s [e] = .ok s' →
      (e.1.name = name ∧ decode e.2 = some (get s')) ∨ (e.1.name ≠ name ∧ get s' = get s))
    {es : Entries} (hnames : (Entries.names es).Nodup) {s s' : σ} (h : read s es = .ok s') :
    get s' = ((Value.find? name es).bind decode).getD (get s) := by
  obtain ⟨v, hv, hget⟩ | ⟨hnone, hget⟩ := hread.get_cases hstep hnames h
  · simp [hv, hget]
  · simp [hnone, hget]

end OneByOne

/-- A success is left as it is when errors are changed. -/
theorem mapError_eq_ok_iff {ε ε' α : Type} {f : ε → ε'} {x : Except ε α} {a : α} :
    x.mapError f = .ok a ↔ x = .ok a := by
  constructor
  · intro h
    cases x with
    | error e => cases h
    | ok b =>
      cases h
      rfl
  · rintro rfl
    rfl

/-- A success is changed into a success. -/
theorem map_eq_ok_iff {ε α β : Type} {f : α → β} {x : Except ε α} {b : β} :
    x.map f = .ok b ↔ ∃ a, x = .ok a ∧ f a = b := by
  cases x with
  | error e => simp [Except.map]
  | ok a => simp [Except.map]

/-- A field keeps its value, and only its faults are placed. -/
theorem field_eq_ok {α : Type} {key : Key} {v : Value} {r : Except Fault α} {a : α}
    (h : field key v r = .ok a) : r.toOption = some a := by
  rw [mapError_eq_ok_iff.1 h]
  rfl

/-- One entry of settings changes one field of them. -/
theorem entries_single {s s' : Settings} {e : Key × Value} (h : entries s [e] = .ok s') :
    (e.1.name = "strict" ∧ ∃ strict, (boolean e.2).toOption = some strict ∧
      s' = { s with strict }) ∨
    (e.1.name = "filter" ∧ ∃ filter, (filterOf e.2).toOption = some filter ∧
      s' = { s with filter }) := by
  obtain ⟨key, v⟩ := e
  rw [entries] at h
  split at h
  · next hname =>
    split at h
    · next strict hv =>
      cases h
      exact .inl ⟨hname, strict, field_eq_ok hv, rfl⟩
    · cases h
  · split at h
    · next hname =>
      split at h
      · next filter hv =>
        cases h
        exact .inr ⟨hname, filter, field_eq_ok hv, rfl⟩
      · cases h
    · cases h

/-- One entry of a filter changes one field of it. -/
theorem filterEntries_single {c c' : FilterCommand} {e : Key × Value}
    (h : filterEntries c [e] = .ok c') :
    (e.1.name = "program" ∧ ∃ program, (string e.2).toOption = some program ∧
      c' = { c with program }) ∨
    (e.1.name = "args" ∧ ∃ args, (strings e.2).toOption = some args ∧ c' = { c with args }) := by
  obtain ⟨key, v⟩ := e
  rw [filterEntries] at h
  split at h
  · next hname =>
    split at h
    · next program hv =>
      cases h
      exact .inl ⟨hname, program, field_eq_ok hv, rfl⟩
    · cases h
  · split at h
    · next hname =>
      split at h
      · next args hv =>
        cases h
        exact .inr ⟨hname, args, field_eq_ok hv, rfl⟩
      · cases h
    · cases h

/-! ## Filters and tables -/

/-- The elements of a list set the program and the arguments by their places. -/
theorem filterElements_eq {vs : List Value} {c : FilterCommand} (h : filterElements vs = .ok c) :
    c.program = ((vs[0]?).bind fun v => (string v).toOption).getD "jq" ∧
      c.args = ((vs[1]?).bind fun v => (strings v).toOption).getD ["-r"] := by
  match vs with
  | [] =>
    cases h
    exact ⟨rfl, rfl⟩
  | [v] =>
    obtain ⟨program, hv, rfl⟩ := map_eq_ok_iff.1 h
    simp [hv, Except.toOption, FilterCommand.defaultArgs]
  | v :: w :: vs =>
    rw [filterElements] at h
    split at h
    · cases h
    · next program hv =>
      obtain ⟨args, hw, rfl⟩ := map_eq_ok_iff.1 h
      simp [hv, hw, Except.toOption]

/-- The entries of a table set them by their names. -/
theorem filterEntries_eq {es : Entries} (hnames : (Entries.names es).Nodup) {c c' : FilterCommand}
    (h : filterEntries c es = .ok c') :
    c'.program =
        ((Value.find? "program" es).bind fun v => (string v).toOption).getD c.program ∧
      c'.args = ((Value.find? "args" es).bind fun v => (strings v).toOption).getD c.args := by
  constructor
  · refine filterEntries_oneByOne.get_eq (fun c e c' he => ?_) hnames h
    obtain ⟨hname, program, hv, rfl⟩ | ⟨hname, args, hv, rfl⟩ := filterEntries_single he
    · exact .inl ⟨hname, hv⟩
    · exact .inr ⟨by simp [hname], rfl⟩
  · refine filterEntries_oneByOne.get_eq (fun c e c' he => ?_) hnames h
    obtain ⟨hname, program, hv, rfl⟩ | ⟨hname, args, hv, rfl⟩ := filterEntries_single he
    · exact .inr ⟨by simp [hname], rfl⟩
    · exact .inl ⟨hname, hv⟩

/-- A filter is what its value sets, over the default filter. -/
theorem filterOf_eq {v : Value} (hv : v.Distinct) {c : FilterCommand} (h : filterOf v = .ok c) :
    c = ⟨(FileSettings.program? v).getD "jq", (FileSettings.args? v).getD ["-r"]⟩ := by
  obtain ⟨program, args⟩ := c
  rw [FilterCommand.mk.injEq]
  cases v with
  | scalar span value => cases value <;> cases h
  | array span vs => exact filterElements_eq h
  | tables vs => exact filterElements_eq h
  | table origin span es => exact filterEntries_eq (Value.distinct_table_iff.1 hv).1 h

/-- The settings of a table are what the table sets, over the default settings. -/
theorem ofTable_eq_settings {table : Value} (htable : table.Distinct) {s : Settings}
    (h : ofTable table = .ok s) : s = (FileSettings.ofTable table).settings := by
  cases table with
  | scalar span value => cases h
  | array span vs => cases h
  | tables vs => cases h
  | table origin span es =>
    obtain ⟨hnames, hvalues⟩ := Value.distinct_table_iff.1 htable
    rw [ofTable] at h
    have hstrict : s.strict =
        ((Value.find? "strict" es).bind fun v => (boolean v).toOption).getD false := by
      refine entries_oneByOne.get_eq (fun s e s' he => ?_) hnames h
      obtain ⟨hname, strict, hv, rfl⟩ | ⟨hname, filter, hv, rfl⟩ := entries_single he
      · exact .inl ⟨hname, hv⟩
      · exact .inr ⟨by simp [hname], rfl⟩
    have hfilter : (∃ v, Value.find? "filter" es = some v ∧
        (filterOf v).toOption = some s.filter) ∨
          (Value.find? "filter" es = none ∧ s.filter = default.filter) := by
      refine entries_oneByOne.get_cases (fun s e s' he => ?_) hnames h
      obtain ⟨hname, strict, hv, rfl⟩ | ⟨hname, filter, hv, rfl⟩ := entries_single he
      · exact .inr ⟨by simp [hname], rfl⟩
      · exact .inl ⟨hname, hv⟩
    obtain ⟨strict, filter⟩ := s
    rw [FileSettings.settings, Settings.mk.injEq]
    refine ⟨hstrict, ?_⟩
    rcases hfilter with ⟨v, hv, hget⟩ | ⟨hnone, hget⟩
    · have hfields := filterOf_eq (Value.distinct_of_find? hvalues hv) (ok_of_toOption hget)
      simpa [FileSettings.ofTable, FileSettings.named?, hv] using hfields
    · have hdefault : default.filter = ⟨"jq", ["-r"]⟩ := rfl
      simpa [FileSettings.ofTable, FileSettings.named?, hnone, hdefault] using hget

/-! ## Files -/

/-- Nothing is wrong with settings whose program is not blank. -/
theorem problem?_eq_none_iff {s : Settings} :
    s.problem? = none ↔ isBlankText s.filter.program = false := by
  rw [problem?]
  cases isBlankText s.filter.program <;> simp

/-- The settings are left as they are, just if nothing is wrong with them. -/
theorem checked_eq_ok_iff {s s' : Settings} :
    s.checked = .ok s' ↔ isBlankText s.filter.program = false ∧ s = s' := by
  rw [checked, ← problem?_eq_none_iff]
  cases s.problem? <;> simp

/-- The settings of a text are those of its table, just if their program is not blank. -/
theorem ofText_eq_ok_iff {t : List Char} {s : Settings} :
    ofText t = .ok s ↔ ∃ table, Toml.parse? t = some table ∧ ofTable table = .ok s ∧
      isBlankText s.filter.program = false := by
  rw [ofText]
  cases hparse : Toml.parse? t with
  | none => simp
  | some table =>
    cases htable : ofTable table with
    | error f => simp [htable]
    | ok s' =>
      simp only [htable, checked_eq_ok_iff, Option.some.injEq, exists_eq_left', Except.ok.injEq]
      constructor
      · rintro ⟨hblank, rfl⟩
        exact ⟨rfl, hblank⟩
      · rintro ⟨rfl, hblank⟩
        exact ⟨hblank, rfl⟩

/-- The settings of a file are those of its text. -/
theorem ofFile_eq_ok_iff {disk : Disk} {path : String} {s : Settings} :
    ofFile disk path = .ok s ↔ ∃ t, disk.readText path = .ok t ∧ ofText t = .ok s := by
  rw [ofFile]
  cases hread : disk.readText path with
  | error e => simp
  | ok t => simp only [mapError_eq_ok_iff, Except.ok.injEq, exists_eq_left']

end Settings

namespace FileSettings

/-- The program that is left is not blank, just if none is set or that one is not blank. -/
theorem isBlankText_settings {file : FileSettings} :
    isBlankText file.settings.filter.program = false ↔
      ∀ program ∈ file.program, isBlankText program = false := by
  have hdefault : isBlankText "jq" = false := by decide
  cases hprogram : file.program <;> simp [settings, hprogram, hdefault]

/-- The settings of a file are what it sets over the default settings, just if it is accepted. -/
theorem ofFile_eq_ok_iff {disk : Disk} {path : String} {s : Settings} :
    Settings.ofFile disk path = .ok s ↔ ∃ file, Accepted disk path file ∧ s = file.settings := by
  rw [Settings.ofFile_eq_ok_iff]
  constructor
  · rintro ⟨t, hread, ht⟩
    obtain ⟨table, hparse, htable, hblank⟩ := Settings.ofText_eq_ok_iff.1 ht
    have hs := Settings.ofTable_eq_settings (Toml.parse?_distinct hparse) htable
    rw [hs, isBlankText_settings] at hblank
    exact ⟨ofTable table, ⟨t, table, hread, hparse, ⟨s, htable⟩, rfl, hblank⟩, hs⟩
  · rintro ⟨file, ⟨t, table, hread, hparse, ⟨s', htable⟩, rfl, hblank⟩, rfl⟩
    have hs := Settings.ofTable_eq_settings (Toml.parse?_distinct hparse) htable
    rw [hs] at htable
    exact ⟨t, hread, Settings.ofText_eq_ok_iff.2 ⟨table, hparse, htable,
      isBlankText_settings.2 hblank⟩⟩

/-- A file that cannot be read is not accepted. -/
theorem not_accepted_of_readText {disk : Disk} {path : String} {e : OsError}
    (h : disk.readText path = .error e) (file : FileSettings) : ¬ Accepted disk path file := by
  rintro ⟨text, table, hread, -⟩
  rw [h] at hread
  cases hread

/-- A file that is not accepted is refused. -/
theorem ofFile_error {disk : Disk} {path : String} (h : ∀ file, ¬ Accepted disk path file) :
    ∃ e, Settings.ofFile disk path = .error e := by
  cases hfile : Settings.ofFile disk path with
  | error e => exact ⟨e, rfl⟩
  | ok s =>
    obtain ⟨file, haccepted, -⟩ := ofFile_eq_ok_iff.1 hfile
    exact absurd haccepted (h file)

end FileSettings

end HclQuery
