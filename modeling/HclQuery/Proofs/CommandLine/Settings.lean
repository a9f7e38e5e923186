import HclQuery.CommandLine.Run
import HclQuery.Proofs.Host
import HclQuery.Proofs.Settings.Layers

/-!
# The settings that queries run with

A field of the settings is asked for on the command line, in the environment or in a file, in this
order, and has its default value if it is asked for nowhere.  A query is cut in two where its filter
is started: what comes before that is a launch, and what comes after it sees only the launch and the
answer of the filter.

Main definitions:

- {lit}`chosenFile`: the file that settings are read from.
- {lit}`effective`: the settings that are asked for.
- {lit}`launch`: a query up to the start of its filter.
- {lit}`Launch.conclude`: a query from the answer of its filter.

Main results:

- Theorem {lit}`resolveSettings_eq_ok_iff`: the settings of a query.
- Theorem {lit}`ofQuery_eq_conclude`: a query is a launch with the answer of its filter.
- Theorem {lit}`query_settings`: the settings that a filter is started with.
-/

namespace HclQuery.CommandLine

/-! ## Layers -/

/-- The file that settings are read from: the one named on the command line, or else the one that
the environment names, unless that name is blank or there is nothing at it.  A file that is there
and cannot be opened is chosen like any other. -/
def chosenFile (host : Host) (r : QueryRequest) : Option String :=
  r.file.or ((host.environment "TQ_CONFIG").filter fun path =>
    !isBlankText path && (host.disk.find path).isOk)

/-- What the chosen file sets; without a file nothing is set. -/
def FileSets (host : Host) (r : QueryRequest) (file : FileSettings) : Prop :=
  match chosenFile host r with
  | some path => FileSettings.Accepted host.disk path file
  | none => file = .nothing

/-- The settings that are asked for, each in the first place where it is. -/
def effective (host : Host) (r : QueryRequest) (file : FileSettings) : Settings where
  strict := r.strict || file.strict == some true
  filter := {
    program :=
      ((r.program.or ((host.environment "TQ_JQ").filter fun program => !isBlankText program)).or
        file.program).getD "jq"
    args := if r.args = [] then file.args.getD ["-r"] else r.args }

/-- The command line and the environment go over what a file sets. -/
theorem override_withEnvironment (host : Host) (r : QueryRequest) (file : FileSettings) :
    override r (file.settings.withEnvironment host.environment) = effective host r file := by
  have hstrict : (file.strict.getD false || r.strict) =
      (r.strict || file.strict == some true) := by
    rcases file.strict with _ | _ | _ <;> simp
  have hprogram (visible : Option String) : r.program.getD (visible.getD (file.program.getD "jq")) =
      ((r.program.or visible).or file.program).getD "jq" := by
    cases r.program <;> cases visible <;> simp
  rw [Settings.withEnvironment, effective, ← hprogram, ← hstrict]
  rcases hvisible : Settings.visible? host.environment Settings.programVariable with _ | program
  all_goals
    rw [Settings.visible?, Settings.programVariable] at hvisible
    simp [override, FileSettings.settings, hvisible]

/-- The settings are loaded from the chosen file. -/
theorem load_effectiveSource (host : Host) (r : QueryRequest) :
    (effectiveSource host (.locate r.file host.environment)).load host.disk =
      match chosenFile host r with
      | some path => Settings.ofFile host.disk path
      | none => .ok .default := by
  rw [chosenFile]
  cases r.file with
  | some path => rfl
  | none =>
    simp only [SettingsSource.locate, Settings.visible?, Settings.fileVariable, Option.none_or]
    cases host.environment "TQ_CONFIG" with
    | none => rfl
    | some path =>
      cases hblank : isBlankText path <;> cases hthere : (host.disk.find path).isOk <;>
        simp [Option.filter_some, effectiveSource, SettingsSource.load, SettingsSource.path?,
          Disk.leads, hblank, hthere]

/-- Nothing is said about a file that is chosen. -/
theorem warning_of_chosenFile {host : Host} {r : QueryRequest} {path : String}
    (h : chosenFile host r = some path) : warning host (.locate r.file host.environment) = "" := by
  cases hfile : r.file with
  | some path => rfl
  | none =>
    simp only [chosenFile, hfile, Option.none_or, Option.filter_eq_some_iff, Bool.and_eq_true,
      Bool.not_eq_true'] at h
    obtain ⟨hpath, hblank, hthere⟩ := h
    simp [SettingsSource.locate, Settings.visible?, Settings.fileVariable, Option.filter_some,
      warning, Disk.leads, hpath, hblank, hthere]

/-- What is loaded is what the chosen file sets, over the default settings. -/
theorem load_eq_ok_iff {host : Host} {r : QueryRequest} {s : Settings} :
    (effectiveSource host (.locate r.file host.environment)).load host.disk = .ok s ↔
      ∃ file, FileSets host r file ∧ s = file.settings := by
  rw [load_effectiveSource]
  cases hfile : chosenFile host r with
  | some path => simp only [FileSets, hfile, FileSettings.ofFile_eq_ok_iff]
  | none =>
    simp only [FileSets, hfile, Except.ok.injEq, exists_eq_left, FileSettings.settings_nothing]
    exact eq_comm

/-- The settings of a query are those that are asked for, just if the chosen file is accepted and
the program is not blank. -/
theorem resolveSettings_eq_ok_iff {host : Host} {r : QueryRequest} {s : Settings} :
    resolveSettings host r = .ok s ↔
      ∃ file, FileSets host r file ∧ s = effective host r file ∧
        isBlankText s.filter.program = false := by
  rw [resolveSettings]
  constructor
  · intro h
    dsimp only at h
    split at h
    · cases h
    · next loaded hload =>
      obtain ⟨file, hfile, rfl⟩ := load_eq_ok_iff.1 hload
      rw [override_withEnvironment] at h
      split at h
      · cases h
      · next hproblem =>
        cases h
        exact ⟨file, hfile, rfl, Settings.problem?_eq_none_iff.1 hproblem⟩
  · rintro ⟨file, hfile, rfl, hblank⟩
    have hload := load_eq_ok_iff.2 ⟨file, hfile, rfl⟩
    simp only [hload, override_withEnvironment, Settings.problem?_eq_none_iff.2 hblank]

/-- Which file is chosen depends on nothing but its names and whether it is there. -/
theorem chosenFile_congr {host host' : Host} {r r' : QueryRequest} {path : String}
    (hpath : chosenFile host r = some path)
    (henvironment : host'.environment "TQ_CONFIG" = host.environment "TQ_CONFIG")
    (hfind : host'.disk.find path = host.disk.find path) (hr : r'.file = r.file) :
    chosenFile host' r' = some path := by
  rw [chosenFile] at hpath ⊢
  rw [hr, henvironment]
  cases hfile : r.file with
  | some flag => simpa [hfile] using hpath
  | none =>
    simpa [hfile, hfind, Option.filter_eq_some_iff] using hpath

/-- A chosen file that is not accepted is refused, whatever the rest of the query asks for and
whatever else there is on the host. -/
theorem resolveSettings_error {host : Host} {r : QueryRequest} {path : String}
    (hpath : chosenFile host r = some path)
    (hfile : ∀ file, ¬ FileSettings.Accepted host.disk path file) :
    ∃ f, ∀ (host' : Host) (r' : QueryRequest),
      host'.environment "TQ_CONFIG" = host.environment "TQ_CONFIG" →
      host'.disk.find path = host.disk.find path → r'.file = r.file →
      chosenFile host' r' = some path ∧ resolveSettings host' r' = .error f := by
  obtain ⟨e, he⟩ := FileSettings.ofFile_error hfile
  refine ⟨settingsFailure e, fun host' r' henvironment hfind hr => ?_⟩
  have hchosen := chosenFile_congr hpath henvironment hfind hr
  have hread : Settings.ofFile host'.disk path = .error e := by
    rw [← he]
    simp only [Settings.ofFile, Disk.readText, Disk.read, Disk.openAt, hfind]
  refine ⟨hchosen, ?_⟩
  have hload := load_effectiveSource host' r'
  simp only [hchosen, hread] at hload
  simp only [resolveSettings, hload]

/-! ## Launches -/

/-- A filter that is about to be started. -/
structure Launch where
  settings : Settings
  input : Input
  /-- The document of the input. -/
  document : Document

/-- The failure of a query of an input. -/
def refusal (input : Input) (e : QueryError) : Failure :=
  .within s!"query failed for {input.name}" ⟨e.message, e.causes⟩

/-- A query up to the start of its filter. -/
def launch (host : Host) (stdin : List UInt8) (r : QueryRequest) : Except Failure Launch :=
  match resolveSettings host r with
  | .error f => .error f
  | .ok settings =>
    match Run.inputOf host stdin r.files with
    | .error f => .error f
    | .ok input =>
      match toDocument input.bytes with
      | .error e => .error (refusal input (.parse e))
      | .ok document => .ok ⟨settings, input, document⟩

/-- What a query comes to when its filter has answered. -/
def Launch.conclude (l : Launch) (remarks : String) (answer : Except FilterError FilterOutput) :
    Run :=
  match answer with
  | .error e => .failure remarks (refusal l.input (.filter e))
  | .ok o =>
    match Query.convertBack l.settings.strict o.output with
    | .error e => .failure (remarks ++ o.remarks) (refusal l.input e)
    | .ok result => .success result.bytes (remarks ++ o.remarks)

/-- A query is a launch, and then what the answer of its filter makes of that. -/
theorem ofQuery_eq_conclude (host : Host) (stdin : List UInt8) (r : QueryRequest) :
    Run.ofQuery host stdin r =
      let remarks := warning host (.locate r.file host.environment)
      match launch host stdin r with
      | .error f => .failure remarks f
      | .ok l =>
        l.conclude remarks (l.settings.filter.run host r.expression l.document.encode) := by
  rw [Run.ofQuery, launch]
  cases hsettings : resolveSettings host r with
  | error f => rfl
  | ok s =>
    simp only
    cases hinput : Run.inputOf host stdin r.files with
    | error f => rfl
    | ok input =>
      simp only [Run.answerQuery, Run.filterRemarks, Query.execute]
      cases hdocument : toDocument input.bytes with
      | error e => simp [refusal]
      | ok d =>
        simp only [FilterCommand.filter, Launch.conclude]
        cases hanswer : s.filter.run host r.expression d.encode with
        | error e => simp [refusal, Except.map]
        | ok o =>
          simp only [Except.map]
          cases Query.convertBack s.strict o.output <;> simp [refusal]

/-- What a filter is started with. -/
theorem launch_eq_ok_iff {host : Host} {stdin : List UInt8} {r : QueryRequest} {l : Launch} :
    launch host stdin r = .ok l ↔
      resolveSettings host r = .ok l.settings ∧ Run.inputOf host stdin r.files = .ok l.input ∧
        toDocument l.input.bytes = .ok l.document := by
  rw [launch]
  constructor
  · intro h
    split at h
    · cases h
    · next s hsettings =>
      split at h
      · cases h
      · next input hinput =>
        split at h
        · cases h
        · next d hdocument =>
          cases h
          exact ⟨hsettings, hinput, hdocument⟩
  · rintro ⟨hsettings, hinput, hdocument⟩
    simp only [hsettings, hinput, hdocument]

/-- Settings that are refused end a query before anything else is looked at. -/
theorem launch_of_refused {host : Host} {r : QueryRequest} {f : Failure}
    (h : resolveSettings host r = .error f) (stdin : List UInt8) :
    launch host stdin r = .error f := by
  simp only [launch, h]

/-- A query is what the answer of its filter makes of a launch.  There is a launch just if the
chosen file is accepted, the program that is asked for is not blank, and the input is that of a
document; the filter has the settings that are asked for then.  The program of these settings is
started with their arguments and the expression after them, gets the document as JSON, and what
comes of that is the answer.  A chosen file that is not accepted makes the query fail, in the same
way whatever the input, the other files, the rest of the command line and the other variables
are. -/
theorem query_settings (host : Host) (stdin : List UInt8) (r : QueryRequest) :
    (Run.ofQuery host stdin r =
      let remarks := warning host (.locate r.file host.environment)
      match launch host stdin r with
      | .error f => .failure remarks f
      | .ok l =>
        l.conclude remarks (l.settings.filter.run host r.expression l.document.encode)) ∧
    (∀ l, launch host stdin r = .ok l ↔
      (∃ file, FileSets host r file ∧ l.settings = effective host r file) ∧
        isBlankText l.settings.filter.program = false ∧
        Run.inputOf host stdin r.files = .ok l.input ∧
        toDocument l.input.bytes = .ok l.document) ∧
    (∀ l, launch host stdin r = .ok l →
      ∃ answer, Run.ofQuery host stdin r =
          l.conclude (warning host (.locate r.file host.environment)) answer ∧
        ∀ other, host.Starts l.settings.filter.program
          (l.settings.filter.args ++ [r.expression]) l.document.encode other ↔ other = answer) ∧
    ∀ path, chosenFile host r = some path →
      (∀ file, ¬ FileSettings.Accepted host.disk path file) →
      ∃ f, ∀ (host' : Host) (stdin' : List UInt8) (r' : QueryRequest),
        host'.environment "TQ_CONFIG" = host.environment "TQ_CONFIG" →
        host'.disk.find path = host.disk.find path → r'.file = r.file →
        launch host' stdin' r' = .error f ∧ Run.ofQuery host' stdin' r' = .failure "" f := by
  refine ⟨ofQuery_eq_conclude host stdin r, fun l => ?_, fun l hl => ?_, fun path hpath hfile => ?_⟩
  · rw [launch_eq_ok_iff, resolveSettings_eq_ok_iff]
    constructor
    · rintro ⟨⟨file, hsets, hl, hblank⟩, hinput, hdocument⟩
      exact ⟨⟨file, hsets, hl⟩, hblank, hinput, hdocument⟩
    · rintro ⟨⟨file, hsets, hl⟩, hblank, hinput, hdocument⟩
      exact ⟨⟨file, hsets, hl, hblank⟩, hinput, hdocument⟩
  · refine ⟨l.settings.filter.run host r.expression l.document.encode, ?_, fun other => ?_⟩
    · simp only [ofQuery_eq_conclude, hl]
    · rw [← FilterCommand.run_eq_iff]
      exact eq_comm
  · obtain ⟨f, hf⟩ := resolveSettings_error hpath hfile
    refine ⟨f, fun host' stdin' r' henvironment hfind hr => ?_⟩
    obtain ⟨hchosen, hrefused⟩ := hf host' r' henvironment hfind hr
    have hlaunch := launch_of_refused hrefused stdin'
    refine ⟨hlaunch, ?_⟩
    rw [ofQuery_eq_conclude, hlaunch, warning_of_chosenFile hchosen]

/-- A file that sets all there is to set. -/
def fullText : String := "strict = true\nfilter = [\"yq\", [\"-y\"]]\n"

/-- A file that sets a program with no visible character. -/
def blankText : String := "filter.program = \" \"\n"

/-- A host with both files and one that cannot be opened; its environment names a file, and a
program that is there. -/
def layeredHost (file : String) : Host where
  disk := .ofEntries [
    ("full.toml", .ok (.file (Text.Utf8.encode fullText.toList))),
    ("blank.toml", .ok (.file (Text.Utf8.encode blankText.toList))),
    ("locked.toml", .ok (.locked .permissionDenied)),
    ("/bin/gojq", .ok (.program "cat"))]
  environment name :=
    if name = "TQ_CONFIG" then some file
    else if name = "TQ_JQ" then some "gojq"
    else none

/-- A filter that is started with the program of the environment and the arguments of a file, and
files that are refused: one that is blank where it may not be, although the command line asks for
all there is to ask for, and one that cannot be opened. -/
theorem query_settings_layered :
    (∃ l, launch (layeredHost "full.toml") [] ⟨".", [], false, none, [], none⟩ = .ok l ∧
      l.settings = ⟨true, "gojq", ["-y"]⟩ ∧
      ∃ answer, (layeredHost "full.toml").Starts "gojq" ["-y", "."] l.document.encode answer ∧
        Run.ofQuery (layeredHost "full.toml") [] ⟨".", [], false, none, [], none⟩ =
          l.conclude "" answer) ∧
    (∃ f, ∀ stdin, Run.ofQuery (layeredHost "full.toml") stdin
      ⟨".", [], true, some "jq", ["-c"], some "blank.toml"⟩ = .failure "" f) ∧
    ∃ f, ∀ stdin, Run.ofQuery (layeredHost "locked.toml") stdin
      ⟨".", [], true, some "jq", ["-c"], none⟩ = .failure "" f := by
  refine ⟨?_, ?_, ?_⟩
  · have hfile : Settings.ofFile (layeredHost "full.toml").disk "full.toml" =
        .ok ⟨true, "yq", ["-y"]⟩ := ok_of_toOption (by decide +kernel)
    obtain ⟨file, haccepted, hsettings⟩ := FileSettings.ofFile_eq_ok_iff.1 hfile
    have hdocument : toDocument [0x0a] = .ok ⟨[]⟩ := ok_of_toOption (by decide +kernel)
    have heffective : effective (layeredHost "full.toml") ⟨".", [], false, none, [], none⟩ file =
        ⟨true, "gojq", ["-y"]⟩ := by
      rw [← override_withEnvironment, ← hsettings]
      rfl
    obtain ⟨-, hlaunch, hstarts, -⟩ :=
      query_settings (layeredHost "full.toml") [] ⟨".", [], false, none, [], none⟩
    have hl := (hlaunch ⟨⟨true, "gojq", ["-y"]⟩, ⟨"STDIN", [0x0a]⟩, ⟨[]⟩⟩).2
      ⟨⟨file, haccepted, heffective.symm⟩, by decide, rfl, hdocument⟩
    obtain ⟨answer, hrun, hanswer⟩ := hstarts _ hl
    exact ⟨_, hl, rfl, answer, (hanswer answer).2 rfl, hrun⟩
  · obtain ⟨f, hf⟩ := (query_settings (layeredHost "full.toml") []
      ⟨".", [], true, some "jq", ["-c"], some "blank.toml"⟩).2.2.2 "blank.toml" rfl (by
        intro file hfile
        have hok := FileSettings.ofFile_eq_ok_iff.2 ⟨file, hfile, rfl⟩
        have herror :
            (Settings.ofFile (layeredHost "full.toml").disk "blank.toml").isOk = false := by
          decide +kernel
        rw [hok] at herror
        cases herror)
    exact ⟨f, fun stdin => (hf (layeredHost "full.toml") stdin _ rfl rfl rfl).2⟩
  · have hlocked : (layeredHost "locked.toml").disk.find "locked.toml" =
        .ok (.locked .permissionDenied) := rfl
    obtain ⟨f, hf⟩ := (query_settings (layeredHost "locked.toml") []
      ⟨".", [], true, some "jq", ["-c"], none⟩).2.2.2 "locked.toml" rfl
        (FileSettings.not_accepted_of_readText (Disk.readText_of_locked hlocked))
    exact ⟨f, fun stdin => (hf (layeredHost "locked.toml") stdin _ rfl rfl rfl).2⟩

end HclQuery.CommandLine
