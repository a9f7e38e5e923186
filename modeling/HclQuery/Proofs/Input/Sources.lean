import HclQuery.Input

/-!
# Input made of any sources

Sources are read in order, and standard input is one of them wherever a dash stands.  It is read to
its end by the first dash, so that nothing is left for another one.  The first source that cannot be
read ends everything.

Main definitions:

- {lit}`Input.Gives`: the bytes of one source after others.
- {lit}`Input.Contents`: the bytes of sources one after the other.
- {lit}`Input.Fails`: why a source cannot be read.

Main results:

- Theorem {lit}`Input.readAll_eq_ok_iff`: what is read of sources.
- Theorem {lit}`Input.readAll_eq_error_iff`: why sources are not read.
- Theorem {lit}`Input.gatherFrom_sources`: the input made of any sources.
-/

namespace HclQuery.Input

/-! ## Single sources -/

/-- The bytes that a source gives after others. -/
inductive Gives (disk : Disk) (stdin : Stdin) (before : List String) :
    String → List UInt8 → Prop where
  /-- The first dash gives all of standard input. -/
  | stdin {bytes : List UInt8} (first : dash ∉ before) (read : stdin = .ok bytes) :
    Gives disk stdin before dash bytes
  /-- Any other dash gives nothing. -/
  | drained (again : dash ∈ before) : Gives disk stdin before dash []
  /-- A path gives what is in its file. -/
  | path {path : String} {entry : Entry} {bytes : List UInt8} (ne_dash : path ≠ dash)
    (opened : disk.openAt path = .ok entry) (read : Disk.contents entry = .ok bytes) :
    Gives disk stdin before path bytes

/-- Why a source cannot be opened or read. -/
inductive Fails (disk : Disk) (stdin : Stdin) : String → InputError → Prop where
  /-- Standard input cannot be read. -/
  | stdin {e : String} (unread : stdin = .error e) :
    Fails disk stdin dash (.unreadable stdinName e)
  /-- The path leads nowhere, or to something that cannot be opened. -/
  | unopened {path : String} {e : OsError} (ne_dash : path ≠ dash)
    (closed : disk.openAt path = .error e) : Fails disk stdin path (.unopened path e.message)
  /-- What is opened cannot be read. -/
  | unreadable {path : String} {entry : Entry} {e : OsError} (ne_dash : path ≠ dash)
    (opened : disk.openAt path = .ok entry) (unread : Disk.contents entry = .error e) :
    Fails disk stdin path (.unreadable path e.message)

/-- The bytes that sources give after others, source by source. -/
inductive Contents (disk : Disk) (stdin : Stdin) :
    List String → List String → List (List UInt8) → Prop where
  | nil (before : List String) : Contents disk stdin before [] []
  | cons {before : List String} {path : String} {bytes : List UInt8} {paths : List String}
    {rest : List (List UInt8)} (first : Gives disk stdin before path bytes)
    (others : Contents disk stdin (before ++ [path]) paths rest) :
    Contents disk stdin before (path :: paths) (bytes :: rest)

/-- A source can be opened and read. -/
def Readable (disk : Disk) (stdin : Stdin) (path : String) : Prop :=
  ∀ e, ¬ Fails disk stdin path e

/-- What is left of standard input after some sources. -/
def left (stdin : Stdin) (before : List String) : Stdin :=
  if dash ∈ before then .ok [] else stdin

section

variable {disk : Disk} {stdin : Stdin} {before : List String} {path : String}

theorem left_nil : left stdin [] = stdin :=
  if_neg List.not_mem_nil

/-- A source that is not the dash leaves the standard input as it is. -/
theorem left_concat_of_ne (h : path ≠ dash) :
    left stdin (before ++ [path]) = left stdin before := by
  simp [left, Ne.symm h]

/-- Once a dash is among the sources, nothing of the standard input is left. -/
theorem left_concat_dash : left stdin (before ++ [dash]) = .ok [] := by
  simp [left]

/-- A file is read when it can be opened and has contents. -/
theorem readPath_eq_ok_iff {bytes : List UInt8} :
    readPath disk path = .ok bytes ↔
      ∃ entry, disk.openAt path = .ok entry ∧ Disk.contents entry = .ok bytes := by
  rw [readPath]
  cases disk.openAt path with
  | error e => simp
  | ok entry => cases hread : Disk.contents entry <;> simp [hread]

/-- A file is not read when it cannot be opened, or has no contents. -/
theorem readPath_eq_error_iff {e : InputError} :
    readPath disk path = .error e ↔
      (∃ os, disk.openAt path = .error os ∧ e = .unopened path os.message) ∨
        ∃ entry os, disk.openAt path = .ok entry ∧ Disk.contents entry = .error os ∧
          e = .unreadable path os.message := by
  rw [readPath]
  cases disk.openAt path with
  | error os => simp [eq_comm]
  | ok entry => cases hread : Disk.contents entry <;> simp [hread, eq_comm]

/-- A source that is not the dash is a file. -/
theorem readSource_of_ne (h : path ≠ dash) :
    readSource disk stdin path = (readPath disk path).map fun bytes => (bytes, stdin) :=
  if_neg h

/-- The dash is the standard input, of which nothing is left. -/
theorem readSource_dash_ok (bytes : List UInt8) :
    readSource disk (.ok bytes) dash = .ok (bytes, .ok []) :=
  if_pos rfl

/-- The dash fails when the standard input does. -/
theorem readSource_dash_error (e : String) :
    readSource disk (.error e) dash = .error (.unreadable stdinName e) :=
  if_pos rfl

/-! ### What sources give -/

/-- After a dash, another one gives nothing. -/
theorem gives_dash_of_mem {bytes : List UInt8} (h : dash ∈ before) :
    Gives disk stdin before dash bytes ↔ bytes = [] := by
  constructor
  · intro hgives
    cases hgives with
    | stdin first _ => exact absurd h first
    | drained _ => rfl
    | path ne_dash _ _ => exact absurd rfl ne_dash
  · rintro rfl
    exact .drained h

/-- The first dash gives the standard input. -/
theorem gives_dash_of_not_mem {bytes : List UInt8} (h : dash ∉ before) :
    Gives disk stdin before dash bytes ↔ stdin = .ok bytes := by
  constructor
  · intro hgives
    cases hgives with
    | stdin _ read => exact read
    | drained again => exact absurd again h
    | path ne_dash _ _ => exact absurd rfl ne_dash
  · exact .stdin h

/-- A source that is not the dash gives its contents. -/
theorem gives_of_ne {bytes : List UInt8} (h : path ≠ dash) :
    Gives disk stdin before path bytes ↔ readPath disk path = .ok bytes := by
  rw [readPath_eq_ok_iff]
  constructor
  · intro hgives
    cases hgives with
    | stdin _ _ => exact absurd rfl h
    | drained _ => exact absurd rfl h
    | path _ opened read => exact ⟨_, opened, read⟩
  · rintro ⟨entry, opened, read⟩
    exact .path h opened read

/-- The dash fails just when the standard input cannot be read. -/
theorem fails_dash {e : InputError} :
    Fails disk stdin dash e ↔ ∃ s, stdin = .error s ∧ e = .unreadable stdinName s := by
  constructor
  · intro hfails
    cases hfails with
    | stdin unread => exact ⟨_, unread, rfl⟩
    | unopened ne_dash _ => exact absurd rfl ne_dash
    | unreadable ne_dash _ _ => exact absurd rfl ne_dash
  · rintro ⟨s, hs, rfl⟩
    exact .stdin hs

/-- A source that is not the dash fails when it cannot be read. -/
theorem fails_of_ne {e : InputError} (h : path ≠ dash) :
    Fails disk stdin path e ↔ readPath disk path = .error e := by
  rw [readPath_eq_error_iff]
  constructor
  · intro hfails
    cases hfails with
    | stdin _ => exact absurd rfl h
    | unopened _ closed => exact .inl ⟨_, closed, rfl⟩
    | unreadable _ opened unread => exact .inr ⟨_, _, opened, unread, rfl⟩
  · rintro (⟨os, closed, rfl⟩ | ⟨entry, os, opened, unread, rfl⟩)
    · exact .unopened h closed
    · exact .unreadable h opened unread

/-! ### How sources are read -/

/-- A source is read just if it gives something, and then the rest of standard input is left. -/
theorem readSource_eq_ok_iff {bytes : List UInt8} {rest : Stdin} :
    readSource disk (left stdin before) path = .ok (bytes, rest) ↔
      Gives disk stdin before path bytes ∧ rest = left stdin (before ++ [path]) := by
  by_cases hdash : path = dash
  · subst hdash
    rw [left_concat_dash]
    by_cases hfirst : dash ∈ before
    · rw [gives_dash_of_mem hfirst, left, if_pos hfirst, readSource_dash_ok]
      simp [eq_comm]
    · rw [gives_dash_of_not_mem hfirst, left, if_neg hfirst]
      cases stdin <;> simp [readSource_dash_ok, readSource_dash_error, eq_comm]
  · rw [readSource_of_ne hdash, left_concat_of_ne hdash, gives_of_ne hdash]
    cases readPath disk path <;> simp [Except.map, eq_comm]

/-- It is not read just if it fails, unless it is a dash that follows another one. -/
theorem readSource_eq_error_iff {e : InputError} (h : ∀ p ∈ before, Readable disk stdin p) :
    readSource disk (left stdin before) path = .error e ↔ Fails disk stdin path e := by
  by_cases hdash : path = dash
  · subst hdash
    rw [fails_dash]
    by_cases hfirst : dash ∈ before
    · -- the earlier dash was read, so that standard input can be read
      rw [left, if_pos hfirst, readSource_dash_ok]
      cases stdin with
      | error s => exact absurd (.stdin rfl) (h dash hfirst (.unreadable stdinName s))
      | ok bytes => simp
    · rw [left, if_neg hfirst]
      cases stdin <;> simp [readSource_dash_ok, readSource_dash_error, eq_comm]
  · rw [readSource_of_ne hdash, fails_of_ne hdash]
    cases readPath disk path <;> simp [Except.map]

/-- A source that gives something can be read. -/
theorem Gives.readable {bytes : List UInt8} (h : Gives disk stdin before path bytes)
    (hbefore : ∀ p ∈ before, Readable disk stdin p) : Readable disk stdin path := by
  intro e hfails
  have herror := (readSource_eq_error_iff hbefore).2 hfails
  rw [readSource_eq_ok_iff.2 ⟨h, rfl⟩] at herror
  cases herror

/-- A source that can be read gives something. -/
theorem Readable.exists_gives (h : Readable disk stdin path)
    (hbefore : ∀ p ∈ before, Readable disk stdin p) :
    ∃ bytes, Gives disk stdin before path bytes := by
  cases hread : readSource disk (left stdin before) path with
  | error e => exact absurd ((readSource_eq_error_iff hbefore).1 hread) (h e)
  | ok r => exact ⟨r.1, (readSource_eq_ok_iff.1 hread).1⟩

/-- Everything before a place in a list can be read, and so can what stands at the place. -/
theorem readable_concat (hbefore : ∀ p ∈ before, Readable disk stdin p)
    (hpath : Readable disk stdin path) : ∀ p ∈ before ++ [path], Readable disk stdin p := by
  simpa [or_imp, forall_and] using And.intro hbefore hpath

/-! ## Sources in order -/

variable {paths : List String}

/-- Sources are read just if each gives something, and each is followed by a newline. -/
theorem readAll_eq_ok_iff {bytes : List UInt8} :
    readAll disk (left stdin before) paths = .ok bytes ↔
      ∃ contents, Contents disk stdin before paths contents ∧
        bytes = contents.flatMap fun c => c ++ [0x0a] := by
  induction paths generalizing before bytes with
  | nil =>
    rw [readAll, Except.ok.injEq]
    constructor
    · rintro rfl
      exact ⟨[], .nil before, rfl⟩
    · rintro ⟨_, ⟨⟩, rfl⟩
      rfl
  | cons path paths ih =>
    rw [readAll]
    constructor
    · intro h
      split at h
      · cases h
      · next first rest hfirst =>
        rcases readSource_eq_ok_iff.1 hfirst with ⟨hgives, rfl⟩
        split at h
        · cases h
        · next others hothers =>
          rcases ih.1 hothers with ⟨contents, hcontents, rfl⟩
          cases h
          exact ⟨first :: contents, .cons hgives hcontents, by simp⟩
    · rintro ⟨_, ⟨⟩ | ⟨hgives, hcontents⟩, rfl⟩
      rw [readSource_eq_ok_iff.2 ⟨hgives, rfl⟩]
      simp only
      rw [ih.2 ⟨_, hcontents, rfl⟩]
      simp

/-- Sources are not read just if one of them fails and all before it can be read. -/
theorem readAll_eq_error_iff {e : InputError} (hbefore : ∀ p ∈ before, Readable disk stdin p) :
    readAll disk (left stdin before) paths = .error e ↔
      ∃ front path back, paths = front ++ path :: back ∧
        (∀ p ∈ front, Readable disk stdin p) ∧ Fails disk stdin path e := by
  induction paths generalizing before with
  | nil => simp [readAll]
  | cons path paths ih =>
    rw [readAll]
    constructor
    · intro h
      split at h
      · next hfirst =>
        cases h
        exact ⟨[], path, paths, rfl, by simp, (readSource_eq_error_iff hbefore).1 hfirst⟩
      · next first rest hfirst =>
        rcases readSource_eq_ok_iff.1 hfirst with ⟨hgives, rfl⟩
        have hpath := hgives.readable hbefore
        split at h
        · next hothers =>
          cases h
          rcases (ih (readable_concat hbefore hpath)).1 hothers with
            ⟨front, p, back, rfl, hfront, hp⟩
          exact ⟨path :: front, p, back, rfl, by simpa using ⟨hpath, hfront⟩, hp⟩
        · cases h
    · rintro ⟨front, p, back, hpaths, hfront, hp⟩
      cases front with
      | nil =>
        cases hpaths
        rw [(readSource_eq_error_iff hbefore).2 hp]
      | cons q front =>
        cases hpaths
        rw [List.forall_mem_cons] at hfront
        rcases hfront.1.exists_gives hbefore with ⟨first, hgives⟩
        rw [readSource_eq_ok_iff.2 ⟨hgives, rfl⟩]
        simp only
        rw [(ih (readable_concat hbefore hfront.1)).2 ⟨front, p, back, rfl, hfront.2, hp⟩]

/-- Sources give something just if each of them can be read. -/
theorem exists_contents_iff (hbefore : ∀ p ∈ before, Readable disk stdin p) :
    (∃ contents, Contents disk stdin before paths contents) ↔
      ∀ path ∈ paths, Readable disk stdin path := by
  induction paths generalizing before with
  | nil => exact ⟨by simp, fun _ => ⟨[], .nil before⟩⟩
  | cons path paths ih =>
    rw [List.forall_mem_cons]
    constructor
    · rintro ⟨_, ⟨⟩ | ⟨hgives, hcontents⟩⟩
      have hpath := hgives.readable hbefore
      exact ⟨hpath, (ih (readable_concat hbefore hpath)).1 ⟨_, hcontents⟩⟩
    · rintro ⟨hpath, hpaths⟩
      rcases hpath.exists_gives hbefore with ⟨bytes, hgives⟩
      rcases (ih (readable_concat hbefore hpath)).2 hpaths with ⟨contents, hcontents⟩
      exact ⟨bytes :: contents, .cons hgives hcontents⟩

end

/-! ## The input -/

/-- No paths are the same as one dash. -/
theorem sources_eq (paths : List String) :
    sources paths = if paths = [] then [dash] else paths := by
  cases paths <;> rfl

section

variable {disk : Disk} {stdin : Stdin} {paths : List String}

/-- The input has what the sources give, each followed by a newline. -/
theorem gatherFrom_eq_ok_iff {input : Input} :
    gatherFrom disk stdin paths = .ok input ↔
      ∃ contents, Contents disk stdin [] (sources paths) contents ∧
        input = ⟨nameOf (sources paths), contents.flatMap fun c => c ++ [0x0a]⟩ := by
  have hread : ∀ bytes, readAll disk stdin (sources paths) = .ok bytes ↔
      ∃ contents, Contents disk stdin [] (sources paths) contents ∧
        bytes = contents.flatMap fun c => c ++ [0x0a] := by
    intro bytes
    rw [← readAll_eq_ok_iff, left_nil]
  constructor
  · intro h
    rw [gatherFrom] at h
    cases hbytes : readAll disk stdin (sources paths) with
    | error e =>
      rw [hbytes] at h
      cases h
    | ok bytes =>
      rw [hbytes] at h
      cases h
      rcases (hread bytes).1 hbytes with ⟨contents, hcontents, rfl⟩
      exact ⟨contents, hcontents, rfl⟩
  · rintro ⟨contents, hcontents, rfl⟩
    rw [gatherFrom, (hread _).2 ⟨contents, hcontents, rfl⟩]
    rfl

/-- There is none just if a source fails and all before it can be read. -/
theorem gatherFrom_eq_error_iff {e : InputError} :
    gatherFrom disk stdin paths = .error e ↔
      ∃ front path back, sources paths = front ++ path :: back ∧
        (∀ p ∈ front, Readable disk stdin p) ∧ Fails disk stdin path e := by
  rw [← readAll_eq_error_iff (List.forall_mem_nil _), left_nil, gatherFrom]
  cases readAll disk stdin (sources paths) <;> simp [Except.map]

/-- There is some just if every source can be read. -/
theorem exists_gatherFrom_iff :
    (∃ input, gatherFrom disk stdin paths = .ok input) ↔
      ∀ path ∈ sources paths, Readable disk stdin path := by
  rw [← exists_contents_iff (List.forall_mem_nil _)]
  simp only [gatherFrom_eq_ok_iff]
  constructor
  · rintro ⟨-, contents, hcontents, -⟩
    exact ⟨contents, hcontents⟩
  · rintro ⟨contents, hcontents⟩
    exact ⟨_, contents, hcontents, rfl⟩

end

/-- Input is gathered just if every source can be read, and then it has the contents of the sources
in their order, each with a newline after it, where only the first dash gives what standard input
has.  Otherwise the first source that cannot be opened or read is what is said to fail.  No paths
are the same as one dash. -/
theorem gatherFrom_sources (disk : Disk) (stdin : Stdin) (paths : List String) :
    let listed := if paths = [] then [dash] else paths
    (∀ input, gatherFrom disk stdin paths = .ok input ↔
      ∃ contents, Contents disk stdin [] listed contents ∧
        input = ⟨nameOf listed, contents.flatMap fun c => c ++ [0x0a]⟩) ∧
    ((∃ input, gatherFrom disk stdin paths = .ok input) ↔
      ∀ path ∈ listed, Readable disk stdin path) ∧
    (∀ e, gatherFrom disk stdin paths = .error e ↔
      ∃ front path back, listed = front ++ path :: back ∧
        (∀ p ∈ front, Readable disk stdin p) ∧ Fails disk stdin path e) ∧
    gatherFrom disk stdin [] = gatherFrom disk stdin [dash] := by
  intro listed
  have hlisted : listed = sources paths := (sources_eq paths).symm
  rw [hlisted]
  exact ⟨fun _ => gatherFrom_eq_ok_iff, exists_gatherFrom_iff, fun _ => gatherFrom_eq_error_iff,
    rfl⟩

/-- The second of two dashes gives nothing but its newline. -/
example (disk : Disk) (bytes : List UInt8) :
    gatherFrom disk (.ok bytes) [dash, dash] = .ok ⟨"COMPOSITE", bytes ++ [0x0a, 0x0a]⟩ := rfl

end HclQuery.Input
