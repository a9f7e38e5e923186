import HclQuery.Host

/-!
# What filter programs are started with

A filter program is started with its arguments, the expression and nothing else, and gets the
payload on its standard input.  Its answer is settled by what the host does with these words.

Main definitions:

- {lit}`Host.Starts`: what comes of starting a program.

Main results:

- Theorem {lit}`FilterCommand.run_eq_iff`: what a filter program is started with.
-/

namespace HclQuery

/-- What comes of starting a program with some arguments and a payload. -/
inductive Host.Starts (host : Host) (program : String) (args : List String)
    (payload : List UInt8) : Except FilterError FilterOutput → Prop where
  /-- No program is started with a word that holds a NUL. -/
  | unpassable {w : String} (mem : w ∈ program :: args) (zero : '\x00' ∈ w.toList) :
    Starts host program args payload (.error (.spawn program OsError.nulInArgument.message))
  /-- There is no such program, or it may not be run. -/
  | missing {e : OsError} (passable : ∀ w ∈ program :: args, '\x00' ∉ w.toList)
    (lost : host.search program = .error e) :
    Starts host program args payload (.error (.spawn program e.message))
  /-- The program cannot be run with these words. -/
  | refused {x : Host.Executable} {e : OsError}
    (passable : ∀ w ∈ program :: args, '\x00' ∉ w.toList) (found : host.search program = .ok x)
    (unrun : host.runExecutable x args payload = .error e) :
    Starts host program args payload (.error (.spawn program e.message))
  /-- The program has been run, and is over. -/
  | ended {x : Host.Executable} {o : Shell.Outcome}
    (passable : ∀ w ∈ program :: args, '\x00' ∉ w.toList) (found : host.search program = .ok x)
    (ran : host.runExecutable x args payload = .ok o) :
    Starts host program args payload (FilterCommand.conclude program o)

namespace FilterCommand

/-- Words may be passed to a program when none of them holds a NUL. -/
theorem isPassable_iff {words : List String} :
    isPassable words = true ↔ ∀ w ∈ words, '\x00' ∉ w.toList := by
  simp [isPassable]

section

variable {c : FilterCommand} {host : Host} {expression : String} {payload : List UInt8}

/-- A program that can be started is run, and its answer is settled by how that ends. -/
theorem run_of_passable
    (h : ∀ w ∈ c.program :: (c.args ++ [expression]), '\x00' ∉ w.toList) :
    c.run host expression payload =
      match (host.search c.program).bind fun x =>
        host.runExecutable x (c.args ++ [expression]) payload with
      | .error e => .error (.spawn c.program e.message)
      | .ok o => conclude c.program o :=
  if_pos (isPassable_iff.2 h)

/-- A filter program is started with its arguments and the expression after them, gets the payload,
and answers what comes of that. -/
theorem run_eq_iff {answer : Except FilterError FilterOutput} :
    c.run host expression payload = answer ↔
      host.Starts c.program (c.args ++ [expression]) payload answer := by
  constructor
  · rintro rfl
    by_cases hwords : ∀ w ∈ c.program :: (c.args ++ [expression]), '\x00' ∉ w.toList
    · rw [run_of_passable hwords]
      rcases hfound : host.search c.program with e | x
      · exact .missing hwords hfound
      · simp only [Except.bind]
        rcases hran : host.runExecutable x (c.args ++ [expression]) payload with e | o
        · exact .refused hwords hfound hran
        · exact .ended hwords hfound hran
    · have hunpassable := mt isPassable_iff.1 hwords
      simp only [Classical.not_forall, Classical.not_not] at hwords
      obtain ⟨w, hw, hzero⟩ := hwords
      rw [run, if_neg hunpassable]
      exact .unpassable hw hzero
  · intro h
    cases h with
    | @unpassable w mem zero =>
      have hunpassable := mt isPassable_iff.1 fun hwords => hwords w mem zero
      rw [run, if_neg hunpassable]
    | missing passable lost =>
      rw [run_of_passable passable, lost]
      rfl
    | refused passable found unrun =>
      simp only [run_of_passable passable, found, Except.bind, unrun]
    | ended passable found ran => simp only [run_of_passable passable, found, Except.bind, ran]

end

end FilterCommand

end HclQuery
