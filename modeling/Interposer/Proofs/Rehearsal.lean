import Interposer.Proofs.Host
import Interposer.Rehearsal

/-!
# What a rehearsal leaves behind

What a step gives is told by what it asks for and how it is to end, and by nothing that came before
it. What it adds to the ledger is one line and, unless the spawn fails, one child that is created
and given back in the same step. So after every step the ledger is an account of the steps so far.
-/

namespace Interposer.Rehearsal

open CommandLine

/-- What running a line comes to where it is to end in this way. -/
def Outcome.result (outcome : Outcome) (line : String) : Except Failure Int :=
  match outcome.spawnError, outcome.statusError with
  | some reason, _ => .error ⟨.spawn, invokedProgram line, reason⟩
  | none, some reason => .error ⟨.status, invokedProgram line, reason⟩
  | none, none => .ok outcome.exitCode

namespace Step

/-- The line that a step is to spawn. -/
def made (step : Step) : String := step.substitution.apply step.line

/-- Whether a step gets as far as a child. -/
def spawns (step : Step) : Bool := step.outcome.spawnError.isNone

def result (step : Step) : Except Failure Int := step.outcome.result step.made

/-- What a step gives, told by the step alone. -/
def reply (step : Step) : Reply :=
  match step.request, step.result with
  | .attempt, result => .attempted result
  | .run, .ok exitCode => .ran exitCode ""
  | .run, .error failure => .ran 125 (failure.text ++ "\n")

end Step

/-- The ledger accounts for these steps: each was one line, and each child was given back. -/
structure Ledger.Accounts (ledger : Ledger) (steps : List Step) : Prop where
  lines : ledger.lines = steps.map Step.made
  created : ledger.created = steps.countP Step.spawns
  released : ledger.released = steps.countP Step.spawns

theorem Ledger.accounts_empty : Ledger.Accounts {} [] := ⟨rfl, rfl, rfl⟩

theorem Ledger.Accounts.live {ledger : Ledger} {steps : List Step}
    (haccounts : ledger.Accounts steps) : ledger.live = 0 := by
  rw [Ledger.live, haccounts.created, haccounts.released, Int.sub_self]

/-! ### One step -/

theorem Step.stderr_of_reply {step : Step} {exitCode : Int} {stderr : String}
    (hran : step.reply = .ran exitCode stderr) :
    stderr ≠ "" ↔ ∃ failure, step.result = .error failure := by
  obtain ⟨request, substitution, line, outcome⟩ := step
  cases request with
  | attempt => simp [reply] at hran
  | run =>
      rw [reply] at hran
      cases hresult : result ⟨.run, substitution, line, outcome⟩ with
      | ok code =>
          simp only [hresult, Reply.ran.injEq] at hran
          simp [← hran.2]
      | error failure =>
          simp only [hresult, Reply.ran.injEq] at hran
          simp [← hran.2]

/-- The ledger after one more line, and one child created and given back if the spawn succeeds. -/
def Ledger.enter (ledger : Ledger) (line : String) (spawned : Bool) : Ledger :=
  { ledger with
    lines := ledger.lines ++ [line]
    created := ledger.created + spawned.toNat
    released := ledger.released + spawned.toNat }

theorem spawn_host (outcome : Outcome) (line : String) (ledger : Ledger) :
    (host outcome).spawn line ledger =
      match outcome.spawnError with
      | some reason =>
          (.error ⟨.spawn, invokedProgram line, reason⟩,
            { ledger with lines := ledger.lines ++ [line] })
      | none =>
          (.ok (invokedProgram line),
            { ledger with lines := ledger.lines ++ [line], created := ledger.created + 1 }) := by
  obtain ⟨spawnError, statusError, exitCode⟩ := outcome
  cases spawnError with
  | some reason => rfl
  | none => rfl

theorem wait_host (outcome : Outcome) (program : String) (ledger : Ledger) :
    (host outcome).wait program ledger =
      match outcome.statusError with
      | some reason => (.error ⟨.status, program, reason⟩, ledger)
      | none => (.ok outcome.exitCode, ledger) := by
  obtain ⟨spawnError, statusError, exitCode⟩ := outcome
  cases statusError with
  | some reason => rfl
  | none => rfl

theorem attempt_host (outcome : Outcome) (substitution : Substitution) (line : String)
    (ledger : Ledger) :
    (host outcome).attempt substitution line ledger =
      (outcome.result (substitution.apply line),
        ledger.enter (substitution.apply line) outcome.spawnError.isNone) := by
  have hrecord : ∀ event ledger, ((host outcome).record event ledger).2 = ledger :=
    fun _ _ => rfl
  simp only [Host.attempt_apply, hrecord, spawn_host, wait_host, Outcome.result]
  cases outcome.spawnError with
  | some reason => rfl
  | none =>
      cases outcome.statusError with
      | some reason => rfl
      | none => rfl

theorem run_host (outcome : Outcome) (substitution : Substitution) (line : String)
    (ledger : Ledger) :
    (host outcome).run substitution line ledger =
      match (host outcome).attempt substitution line ledger with
      | (.ok exitCode, after) => (exitCode, after)
      | (.error failure, after) =>
          (failureExitCode, { after with stderr := after.stderr ++ (failure.text ++ "\n") }) := by
  rw [Host.run_apply]
  obtain ⟨result, after⟩ := (host outcome).attempt substitution line ledger
  cases result with
  | error failure => rfl
  | ok exitCode => rfl

/-- A rehearsed child is the name of its program, so a failed wait for it names that program. -/
theorem namesPrograms_host (outcome : Outcome) : (host outcome).NamesPrograms where
  spawn := by
    intro line ledger spawned failure hspawn
    rw [spawn_host] at hspawn
    cases herror : outcome.spawnError with
    | some reason =>
        rw [herror] at hspawn
        rw [← Except.error.inj (Prod.mk.inj hspawn).1]
    | none =>
        rw [herror] at hspawn
        exact nomatch (Prod.mk.inj hspawn).1
  wait := by
    intro line ledger spawned waited child failure hspawn hwait
    rw [spawn_host] at hspawn
    rw [wait_host] at hwait
    cases herror : outcome.spawnError with
    | some reason =>
        rw [herror] at hspawn
        exact nomatch (Prod.mk.inj hspawn).1
    | none =>
        rw [herror] at hspawn
        obtain rfl : invokedProgram line = child := Except.ok.inj (Prod.mk.inj hspawn).1
        cases hstatus : outcome.statusError with
        | some reason =>
            rw [hstatus] at hwait
            rw [← Except.error.inj (Prod.mk.inj hwait).1]
        | none =>
            rw [hstatus] at hwait
            exact nomatch (Prod.mk.inj hwait).1

theorem Step.take_eq (step : Step) (ledger : Ledger) :
    ∃ stderr, step.take ledger =
      (step.reply, { ledger.enter step.made step.spawns with stderr := stderr }) := by
  obtain ⟨request, substitution, line, outcome⟩ := step
  have hattempt := attempt_host outcome substitution line { ledger with stderr := "" }
  cases request with
  | attempt =>
      have htake : Step.take ⟨.attempt, substitution, line, outcome⟩ ledger =
          let done := (host outcome).attempt substitution line { ledger with stderr := "" }
          (.attempted done.1, done.2) := rfl
      rw [htake, hattempt]
      exact ⟨"", rfl⟩
  | run =>
      have htake : Step.take ⟨.run, substitution, line, outcome⟩ ledger =
          let done := (host outcome).run substitution line { ledger with stderr := "" }
          (.ran done.1 done.2.stderr, done.2) := rfl
      rw [htake, run_host, hattempt, reply, result, made]
      cases outcome.result (substitution.apply line) with
      | ok exitCode => exact ⟨"", rfl⟩
      | error failure =>
          exact ⟨failure.text ++ "\n", by simp [Ledger.enter, failureExitCode, spawns]⟩

/-! ### A whole rehearsal -/

theorem Ledger.Accounts.take {ledger : Ledger} {before : List Step}
    (haccounts : ledger.Accounts before) (step : Step) :
    (step.take ledger).2.Accounts (before ++ [step]) := by
  obtain ⟨stderr, htake⟩ := step.take_eq ledger
  have hcount : (before ++ [step]).countP Step.spawns =
      before.countP Step.spawns + step.spawns.toNat := by
    rw [List.countP_append, List.countP_singleton]
    cases step.spawns <;> rfl
  rw [htake]
  refine ⟨?_, ?_, ?_⟩
  · rw [List.map_append, ← haccounts.lines]
    rfl
  · rw [hcount, ← haccounts.created]
    rfl
  · rw [hcount, ← haccounts.released]
    rfl

theorem rehearseFrom_get {ledger : Ledger} {before : List Step}
    (haccounts : ledger.Accounts before) (between : List Step) (step : Step) (after : List Step) :
    ∃ seen : Ledger, seen.Accounts (before ++ between ++ [step]) ∧
      (rehearseFrom ledger (between ++ step :: after))[between.length]? =
        some (step.reply, seen) := by
  induction between generalizing ledger before with
  | nil =>
      obtain ⟨stderr, htake⟩ := step.take_eq ledger
      refine ⟨(step.take ledger).2, by simpa using haccounts.take step, ?_⟩
      rw [List.nil_append, rehearseFrom, List.length_nil, List.getElem?_cons_zero, htake]
  | cons first between ih =>
      obtain ⟨seen, hseen, hget⟩ := ih (haccounts.take first)
      exact ⟨seen, by simpa using hseen, hget⟩

/-- After each step of a rehearsal the ledger has one line for every step so far and no child that
was not given back, and the reply is the one that the step gives by itself. A run that failed is one
that wrote to standard error, whatever its exit code. -/
theorem rehearse_accounts (before : List Step) (step : Step) (after : List Step) :
    ∃ ledger,
      (rehearse (before ++ step :: after))[before.length]? = some (step.reply, ledger) ∧
      ledger.lines = (before ++ [step]).map (fun step => step.substitution.apply step.line) ∧
      ledger.live = 0 ∧
      ledger.released = (before ++ [step]).countP (fun step => step.outcome.spawnError.isNone) ∧
      ∀ exitCode stderr, step.reply = .ran exitCode stderr →
        (stderr ≠ "" ↔ ∃ failure, step.result = .error failure) := by
  obtain ⟨ledger, haccounts, hget⟩ := rehearseFrom_get Ledger.accounts_empty before step after
  rw [List.nil_append] at haccounts
  exact ⟨ledger, hget, haccounts.lines, haccounts.live, haccounts.released,
    fun _ _ => Step.stderr_of_reply⟩

/-- A child that exits with the code of a failure, after a spawn and a wait that failed. -/
theorem rehearse_accounts_exit_125 :
    let failing : List Step :=
      [⟨.run, ⟨"cl", "", "/link"⟩, "a b",
          ⟨some "No such file or directory", some "Error code (6)", 0⟩⟩,
        ⟨.attempt, ⟨"cl", "", ""⟩, "a \"b", ⟨none, some "Error code (6)", 0⟩⟩]
    let step : Step := ⟨.run, ⟨"\"c d\"", "-x", ""⟩, "a", ⟨none, none, 125⟩⟩
    step.reply = .ran 125 "" ∧
      ∃ ledger, (rehearse (failing ++ [step]))[2]? = some (.ran 125 "", ledger) ∧
        ledger.lines = ["cl  b /link", "cl  \"b", "\"c d\" -x"] ∧ ledger.live = 0 ∧
        ledger.released = 2 ∧ ("" ≠ "" ↔ ∃ failure, step.result = .error failure) := by
  intro failing step
  have hran : step.reply = .ran 125 "" := rfl
  obtain ⟨ledger, hget, hlines, hlive, hreleased, hstderr⟩ := rehearse_accounts failing step []
  exact ⟨hran, ledger, hget, hlines.trans (by decide), hlive, hreleased.trans (by decide),
    hstderr 125 "" hran⟩

end Interposer.Rehearsal
