import Interposer.Proofs.CommandLine.Seam
import Interposer.Proofs.World.Host

/-!
# What comes of a line

The process of a line is started, does its work and is waited for. How this ends is told by the line
and the world: neither the filter of a host nor anything done before has a part in it.
-/

namespace Interposer

open CommandLine

theorem programOf_split (line : String) : programOf (split line) = invokedProgram line := by
  by_cases hline : line = ""
  · subst hline
    rfl
  · rw [split_of_ne_empty hline]
    rfl

namespace World

/-- What comes of starting the process that a line invokes and waiting for it. -/
def outcome (world : World) (line : String) : Except Failure Int :=
  match world.start (split line) with
  | .error cause => .error ⟨.spawn, invokedProgram line, cause.describe⟩
  | .ok process =>
      if world.reaped then .error ⟨.status, invokedProgram line, (SystemError.code 10).describe⟩
      else match process.ending with
        | .exit code => .ok code.toNat
        | .signal number => .ok (128 + number)

/-- The console after the process of a line has done its work, if it can be started. -/
def workOf (world : World) (line : String) (console : Console) : Console :=
  match world.start (split line) with
  | .error _ => console
  | .ok process => console.addProcess process

variable {world : World} {line : String}

theorem outcome_of_error {cause : SystemError} (hstart : world.start (split line) = .error cause) :
    world.outcome line = .error ⟨.spawn, invokedProgram line, cause.describe⟩ := by
  rw [outcome, hstart]

theorem outcome_of_ok {process : Process} (hstart : world.start (split line) = .ok process) :
    world.outcome line =
      match world.status process with
      | .error cause => .error ⟨.status, invokedProgram line, cause.describe⟩
      | .ok exitCode => .ok exitCode := by
  rw [outcome, hstart, status]
  cases world.reaped with
  | true => rfl
  | false => cases hending : process.ending <;> simp [hending, Ending.exitCode]

/-- A line fails at one of the two stages, by what went wrong there. -/
theorem cases_of_outcome_error {failure : Failure} (hfailed : world.outcome line = .error failure) :
    (∃ cause, world.start (split line) = .error cause ∧
        failure = ⟨.spawn, invokedProgram line, cause.describe⟩) ∨
      ∃ process cause, world.start (split line) = .ok process ∧
        world.status process = .error cause ∧
          failure = ⟨.status, invokedProgram line, cause.describe⟩ := by
  cases hstart : world.start (split line) with
  | error cause =>
      rw [outcome_of_error hstart] at hfailed
      exact .inl ⟨cause, rfl, (Except.error.inj hfailed).symm⟩
  | ok process =>
      rw [outcome_of_ok hstart] at hfailed
      cases hstatus : world.status process with
      | error cause =>
          rw [hstatus] at hfailed
          exact .inr ⟨process, cause, rfl, hstatus, (Except.error.inj hfailed).symm⟩
      | ok exitCode =>
          rw [hstatus] at hfailed
          contradiction

theorem program_of_start {process : Process} (hstart : world.start (split line) = .ok process) :
    process.program = invokedProgram line := by
  rw [Process.program, world.arguments_of_start hstart, programOf_split]

theorem collect_of_start {process : Process} (hstart : world.start (split line) = .ok process)
    (filter : Filter) (console : Console) :
    (world.host filter).collect process console = (world.outcome line, console) := by
  rw [collect_host, outcome_of_ok hstart, program_of_start hstart]
  cases world.status process with
  | error cause => rfl
  | ok exitCode => rfl

/-- The operating system names the program of the line, whatever goes wrong. -/
theorem namesPrograms_host (world : World) (filter : Filter) :
    (world.host filter).NamesPrograms where
  spawn := by
    intro line console spawned failure hspawn
    rw [spawn_host] at hspawn
    cases hstart : world.start (split line) with
    | error cause =>
        rw [hstart] at hspawn
        rw [← Except.error.inj (Prod.mk.inj hspawn).1, programOf_split]
    | ok process =>
        rw [hstart] at hspawn
        exact nomatch (Prod.mk.inj hspawn).1
  wait := by
    intro line console spawned waited process failure hspawn hwait
    rw [spawn_host] at hspawn
    rw [wait_host] at hwait
    cases hstart : world.start (split line) with
    | error cause =>
        rw [hstart] at hspawn
        exact nomatch (Prod.mk.inj hspawn).1
    | ok started =>
        rw [hstart] at hspawn
        obtain rfl : started = process := Except.ok.inj (Prod.mk.inj hspawn).1
        cases hstatus : world.status started with
        | error cause =>
            rw [hstatus] at hwait
            rw [← Except.error.inj (Prod.mk.inj hwait).1, program_of_start hstart]
        | ok exitCode =>
            rw [hstatus] at hwait
            exact nomatch (Prod.mk.inj hwait).1

/-- What an attempt gives is what comes of the new line, whatever is reported of it. -/
theorem fst_attempt_host (world : World) (filter : Filter) (substitution : Substitution)
    (line : String) (console : Console) :
    ((world.host filter).attempt substitution line console).1 =
      world.outcome (substitution.apply line) := by
  simp only [attempt_host]
  cases hstart : world.start (split (substitution.apply line)) with
  | error cause => simp only [outcome_of_error hstart, programOf_split]
  | ok process =>
      simp only [outcome_of_ok hstart, program_of_start hstart]
      cases world.status process with
      | error cause => rfl
      | ok exitCode => rfl

/-- Where nothing is to be reported, a run leaves on the console what its process leaves there. -/
theorem attempt_host_nil (world : World) (substitution : Substitution) (line : String)
    (console : Console) :
    (world.host []).attempt substitution line console =
      (world.outcome (substitution.apply line),
        world.workOf (substitution.apply line) console) := by
  simp only [attempt_host, Console.report_nil, workOf]
  cases hstart : world.start (split (substitution.apply line)) with
  | error cause => simp only [outcome_of_error hstart, programOf_split]
  | ok process =>
      simp only [outcome_of_ok hstart, program_of_start hstart]
      cases world.status process with
      | error cause => rfl
      | ok exitCode => rfl

end World

end Interposer
