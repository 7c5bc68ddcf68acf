import Interposer.Proofs.Host
import Interposer.World.Basic

/-!
# What the operating system as a host does

One equation for each thing an interposed program asks of its surroundings: the result, and the
console after it. Nothing else is known about `World.host`, and what a whole run shows is put
together from these equations.
-/

namespace Interposer

open CommandLine

/-- The console after an event, which is on it if the filter enables the event. -/
def Console.report (console : Console) (filter : Filter) (event : Event) : Console :=
  if filter.enables event then console.addStderr event.line else console

/-- The console after several events. -/
def Console.reportAll (console : Console) (filter : Filter) (events : List Event) : Console :=
  events.foldl (·.report filter ·) console

@[simp] theorem Console.report_nil (console : Console) (event : Event) :
    console.report [] event = console := rfl

@[simp] theorem Console.reportAll_nil (console : Console) (events : List Event) :
    console.reportAll [] events = console := by
  induction events with
  | nil => rfl
  | cons event events ih => exact ih

namespace World

variable (world : World) (filter : Filter)

theorem exists_program_of_execute {arguments : List String} {work : Work}
    (hwork : world.execute arguments = .ok work) :
    ∃ program, world.programs (programOf arguments) = some program ∧
      program arguments = .ok work := by
  rw [execute] at hwork
  cases hfind : world.find? (programOf arguments) with
  | none =>
      rw [hfind] at hwork
      contradiction
  | some program =>
      rw [hfind] at hwork
      rw [find?] at hfind
      split at hfind
      · contradiction
      · exact ⟨program, hfind, hwork⟩

/-- Arguments with a NUL are refused. With others the program is executed, and if it cannot be, the
start fails with the same code. -/
theorem start_cases (arguments : List String) :
    (arguments.any holdsNul = true ∧
        world.start arguments = .error (.refused "nul byte found in provided data")) ∨
      arguments.any holdsNul = false ∧
        ((∃ number, world.execute arguments = .error number ∧
            world.start arguments = .error (.code number)) ∨
          ∃ work, world.execute arguments = .ok work ∧
            world.start arguments = .ok ⟨work, arguments⟩) := by
  cases hnul : arguments.any holdsNul with
  | true => exact .inl ⟨rfl, if_pos hnul⟩
  | false =>
      have hpassed : ¬ arguments.any holdsNul = true := by simp [hnul]
      cases hexecute : world.execute arguments with
      | error number =>
          exact .inr ⟨rfl, .inl ⟨number, rfl, by rw [start, if_neg hpassed, hexecute]⟩⟩
      | ok work => exact .inr ⟨rfl, .inr ⟨work, rfl, by rw [start, if_neg hpassed, hexecute]⟩⟩

theorem exists_work_of_start {arguments : List String} {process : Process}
    (hstart : world.start arguments = .ok process) :
    ∃ work, world.execute arguments = .ok work ∧ process = ⟨work, arguments⟩ := by
  rcases world.start_cases arguments with
    ⟨-, hrefused⟩ | ⟨-, ⟨number, -, herror⟩ | ⟨work, hwork, hok⟩⟩
  · exact nomatch hstart.symm.trans hrefused
  · exact nomatch hstart.symm.trans herror
  · exact ⟨work, hwork, Except.ok.inj (hstart.symm.trans hok)⟩

theorem arguments_of_start {arguments : List String} {process : Process}
    (hstart : world.start arguments = .ok process) : process.arguments = arguments := by
  obtain ⟨work, -, rfl⟩ := world.exists_work_of_start hstart
  rfl

theorem record_host (event : Event) (console : Console) :
    (world.host filter).record event console = ((), console.report filter event) := by
  change host.report filter event console = _
  unfold host.report Console.report
  cases filter.enables event with
  | true => rfl
  | false => rfl

theorem forM_record_host (event : Event) (arguments : List Octets) (console : Console) :
    (arguments.forM fun _ => (world.host filter).record event) console =
      ((), console.reportAll filter (arguments.map fun _ => event)) := by
  induction arguments generalizing console with
  | nil => rfl
  | cons argument arguments ih =>
      have hrest := ih (console.report filter event)
      rw [List.forM_eq_forM, List.forM_cons, bind_apply, record_host, ← List.forM_eq_forM, hrest]
      rfl

theorem spawn_host (line : String) (console : Console) :
    (world.host filter).spawn line console =
      match world.start (split line) with
      | .error cause => (.error ⟨.spawn, programOf (split line), cause.describe⟩, console)
      | .ok process =>
          (.ok process, (console.report filter (.started process.program)).addProcess process) := by
  simp only [host]
  cases world.start (split line) with
  | error cause => rfl
  | ok process =>
      have hrecord : host.report filter (.started process.program) console =
          ((), console.report filter (.started process.program)) :=
        world.record_host filter _ console
      simp only [bind_apply, hrecord]
      rfl

theorem wait_host (process : Process) (console : Console) :
    (world.host filter).wait process console =
      match world.status process with
      | .error cause => (.error ⟨.status, process.program, cause.describe⟩, console)
      | .ok exitCode => (.ok exitCode, console) := by
  simp only [host]
  cases world.status process with
  | error cause => rfl
  | ok exitCode => rfl

theorem collect_host (process : Process) (console : Console) :
    (world.host filter).collect process console =
      match world.status process with
      | .error cause => (.error ⟨.status, process.program, cause.describe⟩, console)
      | .ok exitCode => (.ok exitCode, console) := by
  have hcollect : (world.host filter).collect process console =
      (world.host filter).wait process console := rfl
  rw [hcollect, wait_host]

theorem attempt_host (substitution : Substitution) (line : String) (console : Console) :
    (world.host filter).attempt substitution line console =
      let made := substitution.apply line
      let opened := (console.report filter (.received line)).report filter (.substituted made)
      match world.start (split made) with
      | .error cause => (.error ⟨.spawn, programOf (split made), cause.describe⟩, opened)
      | .ok process =>
          let running := (opened.report filter (.started process.program)).addProcess process
          match world.status process with
          | .error cause => (.error ⟨.status, process.program, cause.describe⟩, running)
          | .ok exitCode => (.ok exitCode, running.report filter (.finished exitCode)) := by
  simp only [Host.attempt_apply, record_host, spawn_host]
  cases world.start (split (substitution.apply line)) with
  | error cause => rfl
  | ok process =>
      simp only [wait_host]
      cases world.status process with
      | error cause => rfl
      | ok exitCode => rfl

theorem run_host (substitution : Substitution) (line : String) (console : Console) :
    (world.host filter).run substitution line console =
      match (world.host filter).attempt substitution line console with
      | (.error failure, after) => (failureExitCode, after.addStderr (failure.text ++ "\n"))
      | (.ok exitCode, after) => (exitCode, after) := by
  rw [Host.run_apply]
  obtain ⟨result, after⟩ := (world.host filter).attempt substitution line console
  cases result with
  | error failure => rfl
  | ok exitCode => rfl

theorem interpose_host (substitution : Substitution) (arguments : List Octets) (console : Console) :
    (world.host filter).interpose substitution arguments console =
      (world.host filter).run substitution (joinLossy arguments)
        (console.reportAll filter
          ((arguments.filter fun argument => (Utf8.decode? argument).isNone).map
            fun _ => .lossyArgument)) := by
  rw [Host.interpose, bind_apply, forM_record_host]

end World

end Interposer
