import Interposer.Host

/-!
# What is asked of a host

An attempt asks its host to spawn one line, to wait for the child and to release it, and stops where
the host fails. For a host that keeps a state this is one equation, from the state before the
attempt to the state after it. Whatever holds of every failure of such a host therefore holds of
every failed attempt.
-/

namespace Interposer

open CommandLine

theorem bind_apply {state first second : Type} (action : StateM state first)
    (next : first → StateM state second) (s : state) :
    (action >>= next) s = next (action s).1 (action s).2 := rfl

namespace Host

variable {State Child : Type} (host : Host (StateM State) Child)

theorem attempt_apply (substitution : Substitution) (line : String) (state : State) :
    host.attempt substitution line state =
      let made := substitution.apply line
      let opened := (host.record (.substituted made) (host.record (.received line) state).2).2
      match host.spawn made opened with
      | (.error failure, spawned) => (.error failure, spawned)
      | (.ok child, spawned) =>
          match host.wait child spawned with
          | (.error failure, waited) => (.error failure, (host.release child waited).2)
          | (.ok exitCode, waited) =>
              (.ok exitCode,
                (host.record (.finished exitCode) (host.release child waited).2).2) := by
  simp only [attempt, collect, bind_apply]
  generalize (host.record _ (host.record _ state).2).2 = opened
  obtain ⟨result, spawned⟩ := host.spawn (substitution.apply line) opened
  cases result with
  | error failure => rfl
  | ok child =>
      simp only [bind_apply]
      obtain ⟨result, waited⟩ := host.wait child spawned
      cases result with
      | error failure => rfl
      | ok exitCode => rfl

theorem run_apply (substitution : Substitution) (line : String) (state : State) :
    host.run substitution line state =
      match host.attempt substitution line state with
      | (.error failure, after) =>
          (failureExitCode, (host.complain (failure.text ++ "\n") after).2)
      | (.ok exitCode, after) => (exitCode, after) := by
  simp only [run, bind_apply]
  obtain ⟨result, after⟩ := host.attempt substitution line state
  cases result with
  | error failure => rfl
  | ok exitCode => rfl

/-- Every failure of the host names the program of the line that was spawned, whether the spawn
fails or the wait that comes right after it. -/
structure NamesPrograms : Prop where
  spawn {line : String} {state spawned : State} {failure : Failure} :
    host.spawn line state = (.error failure, spawned) → failure.program = invokedProgram line
  wait {line : String} {state spawned waited : State} {child : Child} {failure : Failure} :
    host.spawn line state = (.ok child, spawned) →
      host.wait child spawned = (.error failure, waited) → failure.program = invokedProgram line

variable {host}

theorem NamesPrograms.program_of_attempt (hnames : host.NamesPrograms)
    {substitution : Substitution} {line : String} {state : State} {failure : Failure}
    (hfailed : (host.attempt substitution line state).1 = .error failure) :
    failure.program = invokedProgram (substitution.apply line) := by
  simp only [attempt_apply] at hfailed
  -- recording events may lead to any state before the spawn
  generalize (host.record _ (host.record _ state).2).2 = opened at hfailed
  rcases hspawn : host.spawn (substitution.apply line) opened with ⟨cause | child, spawned⟩
  · rw [hspawn] at hfailed
    obtain rfl : cause = failure := Except.error.inj hfailed
    exact hnames.spawn hspawn
  · rw [hspawn] at hfailed
    rcases hwait : host.wait child spawned with ⟨cause | exitCode, waited⟩
    · simp only [hwait] at hfailed
      obtain rfl : cause = failure := Except.error.inj hfailed
      exact hnames.wait hspawn hwait
    · simp [hwait] at hfailed

end Host

end Interposer
