import Interposer.World.Session
import Interposer.Proofs.World.Outcome

/-!
# What a session answers

The answer to a step is told by the steps before it and the world, without a table of processes. The
number of a process is how many were started before it. Its first wait tells what comes of the line
that started it, whatever was done in between, and any other wait finds nothing. The invariant is
about one place of the table: once filled it stays as it is until the wait for it.
-/

namespace Interposer.Session

open CommandLine

/-- Whether a step starts a process on its own. -/
def Step.starts (world : World) : Step → Bool
  | spawn line => (world.start (split line)).isOk
  | _ => false

/-- Whether an answer is to a step that neither started a process on its own nor waited for one. -/
def Answer.idle : Answer → Bool
  | started _ | waited _ _ => false
  | failed _ | noChild | attempted _ _ | ran _ _ => true

/-- The session after some steps. -/
def reach (world : World) (session : Session) (steps : List Step) : Session :=
  steps.foldl (fun session step => (session.step world step).2) session

variable {world : World} {session : Session}

/-! ### One step -/

theorem step_spawn (line : String) :
    session.step world (.spawn line) =
      match world.start (split line) with
      | .error cause => (.failed ⟨.spawn, invokedProgram line, cause.describe⟩, session)
      | .ok process => (.started session.children.length, session.push process) := by
  rw [step, World.spawn_host]
  cases world.start (split line) with
  | error cause => rw [programOf_split]
  | ok process => rfl

theorem step_wait_of_none {number : Int} (hchild : session.child? number = none) :
    session.step world (.wait number) = (.noChild, session) := by
  rw [step, hchild]

theorem step_wait_of_start {number : Int} {process : Process} {line : String}
    (hchild : session.child? number = some process)
    (hstart : world.start (split line) = .ok process) :
    session.step world (.wait number) =
      (.waited (world.outcome line) (split line), session.erase number) := by
  rw [step, hchild]
  simp only [World.collect_of_start hstart, world.arguments_of_start hstart]

theorem step_attempt (substitution : Substitution) (line : String) :
    session.step world (.attempt substitution line) =
      (.attempted (world.outcome (substitution.apply line))
        (world.workOf (substitution.apply line) {}), session) := by
  rw [step, World.attempt_host_nil]

theorem step_run (substitution : Substitution) (line : String) :
    session.step world (.run substitution line) =
      let console := world.workOf (substitution.apply line) {}
      (match world.outcome (substitution.apply line) with
        | .ok exitCode => .ran exitCode console
        | .error failure => .ran failureExitCode (console.addStderr (failure.text ++ "\n")),
        session) := by
  rw [step, World.run_host, World.attempt_host_nil]
  cases world.outcome (substitution.apply line) with
  | ok exitCode => rfl
  | error failure => rfl

theorem step_of_idle {step : Step} (hidle : (session.step world step).1.idle) :
    (session.step world step).2 = session := by
  cases step with
  | spawn line =>
      rw [step_spawn] at hidle ⊢
      cases hstart : world.start (split line) with
      | error cause => rfl
      | ok process => simp [hstart, Answer.idle] at hidle
  | wait number =>
      cases hchild : session.child? number with
      | none => rw [step_wait_of_none hchild]
      | some process => simp [Session.step, hchild, Answer.idle] at hidle
  | attempt substitution line => rfl
  | run substitution line => rfl

/-! ### The table of processes -/

theorem child?_push_of_lt {index : Nat} (hindex : index < session.children.length)
    (process : Process) : (session.push process).child? index = session.child? index := by
  change ((session.children ++ [some process])[index]?).join = (session.children[index]?).join
  rw [List.getElem?_append_left hindex]

theorem child?_push_self (process : Process) :
    (session.push process).child? session.children.length = some process := by
  change ((session.children ++ [some process])[session.children.length]?).join = _
  rw [List.getElem?_concat_length, Option.join_some]

theorem child?_of_length_le {index : Nat} (hindex : session.children.length ≤ index) :
    session.child? index = none := by
  change (session.children[index]?).join = none
  rw [List.getElem?_eq_none hindex, Option.join_none]

theorem child?_erase {index : Nat} (hindex : index < session.children.length) (number : Int) :
    (session.erase number).child? index =
      if number = index then none else session.child? index := by
  cases number with
  | negSucc other => rw [if_neg (by omega), erase]
  | ofNat other =>
      change ((session.children.set other none)[index]?).join = _
      by_cases hother : other = index
      · rw [if_pos (by rw [hother]; rfl), hother, List.getElem?_set_self hindex, Option.join_some]
      · have hnumber : ¬ Int.ofNat other = (index : Int) := fun heq => hother (Int.ofNat.inj heq)
        rw [if_neg hnumber, List.getElem?_set_ne hother]
        rfl

theorem length_children_step (step : Step) :
    (session.step world step).2.children.length =
      session.children.length + (step.starts world).toNat := by
  cases step with
  | spawn line =>
      rw [step_spawn, Step.starts]
      cases world.start (split line) with
      | error cause => rfl
      | ok process => exact List.length_append
  | wait number =>
      rw [Session.step]
      cases session.child? number with
      | none => rfl
      | some process =>
          cases number with
          | ofNat index => exact List.length_set
          | negSucc index => rfl
  | attempt substitution line => rfl
  | run substitution line => rfl

/-- A place of the table changes only at the wait for it. -/
theorem child?_step {index : Nat} (hindex : index < session.children.length) (step : Step) :
    (session.step world step).2.child? index =
      if step = .wait index then none else session.child? index := by
  cases step with
  | spawn line =>
      rw [if_neg nofun, step_spawn]
      cases world.start (split line) with
      | error cause => rfl
      | ok process => exact child?_push_of_lt hindex process
  | wait number =>
      simp only [Step.wait.injEq]
      cases hchild : session.child? number with
      | none =>
          rw [step_wait_of_none hchild]
          split
          · rename_i heq
            rw [← heq, hchild]
          · rfl
      | some process =>
          have hsession : (session.step world (.wait number)).2 = session.erase number := by
            rw [Session.step, hchild]
          rw [hsession, child?_erase hindex]
  | attempt substitution line => rfl
  | run substitution line => rfl

/-! ### Several steps -/

theorem reach_cons (session : Session) (step : Step) (steps : List Step) :
    session.reach world (step :: steps) = (session.step world step).2.reach world steps := rfl

theorem reach_append (session : Session) (steps more : List Step) :
    session.reach world (steps ++ more) = (session.reach world steps).reach world more :=
  List.foldl_append

theorem length_children_reach (session : Session) (steps : List Step) :
    (session.reach world steps).children.length =
      session.children.length + steps.countP (·.starts world) := by
  induction steps generalizing session with
  | nil => rfl
  | cons step steps ih =>
      rw [reach_cons, ih, length_children_step, List.countP_cons]
      cases step.starts world with
      | true => simp; omega
      | false => simp

theorem child?_reach {index : Nat} {session : Session} (hindex : index < session.children.length)
    (steps : List Step) :
    (session.reach world steps).child? index =
      if .wait index ∈ steps then none else session.child? index := by
  induction steps generalizing session with
  | nil => rfl
  | cons step steps ih =>
      have hlength : index < (session.step world step).2.children.length := by
        rw [length_children_step]
        omega
      rw [reach_cons, ih hlength, child?_step hindex]
      by_cases hstep : step = .wait index
      · simp [hstep]
      · simp [hstep, Ne.symm hstep]

theorem length_play (world : World) (session : Session) (steps : List Step) :
    (play world session steps).length = steps.length := by
  induction steps generalizing session with
  | nil => rfl
  | cons step steps ih => rw [play, List.length_cons, List.length_cons, ih]

theorem play_append (session : Session) (steps more : List Step) :
    play world session (steps ++ more) =
      play world session steps ++ play world (session.reach world steps) more := by
  induction steps generalizing session with
  | nil => rfl
  | cons step steps ih => rw [List.cons_append, play, ih, play, reach_cons, List.cons_append]

/-- The answer to a step is given by the session that the steps before it lead to. -/
theorem getElem?_play (session : Session) (before : List Step) (step : Step) (after : List Step) :
    (play world session (before ++ step :: after))[before.length]? =
      some ((session.reach world before).step world step).1 := by
  have hlength := length_play world session before
  rw [play_append, List.getElem?_append_right (by omega), hlength, Nat.sub_self, play,
    List.getElem?_cons_zero]

theorem play_spawn_wait (session : Session) (line : String) :
    play world session [.spawn line, .wait session.children.length] =
      match world.start (split line) with
      | .error cause => [.failed ⟨.spawn, invokedProgram line, cause.describe⟩, .noChild]
      | .ok _ => [.started session.children.length, .waited (world.outcome line) (split line)] := by
  rw [play, play, play, step_spawn]
  cases hstart : world.start (split line) with
  | error cause =>
      have hchild := child?_of_length_le (Nat.le_refl session.children.length)
      simp only [step_wait_of_none hchild]
  | ok process =>
      have hchild := session.child?_push_self process
      simp only [step_wait_of_start hchild hstart]

/-! ### A session from its beginning -/

theorem length_children_reach_empty (world : World) (before : List Step) :
    (reach world {} before).children.length = before.countP (·.starts world) := by
  rw [length_children_reach]
  exact Nat.zero_add _

theorem child?_reach_of_start (earlier later : List Step) {line : String} {process : Process}
    (hstart : world.start (split line) = .ok process) :
    (reach world {} (earlier ++ .spawn line :: later)).child? (earlier.countP (·.starts world)) =
      if .wait (earlier.countP (·.starts world)) ∈ later then none else some process := by
  have hpushed : ((reach world {} earlier).step world (.spawn line)).2 =
      (reach world {} earlier).push process := by
    rw [step_spawn, hstart]
  rw [reach_append, reach_cons, hpushed, ← length_children_reach_empty,
    child?_reach (by simp [push]), child?_push_self]

theorem child?_reach_of_not_given {before : List Step} {number : Int}
    (hgiven : ∀ given < before.countP (·.starts world), number ≠ given) :
    (reach world {} before).child? number = none := by
  cases number with
  | negSucc index => rfl
  | ofNat index =>
      apply child?_of_length_le
      rw [length_children_reach_empty]
      exact Nat.le_of_not_lt fun hlt => hgiven index hlt rfl

theorem answer_spawn (before : List Step) (line : String) :
    ((reach world {} before).step world (.spawn line)).1 =
      match world.start (split line) with
      | .error cause => .failed ⟨.spawn, invokedProgram line, cause.describe⟩
      | .ok _ => .started (before.countP (·.starts world)) := by
  rw [step_spawn, length_children_reach_empty]
  cases world.start (split line) with
  | error cause => rfl
  | ok process => rfl

theorem answer_wait (earlier later : List Step) {line : String}
    (hstarts : (Step.spawn line).starts world) :
    ((reach world {} (earlier ++ .spawn line :: later)).step world
        (.wait (earlier.countP (·.starts world)))).1 =
      if .wait (earlier.countP (·.starts world)) ∈ later then .noChild
      else .waited (world.outcome line) (split line) := by
  rw [Step.starts] at hstarts
  cases hstart : world.start (split line) with
  | error cause => simp [hstart, Except.isOk, Except.toBool] at hstarts
  | ok process =>
      have hchild := child?_reach_of_start earlier later hstart
      split at hchild
      · rw [step_wait_of_none hchild, if_pos ‹_›]
      · rw [step_wait_of_start hchild hstart, if_neg ‹_›]

theorem drop_play (session : Session) (before more : List Step) :
    (play world session (before ++ more)).drop before.length =
      play world (session.reach world before) more := by
  rw [play_append, List.drop_left' (length_play world session before)]

theorem eraseIdx_play_of_idle {before : List Step} {step : Step}
    (hidle : ((reach world {} before).step world step).1.idle) (after : List Step) :
    (play world {} (before ++ step :: after)).eraseIdx before.length =
      play world {} (before ++ after) := by
  have hlength := length_play world {} before
  rw [play_append, play_append, List.eraseIdx_append_of_length_le (by omega), hlength, Nat.sub_self,
    play, List.eraseIdx_cons_zero, step_of_idle hidle]

/-- The answers of a session, told by the steps alone. Processes are numbered as they are started.
The first wait for one tells what comes of its line, with the arguments on that line, and every
other wait finds nothing. A whole run gives what starting its line and waiting at once would give.
Steps that neither start nor wait for a process on their own could as well have been left out. -/
theorem play_answers (world : World) (before after : List Step) :
    let answer := fun step => (play world {} (before ++ step :: after))[before.length]?
    let next := before.countP (·.starts world)
    (∀ line, answer (.spawn line) = some
      (match world.start (split line) with
        | .error cause => .failed ⟨.spawn, invokedProgram line, cause.describe⟩
        | .ok _ => .started next)) ∧
    (∀ earlier line later, before = earlier ++ .spawn line :: later →
      (Step.spawn line).starts world →
      let number : Int := earlier.countP (·.starts world)
      answer (.wait number) = some
        (if .wait number ∈ later then .noChild
          else .waited (world.outcome line) (split line))) ∧
    (∀ number : Int, (∀ given < next, number ≠ given) → answer (.wait number) = some .noChild) ∧
    (∀ substitution line, ∃ result console,
      answer (.attempt substitution line) = some (.attempted result console) ∧
      answer (.run substitution line) = some
        (match result with
          | .ok exitCode => .ran exitCode console
          | .error failure => .ran 125 (console.addStderr (failure.text ++ "\n"))) ∧
      match (play world {} (before ++
          [.spawn (substitution.apply line), .wait next])).drop before.length with
      | [.failed failure, _] => result = .error failure ∧ console.started = none
      | [.started number, .waited ended arguments] =>
          number = next ∧ result = ended ∧ console.started = some arguments
      | _ => False) ∧
    ∀ step, (answer step).any Answer.idle →
      (play world {} (before ++ step :: after)).eraseIdx before.length =
        play world {} (before ++ after) := by
  intro answer next
  have hanswer : ∀ step, answer step = some ((reach world {} before).step world step).1 :=
    fun step => getElem?_play {} before step after
  refine ⟨fun line => ?_, ?_, fun number hgiven => ?_, fun substitution line => ?_,
    fun step hidle => ?_⟩
  · rw [hanswer, answer_spawn]
  · rintro earlier line later rfl hstarts number
    rw [hanswer, answer_wait earlier later hstarts]
  · rw [hanswer, step_wait_of_none (child?_reach_of_not_given hgiven)]
  · refine ⟨_, _, by rw [hanswer, step_attempt], by rw [hanswer, step_run, failureExitCode], ?_⟩
    have hnext : (reach world {} before).children.length = next :=
      length_children_reach_empty world before
    rw [drop_play, ← hnext, play_spawn_wait, World.workOf]
    cases hstart : world.start (split (substitution.apply line)) with
    | error cause => exact ⟨World.outcome_of_error hstart, rfl⟩
    | ok process => exact ⟨rfl, rfl, congrArg some (world.arguments_of_start hstart)⟩
  · rw [hanswer] at hidle
    exact eraseIdx_play_of_idle hidle after

/-- Two processes of one program at once, the later one waited for after a failed start, a whole run
and two waits for the earlier one, the second of which finds nothing. The program ends as its last
argument says. -/
theorem play_answers_interleaved :
    let shell : Program := fun arguments =>
      .ok ⟨if arguments.getLast? = some "exit 3" then .exit 3 else .signal 15, "", ""⟩
    let world : World := ⟨fun name => if name = "/bin/sh" then some shell else none, false⟩
    let later : List Step := [.run ⟨"/bin/sh", "-c", ""⟩ "x", .wait 0, .wait 0]
    let before : List Step := [.spawn "/bin/sh -c \"kill $$\"", .spawn "/bin/cc x"] ++
      .spawn "/bin/sh -c \"exit 3\"" :: later
    (Step.spawn "/bin/sh -c \"exit 3\"").starts world ∧
      (∀ given : Nat, given < 2 → (5 : Int) ≠ given) ∧
      (play world {} (before ++ [.wait 1]))[6]? =
        some (.waited (.ok 3) ["/bin/sh", "-c", "exit 3"]) ∧
      (play world {} (before ++ [.wait 5]))[6]? = some .noChild ∧
      (play world {} (before ++ [.spawn "/bin/cc", .wait 1])).eraseIdx 6 =
        play world {} (before ++ [.wait 1]) := by
  intro shell world later before
  have hstarts : (Step.spawn "/bin/sh -c \"exit 3\"").starts world := by decide
  have hgiven : ∀ given : Nat, given < 2 → (5 : Int) ≠ given := by omega
  have hcount : before.countP (·.starts world) = 2 := by decide
  obtain ⟨-, hwait, hnone, -, -⟩ := play_answers world before []
  obtain ⟨hspawn, -, -, -, herase⟩ := play_answers world before [.wait 1]
  refine ⟨hstarts, hgiven, ?_, hnone 5 (by rwa [hcount]), herase (.spawn "/bin/cc") ?_⟩
  · exact hwait [.spawn "/bin/sh -c \"kill $$\"", .spawn "/bin/cc x"] "/bin/sh -c \"exit 3\"" later
      rfl hstarts
  · rw [hspawn "/bin/cc"]
    rfl

end Interposer.Session
