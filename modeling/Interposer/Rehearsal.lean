import Interposer.Host

/-!
# Rehearsals

A rehearsal takes the steps of an interposed program without any process. Its host enters every line
that is to be spawned into a ledger, counts the children it created and those given back, and lets
each step end as the step itself says.
-/

namespace Interposer.Rehearsal

open CommandLine

/-- How a step is to end. A failure to spawn comes before a failure to wait, and either before the
exit code. -/
structure Outcome where
  /-- The reason that the spawn fails for, if it is to fail. -/
  spawnError : Option String := none
  /-- The reason that the wait fails for, if it is to fail. -/
  statusError : Option String := none
  exitCode : Int := 0
  deriving DecidableEq, Repr

/-- What a rehearsal has seen so far. -/
structure Ledger where
  lines : List String := []
  created : Nat := 0
  released : Nat := 0
  /-- What was written to standard error in the current step. -/
  stderr : String := ""
  deriving DecidableEq, Repr

/-- How many children were created and not given back. -/
def Ledger.live (ledger : Ledger) : Int := ledger.created - ledger.released

/-- The host of one step. It knows a child by the name of its program. -/
def host (outcome : Outcome) : Host (StateM Ledger) String where
  spawn line := do
    modify fun ledger => { ledger with lines := ledger.lines ++ [line] }
    match outcome.spawnError with
    | some reason => return .error ⟨.spawn, invokedProgram line, reason⟩
    | none =>
        modify fun ledger => { ledger with created := ledger.created + 1 }
        return .ok (invokedProgram line)
  wait program :=
    match outcome.statusError with
    | some reason => return .error ⟨.status, program, reason⟩
    | none => return .ok outcome.exitCode
  release _ := modify fun ledger => { ledger with released := ledger.released + 1 }
  record _ := return ()
  complain text := modify fun ledger => { ledger with stderr := ledger.stderr ++ text }

/-- What a step asks for. -/
inductive Request where
  /-- The exit code, or the failure itself. -/
  | attempt
  /-- The exit code, with a failure reported. -/
  | run
  deriving DecidableEq, Repr

/-- One step of a rehearsal. -/
structure Step where
  request : Request
  substitution : Substitution
  line : String
  outcome : Outcome
  deriving DecidableEq, Repr

/-- What a step gives. -/
inductive Reply where
  /-- The exit code, or the failure. -/
  | attempted (result : Except Failure Int)
  /-- The exit code, and what was written to standard error. -/
  | ran (exitCode : Int) (stderr : String)

/-- Take one step. -/
def Step.take (step : Step) : StateM Ledger Reply := do
  modify fun ledger => { ledger with stderr := "" }
  match step.request with
  | .attempt => return .attempted (← (host step.outcome).attempt step.substitution step.line)
  | .run =>
      let exitCode ← (host step.outcome).run step.substitution step.line
      return .ran exitCode (← get).stderr

/-- Take the steps in order from a ledger on, and give each reply with the ledger after it. -/
def rehearseFrom : Ledger → List Step → List (Reply × Ledger)
  | _, [] => []
  | ledger, step :: rest => step.take ledger :: rehearseFrom (step.take ledger).2 rest

/-- Take the steps in order from an empty ledger on. -/
def rehearse (steps : List Step) : List (Reply × Ledger) := rehearseFrom {} steps

end Interposer.Rehearsal
