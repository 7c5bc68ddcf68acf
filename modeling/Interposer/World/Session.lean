import Interposer.World.Basic

/-!
# Sessions

A session starts processes in a world and waits for them in any order, among whole runs of an
interposed program. Every process started on its own gets the next number, and can be waited for
once.
-/

namespace Interposer

/-- The processes started on their own, by their numbers. A place is empty once its process has been
waited for. -/
structure Session where
  children : List (Option Process) := []

namespace Session

/-- What to do next in a session. -/
inductive Step where
  /-- Start the process that a line invokes. -/
  | spawn (line : String)
  /-- Wait for the process of a number. -/
  | wait (number : Int)
  /-- Stand in for a program, and take the exit code or the failure. -/
  | attempt (substitution : Substitution) (line : String)
  /-- Stand in for a program, with a failure reported. -/
  | run (substitution : Substitution) (line : String)
  deriving DecidableEq, Repr

/-- What a step gives. -/
inductive Answer where
  | started (number : Nat)
  | failed (failure : Failure)
  /-- The end of a process, and the arguments it had. -/
  | waited (result : Except Failure Int) (arguments : List String)
  /-- There is no process of that number to wait for. -/
  | noChild
  /-- The exit code or the failure of a whole run, and what was seen of it. -/
  | attempted (result : Except Failure Int) (console : Console)
  /-- The exit code of a whole run, and what was seen of it. -/
  | ran (exitCode : Int) (console : Console)

/-- The process of a number, if it was started and not yet waited for. -/
def child? (session : Session) : Int → Option Process
  | .ofNat index => (session.children[index]?).join
  | .negSucc _ => none

/-- Add a process under the next number. -/
def push (session : Session) (process : Process) : Session :=
  { session with children := session.children ++ [some process] }

/-- Take away the process of a number. -/
def erase (session : Session) : Int → Session
  | .ofNat index => { session with children := session.children.set index none }
  | .negSucc _ => session

/-- Take one step. Each step has a console of its own, and nothing but its output is on it. -/
def step (world : World) (session : Session) : Step → Answer × Session
  | .spawn line =>
      match ((world.host []).spawn line {}).1 with
      | .error failure => (.failed failure, session)
      | .ok process => (.started session.children.length, session.push process)
  | .wait number =>
      match session.child? number with
      | none => (.noChild, session)
      | some process =>
          (.waited ((world.host []).collect process {}).1 process.arguments, session.erase number)
  | .attempt substitution line =>
      let (result, console) := (world.host []).attempt substitution line {}
      (.attempted result console, session)
  | .run substitution line =>
      let (exitCode, console) := (world.host []).run substitution line {}
      (.ran exitCode console, session)

/-- Take the steps in order, and give the answers. -/
def play (world : World) : Session → List Step → List Answer
  | _, [] => []
  | session, next :: rest =>
      (session.step world next).1 :: play world (session.step world next).2 rest

end Session

end Interposer
