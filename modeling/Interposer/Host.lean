import Interposer.CommandLine.Quoted
import Interposer.Event.Basic
import Interposer.Failure
import Interposer.Substitution.Basic

/-!
# Standing in for a program

The work of an interposed program: take the command line it was called with, invoke the substitute
in its place, wait for it and end with its exit code. Whatever this needs of its surroundings is a
host, so that the same steps run against an operating system and against a rehearsal.

A failing tool is passed on silently. A failure to run it at all is one line on standard error and
an exit code of its own. A child process is released once, right after the wait for it, whether or
not the wait succeeded.
-/

namespace Interposer

open CommandLine

/-- What an interposed program needs of its surroundings. -/
structure Host (m : Type → Type) (Child : Type) where
  /-- Create the process that a command line invokes. -/
  spawn : String → m (Except Failure Child)
  /-- Block until a process has ended, and give its exit code. -/
  wait : Child → m (Except Failure Int)
  /-- Give back what is held for a process. -/
  release : Child → m Unit
  /-- Take note of an event. -/
  record : Event → m Unit
  /-- Write to standard error. -/
  complain : String → m Unit

/-- The exit code for a failure to run the tool. -/
def failureExitCode : Int := 125

namespace Host

variable {m : Type → Type} [Monad m] {Child : Type}

/-- Wait for a process and release it, however the wait went. -/
def collect (host : Host m Child) (child : Child) : m (Except Failure Int) := do
  let status ← host.wait child
  host.release child
  return status

/-- Invoke the substitute in place of the program on a line, and give its exit code. -/
def attempt (host : Host m Child) (substitution : Substitution) (line : String) :
    m (Except Failure Int) := do
  host.record (.received line)
  host.record (.substituted (substitution.apply line))
  match ← host.spawn (substitution.apply line) with
  | .error failure => return .error failure
  | .ok child =>
      match ← host.collect child with
      | .error failure => return .error failure
      | .ok exitCode =>
          host.record (.finished exitCode)
          return .ok exitCode

/-- Invoke the substitute in place of the program on a line. A failure is reported on standard error
and has its own exit code. -/
def run (host : Host m Child) (substitution : Substitution) (line : String) : m Int := do
  match ← host.attempt substitution line with
  | .error failure =>
      host.complain (failure.text ++ "\n")
      return failureExitCode
  | .ok exitCode => return exitCode

/-- A whole interposed process: the line is put together from the arguments it was started with,
with an event for each one that is not valid text, and run. -/
def interpose (host : Host m Child) (substitution : Substitution) (arguments : List Octets) :
    m Int := do
  (arguments.filter fun argument => (Utf8.decode? argument).isNone).forM fun _ =>
    host.record .lossyArgument
  host.run substitution (joinLossy arguments)

end Host

end Interposer
