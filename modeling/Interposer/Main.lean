import Interposer.Event.Settings
import Interposer.Host
import Interposer.Role

/-!
# The command

The command is called with the name of a role and then with all of the call it stands in for. It is
an interposed program whose host starts nothing: in the place of a process it writes the arguments
of the process, each ended by a NUL, for a program that starts others to read. What the environment
asks to be told goes to standard error.
-/

namespace Interposer

open CommandLine

/-- The environment of the running process. -/
def currentEnvironment : IO Environment := do
  return ⟨(← IO.getEnv "CHAIN_WRAPPER_VERBOSE").map Utf8.encode,
    (← IO.getEnv "CHAIN_WRAPPER_LOG").map Utf8.encode⟩

/-- A host that writes the arguments of a process instead of starting it. There is no tool that
could finish, so nothing is told of that. -/
def callWriter (filter : Filter) : Host IO Unit where
  spawn line := do
    (split line).forM fun argument => IO.print (argument ++ "\x00")
    return .ok ()
  wait _ := return .ok 0
  release _ := return ()
  record
    | .finished _ => return ()
    | event => if filter.enables event then IO.eprint event.line else return ()
  complain text := IO.eprint text

/-- Stand in for the tool of a role, and give the exit code. -/
def standIn (role : Role) (arguments : List String) : IO UInt32 := do
  let filter := (Settings.ofEnvironment (← currentEnvironment)).toFilter
  let exitCode ←
    (callWriter filter).interpose (role.substitution {}) (arguments.map Utf8.encode)
  return exitCode.toNat.toUInt32

end Interposer

/-- The command line: a role, and the call to stand in for. -/
def main (arguments : List String) : IO UInt32 := do
  match arguments with
  | "compiler" :: call => Interposer.standIn .compiler call
  | "linker" :: call => Interposer.standIn .linker call
  | _ =>
      IO.eprintln "The first argument has to be compiler or linker"
      return Interposer.failureExitCode.toNat.toUInt32
