import Interposer.Event.Settings
import Interposer.Host
import Interposer.SystemError.Basic

/-!
# A world of programs

The part of an operating system that an interposed program meets: which programs there are, what
each does with the arguments it is given, and what is written to the two output streams. A program
is found under its name or its path, just as it stands on a command line. A process does all its
work when it is started; its exit code is had by waiting for it.
-/

namespace Interposer

open CommandLine

/-- How a process ends. -/
inductive Ending where
  | exit (code : UInt8)
  | signal (number : Nat)
  deriving DecidableEq, Repr

/-- The exit code that stands for an ending: a signal is set apart from the codes of programs. -/
def Ending.exitCode : Ending → Int
  | exit code => code.toNat
  | signal number => 128 + number

/-- All that a process does. -/
structure Work where
  ending : Ending
  stdout : String
  stderr : String
  deriving DecidableEq, Repr

/-- What comes of executing a program with arguments, its own name first: the work of the process,
or the code of the error that keeps it from being executed. -/
abbrev Program := List String → Except Int Work

/-- Which programs there are, by name or path, and whether processes are cleared away before anyone
can wait for them. -/
structure World where
  programs : String → Option Program
  /-- Whether a wait comes too late. -/
  reaped : Bool := false

/-- A process: the arguments it was started with and all it did. -/
structure Process extends Work where
  /-- The arguments, the name of the program first. -/
  arguments : List String
  deriving DecidableEq, Repr

/-- The name of the program that a list of arguments starts. -/
def programOf (arguments : List String) : String := arguments.headD ""

/-- The name of the program that a process runs. -/
def Process.program (process : Process) : String := programOf process.arguments

/-- The output seen so far, and the arguments of the last process that ran. -/
structure Console where
  stdout : String := ""
  stderr : String := ""
  /-- The arguments of the last process, if one ran. -/
  started : Option (List String) := none
  deriving DecidableEq, Repr

/-- The console after more text on standard error. -/
def Console.addStderr (console : Console) (text : String) : Console :=
  { console with stderr := console.stderr ++ text }

/-- The console after a process has done its work. -/
def Console.addProcess (console : Console) (process : Process) : Console where
  stdout := console.stdout ++ process.stdout
  stderr := console.stderr ++ process.stderr
  started := some process.arguments

namespace World

/-- The program that a name or path stands for. An empty text stands for none. -/
def find? (world : World) (name : String) : Option Program :=
  if name.isEmpty then none else world.programs name

/-- What comes of executing the program that is named first among the arguments. -/
def execute (world : World) (arguments : List String) : Except Int Work :=
  match world.find? (programOf arguments) with
  | none => .error 2
  | some program => program arguments

/-- Whether a text holds the character that ends an argument for the operating system. -/
def holdsNul (text : String) : Bool := text.toList.contains '\x00'

/-- Start a program with arguments, its own name first. Arguments that the operating system cannot
be given are refused before the program is looked for. -/
def start (world : World) (arguments : List String) : Except SystemError Process :=
  if arguments.any holdsNul then .error (.refused "nul byte found in provided data")
  else match world.execute arguments with
    | .error number => .error (.code number)
    | .ok work => .ok ⟨work, arguments⟩

/-- The exit code of a process, unless the wait comes too late. -/
def status (world : World) (process : Process) : Except SystemError Int :=
  if world.reaped then .error (.code 10) else .ok process.ending.exitCode

/-- The operating system as a host, which reports the events that a filter enables. -/
def host (world : World) (filter : Filter) : Host (StateM Console) Process where
  spawn line := do
    match world.start (split line) with
    | .error cause => return .error ⟨.spawn, programOf (split line), cause.describe⟩
    | .ok process =>
        report (.started process.program)
        modify (·.addProcess process)
        return .ok process
  wait process :=
    match world.status process with
    | .error cause => return .error ⟨.status, process.program, cause.describe⟩
    | .ok exitCode => return .ok exitCode
  release _ := return ()
  record := report
  complain text := modify (·.addStderr text)
where
  /-- Report an event on standard error, if the filter enables it. -/
  report (event : Event) : StateM Console Unit :=
    if filter.enables event then modify (·.addStderr event.line) else return ()

/-- A whole interposed process, started with arguments in an environment: its exit code, and what
was seen of it. -/
def interpose (world : World) (environment : Environment) (substitution : Substitution)
    (arguments : List Octets) : Int × Console :=
  let filter := (Settings.ofEnvironment environment).toFilter
  ((world.host filter).interpose substitution arguments).run {}

end World

end Interposer
