/-!
# Diagnostic events

What an interposed program may report of its work. An event has a level and a target, by which a
filter chooses, and a text.
-/

namespace Interposer

/-- How severe an event is. -/
inductive Level where
  | error
  | warn
  | info
  | debug
  | trace
  deriving DecidableEq, Repr

namespace Level

/-- The place of a level, where a more severe one comes first. -/
def rank : Level → Nat
  | error => 1
  | warn => 2
  | info => 3
  | debug => 4
  | trace => 5

/-- How a level is written in a report. -/
def name : Level → String
  | error => "ERROR"
  | warn => "WARN"
  | info => "INFO"
  | debug => "DEBUG"
  | trace => "TRACE"

/-- The name of a level, set to the right of five columns. -/
def column (level : Level) : String :=
  String.ofList (List.replicate (5 - level.name.length) ' ') ++ level.name

end Level

/-- Something that happens while a program is stood in for. -/
inductive Event where
  /-- An argument was not valid text. -/
  | lossyArgument
  /-- A command line came in. -/
  | received (line : String)
  /-- The command line that invokes the substitute is known. -/
  | substituted (line : String)
  | started (program : String)
  | finished (exitCode : Int)
  deriving DecidableEq, Repr

namespace Event

/-- The severity of an event. -/
def level : Event → Level
  | lossyArgument => .warn
  | _ => .debug

/-- The part of the program that an event comes from. -/
def target : Event → String
  | lossyArgument => "chain_wrapper::command_line"
  | received _ | substituted _ | finished _ => "chain_wrapper::wrapper"
  | started _ => "chain_wrapper::launcher::platform"

/-- The text of an event. The number of a process differs from run to run and is masked. -/
def text : Event → String
  | lossyArgument => "Argument is not valid UTF-8; invalid sequences replaced"
  | received line => "Old: [" ++ line ++ "]"
  | substituted line => "New: [" ++ line ++ "]"
  | started program => "Spawned " ++ program ++ " pid=PID"
  | finished exitCode => "Real tool finished exit_code=" ++ toString exitCode

/-- The line that reports an event. Nothing in it is escaped. -/
def line (event : Event) : String :=
  event.level.column ++ " " ++ event.target ++ ": " ++ event.text ++ "\n"

end Event

end Interposer
