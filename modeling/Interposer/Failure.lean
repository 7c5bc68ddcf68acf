/-!
# Failures to run the tool

Running the tool fails at one of two points: its process cannot be created, or it ran and its exit
code cannot be had. A failing tool is no failure of this kind.
-/

namespace Interposer

/-- The point at which running a tool failed. -/
inductive Stage where
  /-- The process could not be created. -/
  | spawn
  /-- The process ran, but its exit code could not be had. -/
  | status
  deriving DecidableEq, Repr

/-- A failure to run a tool. -/
structure Failure where
  stage : Stage
  program : String
  reason : String
  deriving DecidableEq, Repr

/-- How the diagnostic of a stage begins. -/
def Stage.opening : Stage → String
  | spawn => "Failed to launch"
  | status => "Could not retrieve exit code for"

/-- The diagnostic of a failure. Nothing in it is escaped. -/
def Failure.text (error : Failure) : String :=
  error.stage.opening ++ " \"" ++ error.program ++ "\": " ++ error.reason

end Interposer
