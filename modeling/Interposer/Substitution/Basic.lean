import Interposer.CommandLine.Program

/-!
# Substituting the program of a command line

A substitution puts another program in the place of the one a command line invokes and adds fixed
flags around the arguments. It works on the text: what follows the program's token is copied as it
stands and never read, with the space that stood before the arguments.
-/

namespace Interposer

open CommandLine

/-- Where the flags of a substitution go. -/
inductive Placement where
  /-- All of them stand before the arguments. -/
  | leading
  /-- Some of them stand after the last argument. -/
  | surrounding
  deriving DecidableEq, Repr

/-- What to invoke in place of the program on a line, and the flags to add. -/
structure Substitution where
  /-- The program, as it is to be written on the line. -/
  program : String
  /-- The flags before the arguments, as they are to be written. -/
  before : String
  /-- The flags after the arguments, as they are to be written. -/
  after : String
  deriving DecidableEq, Repr

namespace Substitution

/-- Flags stand on both sides exactly if there are flags to put after the arguments. -/
def placement (substitution : Substitution) : Placement :=
  if substitution.after.isEmpty then .leading else .surrounding

/-- The text added after the arguments: nothing, or a space and the flags. -/
def ending (substitution : Substitution) : String :=
  match substitution.placement with
  | .leading => ""
  | .surrounding => " " ++ substitution.after

@[simp] theorem ending_of_isEmpty {substitution : Substitution}
    (hafter : substitution.after.isEmpty) : substitution.ending = "" := by
  simp [ending, placement, hafter]

@[simp] theorem ending_of_not_isEmpty {substitution : Substitution}
    (hafter : ¬ substitution.after.isEmpty) : substitution.ending = " " ++ substitution.after := by
  simp [ending, placement, hafter]

/-- The line that invokes the substitute with the flags and the arguments of the given line. -/
def apply (substitution : Substitution) (line : String) : String :=
  substitution.program ++ " " ++ substitution.before ++ afterProgram line ++ substitution.ending

end Substitution

end Interposer
