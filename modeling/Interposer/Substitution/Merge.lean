import Interposer.Substitution.Basic

/-!
# Merging substitutions

Two substitutions, one made on the line that the other made, come to a single one. The program is
that of the later one; its flags stand outside those of the earlier one on both sides. So do any
number of them, with the flags of the first one closest to the arguments.
-/

namespace Interposer.Substitution

/-- Flags after the arguments, followed by more of them. -/
def joinAfter (inner outer : String) : String :=
  if inner.isEmpty then outer else if outer.isEmpty then inner else inner ++ " " ++ outer

/-- One substitution in the place of two, the first of which is made before the second. -/
def andThen (first second : Substitution) : Substitution where
  program := second.program
  before := second.before ++ " " ++ first.before
  after := joinAfter first.after second.after

/-- One substitution in the place of a list of them, each of which is made before the next. -/
def merged (first : Substitution) (rest : List Substitution) : Substitution where
  program := ((first :: rest).getLast nofun).program
  before := " ".intercalate ((first :: rest).reverse.map (·.before))
  after := " ".intercalate (((first :: rest).map (·.after)).filter (· ≠ ""))

end Interposer.Substitution
