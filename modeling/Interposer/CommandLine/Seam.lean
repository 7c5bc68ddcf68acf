import Interposer.CommandLine.Arguments

/-!
# Seams

Texts that are put together into one command line are read as one. These are the conditions under
which each part is still read as if it stood alone, said by a single probe each.
-/

namespace Interposer.CommandLine

/-- Whether an argument that follows the text after a space is read as an argument of its own. -/
def Closed (text : String) : Prop := operands (text ++ " x") = operands text ++ ["x"]

instance (text : String) : Decidable (Closed text) :=
  inferInstanceAs (Decidable (operands (text ++ " x") = operands text ++ ["x"]))

/-- Whether a text that begins a line and is followed by a space is the program's token there. -/
def SelfContained (program : String) : Prop := programEnd (program ++ " ") = program.utf8ByteSize

instance (program : String) : Decidable (SelfContained program) :=
  inferInstanceAs (Decidable (programEnd (program ++ " ") = program.utf8ByteSize))

end Interposer.CommandLine
