import Interposer.SystemError.Messages
import Interposer.Text.Utf8

/-!
# Describing errors

An error with a code is described by the system's message for it, less the whitespace at its end.
Where the look-up fails, or nothing is left, the description gives the code. It is therefore never
empty and never ends in whitespace. An error without a code brings its own text.
-/

namespace Interposer

/-- Why an operation on processes failed. -/
inductive SystemError where
  /-- The operating system gave this code. -/
  | code (number : Int)
  /-- The request was refused before it reached the operating system. -/
  | refused (reason : String)
  deriving DecidableEq, Repr

namespace SystemError

/-- The characters cut from the end of a message. Other whitespace stays. -/
def isTrailing (c : Char) : Bool := c == ' ' || c == '\t' || c == '\n' || c == '\r'

/-- A message without the trailing characters at its end. -/
def trimEnd (message : String) : String :=
  String.ofList (message.toList.reverse.dropWhile isTrailing).reverse

/-- The description of a code that has no usable message. -/
def numbered (number : Int) : String := s!"Error code ({number})"

/-- The description of a code, given what the look-up of its message yields. -/
def describeAs (number : Int) (message : Option String) : String :=
  ((message.map trimEnd).filter (!·.isEmpty)).getD (numbered number)

/-- The description of a code whose message arrives as octets, if at all. -/
def describeFetched (number : Int) (message : Option Octets) : String :=
  describeAs number (message.map Utf8.decodeLossy)

/-- The description of a code by the messages of the system. -/
def describeCode (number : Int) : String := describeAs number (systemMessage? number)

/-- The description of an error, by its code where there is one. -/
def describe : SystemError → String
  | code number => describeCode number
  | refused reason => reason

end SystemError

end Interposer
