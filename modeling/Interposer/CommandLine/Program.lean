import Interposer.Text.Utf8

/-!
# The program on a command line

A command line begins with the program it invokes. The program's token ends at the first space
outside double quotes; it may be empty, and without such a space it is the whole line. Inside quotes
a backslash covers the character after it, so that a covered quote does not close them; outside
quotes a backslash is an ordinary character.

The token is found by its size in octets. Space, quote and backslash are single octets in UTF-8 and
no longer character contains them, so the line can be cut there.
-/

namespace Interposer.CommandLine

/-- Where the scan for the end of the program stands. -/
inductive Region where
  /-- Outside quotes. -/
  | outside
  /-- Inside quotes. -/
  | inside
  /-- Inside quotes, right after a backslash that covers the next character. -/
  | covered
  deriving DecidableEq, Repr

/-- The region after one more octet. -/
def Region.next : Region → UInt8 → Region
  | .outside, octet => if octet = '"'.toUInt8 then .inside else .outside
  | .inside, octet =>
      if octet = '"'.toUInt8 then .outside else if octet = '\\'.toUInt8 then .covered else .inside
  | .covered, _ => .inside

/-- The number of octets before the first space outside quotes, or of all octets without one. -/
def tokenSize : Region → Octets → Nat
  | _, [] => 0
  | region, octet :: rest =>
      if region = .outside ∧ octet = ' '.toUInt8 then 0 else tokenSize (region.next octet) rest + 1

/-- The offset in octets at which the program's token ends. -/
def programEnd (line : String) : Nat := tokenSize .outside (Utf8.encode line)

/-- The two parts of a line at an offset in octets, if no character lies across it. -/
def cutAt? (line : String) (offset : Nat) : Option (String × String) :=
  (line.pos? ⟨offset⟩).map fun position =>
    ((line.sliceTo position).copy, (line.sliceFrom position).copy)

/-- A line is cut where two texts were put together. -/
theorem cutAt?_append (left right : String) :
    cutAt? (left ++ right) left.utf8ByteSize = some (left, right) := by
  have hvalid : (⟨left.utf8ByteSize⟩ : String.Pos.Raw).IsValid (left ++ right) :=
    String.Pos.Raw.isValid_iff_exists_append.2 ⟨left, right, rfl, rfl⟩
  have hpos : (left ++ right).pos? ⟨left.utf8ByteSize⟩
      = some ((left ++ right).pos ⟨left.utf8ByteSize⟩ hvalid) := by
    simp [String.pos?, String.Slice.pos?, hvalid]
    rfl
  have hsplits : ((left ++ right).pos ⟨left.utf8ByteSize⟩ hvalid).Splits left right := ⟨rfl, rfl⟩
  have hcopies := String.Pos.splits ((left ++ right).pos ⟨left.utf8ByteSize⟩ hvalid)
  simp only [cutAt?, hpos, Option.map_some, hcopies.eq_left hsplits, hcopies.eq_right hsplits]

/-- The program's token as it is written, and the text after it. -/
def cut (line : String) : String × String := (cutAt? line (programEnd line)).getD (line, "")

/-- The program's token as it is written. -/
def programToken (line : String) : String := (cut line).1

/-- What follows the program's token: nothing, or a space and more. -/
def afterProgram (line : String) : String := (cut line).2

/-- A text without its double quotes. -/
def unquoted (text : String) : String := String.ofList (text.toList.filter (· ≠ '"'))

/-- The program a line invokes: its token, less the double quotes. -/
def invokedProgram (line : String) : String := unquoted (programToken line)

end Interposer.CommandLine
