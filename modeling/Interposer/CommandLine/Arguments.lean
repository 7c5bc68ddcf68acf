import Interposer.CommandLine.Program

/-!
# Reading arguments

The text after the program is read one character at a time. Spaces and tabs outside quotes separate
arguments. What a run of backslashes means is only known at the character after it: before a double
quote every pair stands for one backslash, and one left over makes the quote an ordinary character;
anywhere else they stand for themselves. Any other quote opens or closes a quoted region, except
that two quotes in a row inside a region are one ordinary quote. A region left open ends with the
line.

The reader keeps the run and the open argument in its state, so that a text and its continuation are
read by the same steps as the whole.
-/

namespace Interposer.CommandLine

/-- Spaces and tabs separate arguments. -/
def isBlank (c : Char) : Bool := c == ' ' || c == '\t'

/-- A run of backslashes. -/
def backslashes (count : Nat) : String := String.ofList (List.replicate count '\\')

/-- Where the reader stands: the value of the open argument so far, and the length of the run of
backslashes that was read last and is not part of the value yet. -/
inductive Reading where
  /-- No argument is open. -/
  | between
  /-- In an argument, outside quotes. -/
  | bare (value : String) (run : Nat)
  /-- In an argument, inside quotes. -/
  | quoted (value : String) (run : Nat)
  /-- Right after a quote that closes its region unless another quote follows. -/
  | closing (value : String)
  deriving DecidableEq, Repr

namespace Reading

/-- The open argument, if the text ended here. -/
def value? : Reading → Option String
  | between => none
  | bare value run | quoted value run => some (value ++ backslashes run)
  | closing value => some value

/-- Whether a character is a separator where the reader stands. -/
def endsAt : Reading → Char → Bool
  | quoted _ _, _ => false
  | _, c => isBlank c

/-- One more character of an argument, outside quotes. -/
def nextBare (value : String) (run : Nat) (c : Char) : Reading :=
  if c = '\\' then bare value (run + 1)
  else if c = '"' then
    if run % 2 = 1 then bare ((value ++ backslashes (run / 2)).push '"') 0
    else quoted (value ++ backslashes (run / 2)) 0
  else bare ((value ++ backslashes run).push c) 0

/-- One more character of an argument, inside quotes. -/
def nextQuoted (value : String) (run : Nat) (c : Char) : Reading :=
  if c = '\\' then quoted value (run + 1)
  else if c = '"' then
    if run % 2 = 1 then quoted ((value ++ backslashes (run / 2)).push '"') 0
    else closing (value ++ backslashes (run / 2))
  else quoted ((value ++ backslashes run).push c) 0

/-- Where the reader stands after one more character. -/
def next (reading : Reading) (c : Char) : Reading :=
  if reading.endsAt c then between
  else match reading with
    | between => nextBare "" 0 c
    | bare value run => nextBare value run c
    | quoted value run => nextQuoted value run c
    | closing value => if c = '"' then quoted (value.push '"') 0 else nextBare value 0 c

/-- The argument that a character completes, if it ends one. -/
def completed? (reading : Reading) (c : Char) : Option String :=
  if reading.endsAt c then reading.value? else none

/-- The arguments completed by a text, the one left open at its end included. -/
def read : Reading → List Char → List String
  | reading, [] => reading.value?.toList
  | reading, c :: rest => (reading.completed? c).toList ++ (reading.next c).read rest

/-- Where the reader stands after a text. -/
def after (reading : Reading) (text : List Char) : Reading := text.foldl next reading

/-- The arguments completed by a text, without the one left open at its end. -/
def completed : Reading → List Char → List String
  | _, [] => []
  | reading, c :: rest => (reading.completed? c).toList ++ (reading.next c).completed rest

@[simp] theorem after_nil (reading : Reading) : reading.after [] = reading := rfl

@[simp] theorem after_cons (reading : Reading) (c : Char) (rest : List Char) :
    reading.after (c :: rest) = (reading.next c).after rest := rfl

@[simp] theorem after_append (reading : Reading) (text rest : List Char) :
    reading.after (text ++ rest) = (reading.after text).after rest :=
  List.foldl_append

/-- A text put together from two is read in one go or in two. -/
theorem read_append (reading : Reading) (text rest : List Char) :
    reading.read (text ++ rest) = reading.completed text ++ (reading.after text).read rest := by
  induction text generalizing reading with
  | nil => rfl
  | cons c text ih =>
      simp only [List.cons_append, read, completed, after_cons, ih, List.append_assoc]

/-- The end of a text adds the open argument to those completed before. -/
theorem read_eq (reading : Reading) (text : List Char) :
    reading.read text = reading.completed text ++ (reading.after text).value?.toList := by
  rw [← List.append_nil text, read_append, List.append_nil, read]

end Reading

/-- The arguments written in a text that follows a program. -/
def operands (text : String) : List String := Reading.between.read text.toList

/-- The program a line invokes and its arguments. An empty line invokes nothing. -/
def split (line : String) : List String :=
  if line.isEmpty then [] else invokedProgram line :: operands (afterProgram line)

end Interposer.CommandLine
