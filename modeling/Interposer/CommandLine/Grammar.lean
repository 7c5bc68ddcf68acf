import Interposer.CommandLine.Arguments

/-!
# The grammar of a command line

What a command line says, by rules about whole runs of backslashes and whole regions. The scans of
`Program` and `Arguments` go through the text one octet or one character at a time; here a rule
takes up all that belongs together.
-/

namespace Interposer.CommandLine

/-! ### The program -/

mutual

/-- The part of a text before the first space outside quotes, from a place outside quotes on. -/
def tokenOutside : List Char → List Char
  | [] => []
  | c :: rest =>
      if c = ' ' then []
      else if c = '"' then c :: tokenInside rest
      else c :: tokenOutside rest

/-- The part of a text before the first space outside quotes, from a place inside quotes on. A
backslash and the character after it belong together. -/
def tokenInside : List Char → List Char
  | [] => []
  | '\\' :: c :: rest => '\\' :: c :: tokenInside rest
  | c :: rest => if c = '"' then c :: tokenOutside rest else c :: tokenInside rest

end

/-! ### The arguments -/

/-- Where in a list of arguments a text goes on. -/
inductive Place where
  | between
  | bare
  | quoted
  deriving DecidableEq, Repr

/-- Whether a text goes on with a given character. -/
def BeginsWith (c : Char) (text : List Char) : Prop := text.head? = some c

/-- The arguments that a text denotes from a place on. Where an argument is open, the first of them
is the rest of it. -/
inductive Denotes : Place → List Char → List (List Char) → Prop where
  /-- Nothing is left. -/
  | done : Denotes .between [] []
  /-- Blanks between arguments denote nothing. -/
  | blank {c : Char} {rest : List Char} {arguments : List (List Char)} :
      isBlank c → Denotes .between rest arguments → Denotes .between (c :: rest) arguments
  /-- Any other character begins an argument. -/
  | argument {c : Char} {rest : List Char} {arguments : List (List Char)} :
      ¬ isBlank c → Denotes .bare (c :: rest) arguments → Denotes .between (c :: rest) arguments
  /-- An argument ends with the text. -/
  | finish : Denotes .bare [] [[]]
  /-- An argument ends before a blank. -/
  | separator {c : Char} {rest : List Char} {arguments : List (List Char)} :
      isBlank c → Denotes .between rest arguments → Denotes .bare (c :: rest) ([] :: arguments)
  /-- A region that is left open ends with the text. -/
  | unterminated : Denotes .quoted [] [[]]
  /-- An ordinary character denotes itself, and so does a blank inside quotes. -/
  | ordinary {place : Place} {c : Char} {rest value : List Char} {arguments : List (List Char)} :
      place = .quoted ∨ place = .bare ∧ ¬ isBlank c → c ≠ '\\' → c ≠ '"' →
      Denotes place rest (value :: arguments) →
      Denotes place (c :: rest) ((c :: value) :: arguments)
  /-- A run of backslashes that is not before a quote denotes itself. -/
  | run {place : Place} {rest value : List Char} {arguments : List (List Char)} (n : Nat) :
      place ≠ .between → 0 < n → ¬ BeginsWith '\\' rest → ¬ BeginsWith '"' rest →
      Denotes place rest (value :: arguments) →
      Denotes place (List.replicate n '\\' ++ rest)
        ((List.replicate n '\\' ++ value) :: arguments)
  /-- An odd run before a quote denotes half of the run and the quote. -/
  | literal {place : Place} {rest value : List Char} {arguments : List (List Char)} (n : Nat) :
      place ≠ .between → Denotes place rest (value :: arguments) →
      Denotes place (List.replicate (2 * n + 1) '\\' ++ '"' :: rest)
        ((List.replicate n '\\' ++ '"' :: value) :: arguments)
  /-- An even run before a quote denotes half of the run, and the quote opens a region. -/
  | opening {rest value : List Char} {arguments : List (List Char)} (n : Nat) :
      Denotes .quoted rest (value :: arguments) →
      Denotes .bare (List.replicate (2 * n) '\\' ++ '"' :: rest)
        ((List.replicate n '\\' ++ value) :: arguments)
  /-- Two quotes after an even run inside a region denote one, and the region goes on. -/
  | doubled {rest value : List Char} {arguments : List (List Char)} (n : Nat) :
      Denotes .quoted rest (value :: arguments) →
      Denotes .quoted (List.replicate (2 * n) '\\' ++ '"' :: '"' :: rest)
        ((List.replicate n '\\' ++ '"' :: value) :: arguments)
  /-- Any other quote after an even run closes its region. -/
  | closing {rest value : List Char} {arguments : List (List Char)} (n : Nat) :
      ¬ BeginsWith '"' rest → Denotes .bare rest (value :: arguments) →
      Denotes .quoted (List.replicate (2 * n) '\\' ++ '"' :: rest)
        ((List.replicate n '\\' ++ value) :: arguments)

end Interposer.CommandLine
