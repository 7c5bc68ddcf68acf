import Interposer.CommandLine.Arguments

/-!
# Writing arguments

An argument is written so that it is read back unchanged. It stands as it is unless it is empty or
holds a blank, a line break or a double quote; then it stands in quotes, where a quote is written
with a backslash before it. A run of backslashes that reaches a quote, the closing one included, is
doubled, and every other backslash is written once.
-/

namespace Interposer.CommandLine

/-- Space, tab, line feed, vertical tab and the double quote cannot stand outside quotes. -/
def forcesQuotes (c : Char) : Bool :=
  c == ' ' || c == '\t' || c == '\n' || c == '\x0b' || c == '"'

/-- Whether an argument has to be written in quotes. -/
def needsQuotes (argument : String) : Bool :=
  argument.isEmpty || argument.toList.any forcesQuotes

/-- Whether a run of backslashes that goes on with this text reaches a quote, where the end of the
text counts as the closing one. -/
def reachesQuote : List Char → Bool
  | [] => true
  | c :: rest => if c = '\\' then reachesQuote rest else c == '"'

/-- The text between the quotes around an argument. -/
def escape : List Char → List Char
  | [] => []
  | c :: rest =>
      if c = '"' then '\\' :: '"' :: escape rest
      else if c = '\\' ∧ reachesQuote rest then '\\' :: '\\' :: escape rest
      else c :: escape rest

/-- One argument as it is written on a command line. -/
def quote (argument : String) : String :=
  if needsQuotes argument then String.ofList ('"' :: escape argument.toList ++ ['"'])
  else argument

/-- The command line of a list of arguments, with one space between two of them. -/
def join (arguments : List String) : String := " ".intercalate (arguments.map quote)

/-- The command line of a process that was started with these arguments, read as text as far as they
are text. -/
def joinLossy (arguments : List Octets) : String := join (arguments.map Utf8.decodeLossy)

end Interposer.CommandLine
