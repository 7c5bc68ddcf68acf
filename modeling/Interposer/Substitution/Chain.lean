import Interposer.CommandLine.Quoted
import Interposer.Substitution.Basic

/-!
# Chains of substitutions

A tool may be stood in for several times over, each substitute being called with the line that the
one before it made. It sees that line either as it was made, or put together again from the
arguments that its process was started with.
-/

namespace Interposer

open CommandLine

/-- A line put together again from its arguments. -/
def CommandLine.rejoin (line : String) : String := join (split line)

/-- How a line reaches the next substitute of a chain. -/
inductive Passage where
  /-- As it was made. -/
  | raw
  /-- As a list of arguments. -/
  | rejoined
  deriving DecidableEq, Repr

/-- The line that the next substitute sees. -/
def Passage.carry : Passage → String → String
  | raw, line => line
  | rejoined, line => rejoin line

/-- The lines that a chain of substitutions makes, from the first substitution on. -/
def Substitution.chain (passage : Passage) : String → List Substitution → List String
  | _, [] => []
  | line, substitution :: rest =>
      substitution.apply line :: chain passage (passage.carry (substitution.apply line)) rest

end Interposer
