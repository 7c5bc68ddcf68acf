import Interposer.CommandLine.Grammar
import Interposer.Proofs.CommandLine.Seam

/-!
# Where the program ends

The scan for the end of the program counts octets and remembers whether the next one is covered. The
grammar of the token knows neither: it takes characters, and inside quotes it takes a backslash
together with the character after it. `Region.token` says what the grammar makes of a text that
begins in the middle of such a pair, and with it one step of the scan is one step of the grammar.
Everything else about the boundary follows: it lies between two characters, the line is cut there
without loss, and what comes after it is nothing or begins with a space.
-/

namespace Interposer.CommandLine

/-! ### The grammar, one character at a time -/

/-- The part of a text that belongs to the token, where the text begins in a given region. -/
def Region.token : Region → List Char → List Char
  | .outside, text => tokenOutside text
  | .inside, text => tokenInside text
  | .covered, [] => []
  | .covered, c :: rest => c :: tokenInside rest

namespace Region

theorem token_nil (region : Region) : region.token [] = [] := by
  cases region <;> rfl

theorem token_outside_space (rest : List Char) : outside.token (' ' :: rest) = [] := rfl

theorem token_inside_backslash (rest : List Char) :
    inside.token ('\\' :: rest) = '\\' :: covered.token rest := by
  cases rest with
  | nil => rfl
  | cons c rest => rfl

theorem token_inside_other {c : Char} (hbackslash : c ≠ '\\') (rest : List Char) :
    inside.token (c :: rest) =
      if c = '"' then c :: outside.token rest else c :: inside.token rest := by
  change tokenInside (c :: rest) = _
  rw [tokenInside]
  · rfl
  · intro d more hpair
    exact absurd hpair hbackslash

theorem token_cons {region : Region} {c : Char} (hgoes : ¬ (region = .outside ∧ c = ' '))
    (rest : List Char) : region.token (c :: rest) = c :: (region.afterChar c).token rest := by
  cases region with
  | covered => rfl
  | outside =>
      have hspace : c ≠ ' ' := fun heq => hgoes ⟨rfl, heq⟩
      change tokenOutside (c :: rest) = _
      rw [tokenOutside, if_neg hspace, afterChar]
      split
      · rfl
      · rfl
  | inside =>
      -- a backslash is half of a pair, and the other half is left to the next step
      by_cases hbackslash : c = '\\'
      · subst hbackslash
        exact token_inside_backslash rest
      · rw [token_inside_other hbackslash, afterChar, if_neg hbackslash]
        split
        · rfl
        · rfl

end Region

theorem fst_tokenAndRest (region : Region) (text : List Char) :
    (tokenAndRest region text).1 = region.token text := by
  induction text generalizing region with
  | nil => exact region.token_nil.symm
  | cons c rest ih =>
      by_cases hstop : region = .outside ∧ c = ' '
      · obtain ⟨rfl, rfl⟩ := hstop
        rw [tokenAndRest, if_pos ⟨rfl, rfl⟩, Region.token_outside_space]
      · rw [tokenAndRest_cons hstop, Region.token_cons hstop, ih]

/-! ### The boundary -/

theorem programToken_eq (line : String) :
    programToken line = String.ofList (tokenOutside line.toList) := by
  rw [programToken, cut_eq, fst_tokenAndRest]
  rfl

theorem cutAt?_programEnd (line : String) :
    cutAt? line (programEnd line) = some (programToken line, afterProgram line) := by
  have hcut := cutAt?_append (programToken line) (afterProgram line)
  rwa [programToken_append_afterProgram, ← programEnd_eq_utf8ByteSize] at hcut

theorem isValid_programEnd (line : String) : (⟨programEnd line⟩ : String.Pos.Raw).IsValid line :=
  String.Pos.Raw.isValid_iff_exists_append.2
    ⟨programToken line, afterProgram line, (programToken_append_afterProgram line).symm,
      congrArg String.Pos.Raw.mk (programEnd_eq_utf8ByteSize line)⟩

/-- The program ends before the first space outside quotes, or with the line. Both parts of the line
can be had there, they make up the line, and the second is empty or begins with a space. -/
theorem programEnd_grammatical (line : String) :
    programEnd line = (String.ofList (tokenOutside line.toList)).utf8ByteSize ∧
      programEnd line ≤ line.utf8ByteSize ∧
      (⟨programEnd line⟩ : String.Pos.Raw).IsValid line ∧
      cutAt? line (programEnd line) = some (programToken line, afterProgram line) ∧
      programToken line ++ afterProgram line = line ∧
      (afterProgram line = "" ∨ ∃ rest, afterProgram line = " " ++ rest) := by
  have hsize := programEnd_eq_utf8ByteSize line
  have hparts := programToken_append_afterProgram line
  refine ⟨by rw [hsize, programToken_eq], ?_, isValid_programEnd line, cutAt?_programEnd line,
    hparts, (detached_afterProgram line).cases⟩
  calc programEnd line
      ≤ (programToken line).utf8ByteSize + (afterProgram line).utf8ByteSize := by omega
    _ = line.utf8ByteSize := by rw [← String.utf8ByteSize_append, hparts]

/-- The quote that is covered and the space after it stand inside the quotes. -/
example : programEnd "\"é\\\" x\" y" = 8 := by decide

end Interposer.CommandLine
