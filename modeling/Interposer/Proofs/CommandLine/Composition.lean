import Interposer.Proofs.CommandLine.Seam

/-!
# A text and what is added to it

A command line is often made by adding to one that is there already. Blanks and more text leave the
arguments before them alone and bring their own exactly where no quotes are open; the probe in
`Closed` stands for all of them. Without blanks, or inside quotes, the last argument may change with
what is added. No earlier one can: it was completed before.
-/

namespace Interposer.CommandLine

/-- On a line that names a program, text added after blanks is read as if it stood alone exactly if
one more word would be, whatever the blanks and the text are. -/
theorem split_append_blanks_iff {blanks : String} (hsome : blanks ≠ "")
    (hblanks : blanks.toList.all isBlank) (text rest : String) :
    (split ("p " ++ (text ++ blanks ++ rest))).tail =
        (split ("p " ++ text)).tail ++ (split ("p " ++ rest)).tail ↔
      (split ("p " ++ (text ++ " x"))).tail = (split ("p " ++ text)).tail ++ ["x"] := by
  rw [tail_split_p_append, tail_split_p_append, tail_split_p_append, tail_split_p_append,
    String.append_assoc]
  exact operands_append_blanks_iff hsome hblanks text rest

/-- A text that ends in a quote but leaves no region open, and one that opens a region. -/
theorem split_append_blanks_iff_escaped :
    " \t\t " ≠ "" ∧ " \t\t ".toList.all isBlank ∧
      (split ("p " ++ (" \"a\"\"b\" c\\\"" ++ " \t\t " ++ "\"d e"))).tail =
        ["a\"b", "c\"", "d e"] := by
  have hsome : " \t\t " ≠ "" := by decide
  have hblanks : " \t\t ".toList.all isBlank := by decide
  have hseam := split_append_blanks_iff hsome hblanks " \"a\"\"b\" c\\\"" "\"d e"
  exact ⟨hsome, hblanks, (hseam.2 (by decide +kernel)).trans (by decide +kernel)⟩

theorem Reading.dropLast_read_isPrefix (reading : Reading) (text more : List Char) :
    List.IsPrefix (reading.read text).dropLast (reading.read (text ++ more)) := by
  have hcompleted : List.IsPrefix (reading.read text).dropLast (reading.completed text) := by
    rw [read_eq]
    -- the last argument was completed too if none is open at the end of the text
    cases (reading.after text).value? with
    | none =>
        rw [Option.toList_none, List.append_nil]
        exact List.dropLast_prefix _
    | some value =>
        have hdrop : (reading.completed text ++ [value]).dropLast = reading.completed text :=
          List.dropLast_concat
        exact hdrop.symm ▸ List.prefix_rfl
  rw [read_append]
  exact hcompleted.trans (List.prefix_append _ _)

/-- Whatever is added to a text, every argument but the last is read as before. -/
theorem dropLast_operands_isPrefix (text more : String) :
    (operands text).dropLast <+: operands (text ++ more) := by
  rw [operands, operands, String.toList_append]
  exact Reading.between.dropLast_read_isPrefix text.toList more.toList

theorem Reading.length_value?_le_read (reading : Reading) (text : List Char) :
    reading.value?.toList.length ≤ (reading.read text).length := by
  have hopen : reading.value?.isSome = reading.settled?.isSome := by cases reading <;> rfl
  cases hsettled : reading.settled? with
  | none =>
      rw [hsettled, Option.isSome_none, Option.isSome_eq_false_iff,
        Option.isNone_iff_eq_none] at hopen
      rw [hopen]
      exact Nat.zero_le _
  | some value =>
      obtain ⟨more, arguments, hread⟩ := read_of_settled? hsettled text
      rw [hsettled, Option.isSome_some, Option.isSome_iff_exists] at hopen
      obtain ⟨whole, hwhole⟩ := hopen
      rw [hwhole, hread, Option.toList_some, List.length_cons, List.length_cons]
      exact Nat.add_le_add_right (Nat.zero_le _) 1

/-- An argument that was open when a text ended is still there in a longer one. -/
theorem Reading.length_read_le_append (reading : Reading) (text more : List Char) :
    (reading.read text).length ≤ (reading.read (text ++ more)).length := by
  rw [read_eq, read_append, List.length_append, List.length_append]
  exact Nat.add_le_add_left ((reading.after text).length_value?_le_read more) _

theorem length_operands_le_append (text more : String) :
    (operands text).length ≤ (operands (text ++ more)).length := by
  rw [operands, operands, String.toList_append]
  exact Reading.between.length_read_le_append text.toList more.toList

/-! ### The whole line -/

theorem split_append_of_ended {line : String} (hended : afterProgram line ≠ "") (more : String) :
    split (line ++ more) = invokedProgram line :: operands (afterProgram line ++ more) := by
  have hcut := cut_append_of_ended hended more
  have hline : line ++ more ≠ "" := by
    intro hempty
    obtain ⟨rfl, -⟩ := String.append_eq_empty_iff.1 hempty
    exact hended rfl
  rw [split_of_ne_empty hline, invokedProgram, programToken, afterProgram, hcut]
  rfl

/-- Text added to a line leaves every argument but the last as it was, the program included, and the
last one may change but does not go away. -/
theorem dropLast_split_isPrefix (line more : String) :
    (split line).dropLast <+: split (line ++ more) ∧
      (split line).length ≤ (split (line ++ more)).length := by
  by_cases hline : line = ""
  · subst hline
    exact ⟨List.nil_prefix, Nat.zero_le _⟩
  by_cases hended : afterProgram line = ""
  · -- the program is the last argument, and what is added may become part of it
    have hmore : line ++ more ≠ "" := fun hempty => hline (String.append_eq_empty_iff.1 hempty).1
    rw [split_of_ne_empty hline, split_of_ne_empty hmore, hended]
    exact ⟨List.nil_prefix, Nat.le_add_left 1 _⟩
  · have harguments := dropLast_operands_isPrefix (afterProgram line) more
    have hlength := length_operands_le_append (afterProgram line) more
    rw [split_of_ne_empty hline, split_append_of_ended hended, List.length_cons, List.length_cons]
    refine ⟨?_, Nat.add_le_add_right hlength 1⟩
    cases hlist : operands (afterProgram line) with
    | nil => exact List.nil_prefix
    | cons first rest =>
        rw [hlist] at harguments
        rw [List.dropLast_cons_cons]
        exact (List.cons_prefix_cons).2 ⟨rfl, harguments⟩

end Interposer.CommandLine
