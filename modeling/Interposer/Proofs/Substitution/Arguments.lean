import Interposer.Proofs.CommandLine.Seam
import Interposer.Substitution.Basic

/-!
# What a substituted line invokes

A substitution works on the text and reads none of it. Here is what the line it makes is read as:
the substitute, its flags, and the arguments of the given line between them. The one seam that the
substitution cannot answer for is the one after the arguments, where the given line may stand inside
quotes.
-/

namespace Interposer

open CommandLine

namespace Substitution

variable (substitution : Substitution)

theorem detached_ending : Detached substitution.ending := by
  by_cases hafter : substitution.after.isEmpty
  · rw [ending_of_isEmpty hafter]
    exact detached_empty
  · rw [ending_of_not_isEmpty hafter]
    exact detached_space_append _

theorem closed_ending (hafter : Closed substitution.after) : Closed substitution.ending := by
  by_cases hempty : substitution.after.isEmpty
  · rw [ending_of_isEmpty hempty]
    exact closed_empty
  · rw [ending_of_not_isEmpty hempty, closed_space_append_iff]
    exact hafter

theorem operands_append_ending_iff (text : String) :
    operands (text ++ substitution.ending) = operands text ++ operands substitution.after ↔
      substitution.after = "" ∨ Closed text := by
  by_cases hafter : substitution.after.isEmpty
  · have hempty : substitution.after = "" := String.isEmpty_iff.1 hafter
    rw [ending_of_isEmpty hafter, hempty, operands_empty, String.append_empty, List.append_nil]
    exact iff_of_true rfl (.inl rfl)
  · have hempty : substitution.after ≠ "" := fun h => hafter (String.isEmpty_iff.2 h)
    rw [ending_of_not_isEmpty hafter, operands_append_space_iff, or_iff_right hempty]

theorem apply_eq (line : String) :
    substitution.apply line =
      substitution.program ++
        (" " ++ (substitution.before ++ (afterProgram line ++ substitution.ending))) := by
  simp only [apply, String.append_assoc]

variable {substitution}

theorem cut_apply (hprogram : SelfContained substitution.program) (line : String) :
    cut (substitution.apply line) =
      (substitution.program,
        " " ++ (substitution.before ++ (afterProgram line ++ substitution.ending))) := by
  rw [apply_eq]
  exact hprogram.cut (detached_space_append _)

theorem afterProgram_apply (hprogram : SelfContained substitution.program) (line : String) :
    afterProgram (substitution.apply line) =
      " " ++ (substitution.before ++ (afterProgram line ++ substitution.ending)) := by
  rw [afterProgram, cut_apply hprogram]

theorem invokedProgram_apply (hprogram : SelfContained substitution.program) (line : String) :
    invokedProgram (substitution.apply line) = unquoted substitution.program := by
  rw [invokedProgram, programToken, cut_apply hprogram]

theorem split_apply (hprogram : SelfContained substitution.program) (line : String) :
    split (substitution.apply line) =
      unquoted substitution.program :: operands (afterProgram (substitution.apply line)) := by
  have hline : substitution.apply line ≠ "" := by simp [apply_eq]
  rw [split_of_ne_empty hline, invokedProgram_apply hprogram]

theorem operands_afterProgram_apply (hprogram : SelfContained substitution.program)
    (hbefore : Closed substitution.before) (line : String) :
    operands (afterProgram (substitution.apply line)) =
      operands substitution.before ++ operands (afterProgram line ++ substitution.ending) := by
  have hrest := (detached_afterProgram line).append substitution.detached_ending
  rw [afterProgram_apply hprogram, operands_space_append, hbefore.operands_append hrest]

theorem operands_afterProgram_apply_of_closed (hprogram : SelfContained substitution.program)
    (hbefore : Closed substitution.before) {line : String} (hline : Closed (afterProgram line)) :
    operands (afterProgram (substitution.apply line)) =
      operands substitution.before ++ operands (afterProgram line) ++
        operands substitution.after := by
  rw [operands_afterProgram_apply hprogram hbefore,
    (substitution.operands_append_ending_iff _).2 (.inr hline), List.append_assoc]

/-- The arguments of the line come between the flags, each as it was, exactly if there are no flags
to put after them or the line leaves no quotes open. -/
theorem split_apply_eq_iff (hprogram : SelfContained substitution.program)
    (hbefore : Closed substitution.before) (line : String) :
    split (substitution.apply line) =
        [unquoted substitution.program] ++ operands substitution.before ++ (split line).tail ++
          operands substitution.after ↔
      substitution.after = "" ∨ Closed (afterProgram line) := by
  rw [split_apply hprogram, operands_afterProgram_apply hprogram hbefore, tail_split,
    ← substitution.operands_append_ending_iff]
  simp

theorem split_apply_eq_iff_left_open :
    SelfContained "\"real tools\\cl\"" ∧ Closed "\"/D A\"" ∧
      (split (Substitution.apply ⟨"\"real tools\\cl\"", "\"/D A\"", "/link"⟩ "cl \"b c") =
          [unquoted "\"real tools\\cl\""] ++ operands "\"/D A\"" ++ (split "cl \"b c").tail ++
            operands "/link" ↔
        "/link" = "" ∨ Closed (afterProgram "cl \"b c")) :=
  ⟨by decide, by decide, split_apply_eq_iff (by decide) (by decide) "cl \"b c"⟩

end Substitution

end Interposer
