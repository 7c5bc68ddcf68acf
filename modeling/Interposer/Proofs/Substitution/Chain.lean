import Interposer.Proofs.CommandLine.RoundTrip
import Interposer.Proofs.Substitution.Arguments
import Interposer.Substitution.Chain

/-!
# What a chain of substitutions invokes

Each substitute of a chain sees a line made by the one before it, as text or put together again from
its arguments. The two texts differ, and the program on the second may have gained backslashes. But
the next substitution drops the program, and what follows it denotes the same arguments and leaves
no quotes open either way. So both chains invoke the same programs with the same arguments.
-/

namespace Interposer

open CommandLine

theorem afterProgram_rejoin (line : String) :
    afterProgram (rejoin line) = written (operands (afterProgram line)) := by
  by_cases hline : line = ""
  · subst hline
    rfl
  · rw [rejoin, split_of_ne_empty hline, afterProgram_join_cons]

namespace Passage

theorem operands_afterProgram_carry (passage : Passage) (line : String) :
    operands (afterProgram (passage.carry line)) = operands (afterProgram line) := by
  cases passage with
  | raw => rfl
  | rejoined => rw [carry, afterProgram_rejoin, operands_written]

theorem closed_afterProgram_carry (passage : Passage) {line : String}
    (hline : Closed (afterProgram line)) : Closed (afterProgram (passage.carry line)) := by
  cases passage with
  | raw => exact hline
  | rejoined =>
      rw [carry, afterProgram_rejoin]
      exact closed_written _

end Passage

namespace Substitution

/-- The texts of a substitution are read as if each stood alone. -/
structure Separable (substitution : Substitution) : Prop where
  program : SelfContained substitution.program
  before : Closed substitution.before
  after : Closed substitution.after

instance (substitution : Substitution) : Decidable substitution.Separable :=
  decidable_of_iff
    (SelfContained substitution.program ∧ Closed substitution.before ∧ Closed substitution.after)
    ⟨fun ⟨program, before, after⟩ => ⟨program, before, after⟩,
      fun ⟨program, before, after⟩ => ⟨program, before, after⟩⟩

variable {substitution : Substitution}

theorem Separable.closed_afterProgram_apply (hparts : substitution.Separable) {line : String}
    (hline : Closed (afterProgram line)) : Closed (afterProgram (substitution.apply line)) := by
  have hrest := (detached_afterProgram line).append substitution.detached_ending
  have hclosed := hline.append substitution.detached_ending
    (substitution.closed_ending hparts.after)
  rw [afterProgram_apply hparts.program, closed_space_append_iff]
  exact hparts.before.append hrest hclosed

/-- The line that a chain makes at any step invokes the program of that step, with the flags of all
steps so far around the arguments of the first line, however the lines are passed on. -/
theorem split_chain (passage : Passage) {line : String} (hline : Closed (afterProgram line))
    {substitutions : List Substitution} (hparts : ∀ s ∈ substitutions, s.Separable)
    {step : Nat} (hstep : substitutions[step]? = some substitution) :
    ∃ made, (chain passage line substitutions)[step]? = some made ∧
      invokedProgram made = unquoted substitution.program ∧
      split made =
        [unquoted substitution.program] ++
          (substitutions.take (step + 1)).reverse.flatMap (fun s => operands s.before) ++
          (split line).tail ++
          (substitutions.take (step + 1)).flatMap (fun s => operands s.after) := by
  induction substitutions generalizing line step with
  | nil => simp at hstep
  | cons first rest ih =>
      have hfirst := hparts first List.mem_cons_self
      have hmade := hfirst.closed_afterProgram_apply hline
      have hoperands :=
        operands_afterProgram_apply_of_closed hfirst.program hfirst.before hline
      cases step with
      | zero =>
          obtain rfl : first = substitution := Option.some.inj hstep
          refine ⟨first.apply line, rfl, invokedProgram_apply hfirst.program line, ?_⟩
          rw [split_apply hfirst.program, hoperands, tail_split]
          simp
      | succ step =>
          obtain ⟨made, hget, hprogram, hsplit⟩ :=
            ih (passage.closed_afterProgram_carry hmade)
              (fun s hs => hparts s (List.mem_cons_of_mem first hs)) hstep
          refine ⟨made, hget, hprogram, ?_⟩
          rw [hsplit, tail_split, passage.operands_afterProgram_carry, hoperands, tail_split]
          simp

/-- The first program gains a backslash when its line is put together again. -/
theorem split_chain_rejoined_pair :
    Closed (afterProgram "cl \"c d\"\te") ∧
      (∀ s ∈ [Substitution.mk "a\" \"b\\" "-x" "\"y z\"", ⟨"second", "", "-q"⟩], s.Separable) ∧
      ∃ made,
        (chain .rejoined "cl \"c d\"\te"
          [⟨"a\" \"b\\", "-x", "\"y z\""⟩, ⟨"second", "", "-q"⟩])[1]? = some made ∧
        invokedProgram made = unquoted "second" ∧
        split made = ["second", "-x", "c d", "e", "y z", "-q"] := by
  refine ⟨by decide, by decide, ?_⟩
  have hline : Closed (afterProgram "cl \"c d\"\te") := by decide
  have hparts : ∀ s ∈ [Substitution.mk "a\" \"b\\" "-x" "\"y z\"", ⟨"second", "", "-q"⟩],
      s.Separable := by decide
  obtain ⟨made, hget, hprogram, hsplit⟩ := split_chain .rejoined hline hparts (rfl : _[1]? = _)
  exact ⟨made, hget, hprogram, hsplit.trans (by decide)⟩

end Substitution

end Interposer
