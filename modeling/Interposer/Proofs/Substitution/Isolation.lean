import Interposer.Proofs.CommandLine.Boundary
import Interposer.Proofs.CommandLine.Composition
import Interposer.Proofs.CommandLine.RoundTrip
import Interposer.Proofs.Rehearsal
import Interposer.Proofs.Substitution.Arguments
import Interposer.Proofs.World.Outcome

/-!
# What a line cannot reach

A substitution keeps the two ends of a line apart from the text that it copies. The program that the
line was called by does not get through: where the line was joined from arguments, everything up to
the first separator is dropped, whatever stands there. And the copied text does not reach backwards:
whatever quotes it leaves open, the substitute and its first flags are read as they were configured,
and so are the arguments that were complete before the end of the line. Nor does a failure name
anything else, since a host knows of the program only what it reads on the new line.
-/

namespace Interposer

open CommandLine

namespace Substitution

/-! ### The caller's own name -/

/-- Of a joined line exactly the first argument is cut off, so a substitution makes the same line
whatever the first argument is. -/
theorem apply_join_cons (first : String) (rest : List String) :
    programEnd (join (first :: rest)) = (quote first).utf8ByteSize ∧
      afterProgram (join (first :: rest)) =
        (match rest with
        | [] => ""
        | _ :: _ => " " ++ join rest) ∧
      ∀ (substitution : Substitution) (other : String),
        substitution.apply (join (first :: rest)) = substitution.apply (join (other :: rest)) := by
  refine ⟨?_, ?_, ?_⟩
  · rw [programEnd_eq_utf8ByteSize, programToken, cut_join_cons]
  · rw [afterProgram_join_cons]
    cases rest with
    | nil => rfl
    | cons second rest => exact written_cons_eq_space_append_join second rest
  · intro substitution other
    rw [apply, apply, afterProgram_join_cons, afterProgram_join_cons]

/-! ### The substitute and its first flags -/

variable {substitution : Substitution}

/-- The arguments of a line that nothing added to it can change come right after the flags. -/
theorem isPrefix_split_apply (hprogram : SelfContained substitution.program)
    (hbefore : Closed substitution.before) (line : String) :
    [unquoted substitution.program] ++ operands substitution.before ++
        (split line).tail.dropLast <+:
      split (substitution.apply line) := by
  have hrest : (split line).tail.dropLast <+:
      operands (afterProgram line ++ substitution.ending) := by
    rw [tail_split]
    exact dropLast_operands_isPrefix _ _
  rw [split_apply hprogram, operands_afterProgram_apply hprogram hbefore, List.append_assoc]
  exact (List.prefix_append_right_inj _).2 ((List.prefix_append_right_inj _).2 hrest)

theorem program_of_failed_attempt {State Child : Type} {host : Host (StateM State) Child}
    (hnames : host.NamesPrograms) (hprogram : SelfContained substitution.program) {line : String}
    {state : State} {failure : Failure}
    (hfailed : (host.attempt substitution line state).1 = .error failure) :
    failure.program = unquoted substitution.program := by
  rw [hnames.program_of_attempt hfailed, invokedProgram_apply hprogram]

/-- No line changes what is invoked in its program's place, the flags before the arguments or the
arguments before its last one, and every failure names the substitute, in any world and for any
other host whose failures name the program of the line that it was given. -/
theorem split_apply_isolated (hprogram : SelfContained substitution.program)
    (hbefore : Closed substitution.before) (line : String) :
    [unquoted substitution.program] ++ operands substitution.before ++
          (split line).tail.dropLast <+:
        split (substitution.apply line) ∧
      (∀ (world : World) (filter : Filter) (console : Console) (failure : Failure),
        ((world.host filter).attempt substitution line console).1 = .error failure →
          failure.program = unquoted substitution.program) ∧
      ∀ {State Child : Type} (host : Host (StateM State) Child), host.NamesPrograms →
        ∀ (state : State) (failure : Failure),
          (host.attempt substitution line state).1 = .error failure →
            failure.program = unquoted substitution.program := by
  refine ⟨isPrefix_split_apply hprogram hbefore line, ?_, ?_⟩
  · intro world filter console failure hfailed
    exact program_of_failed_attempt (world.namesPrograms_host filter) hprogram hfailed
  · intro State Child host hnames state failure hfailed
    exact program_of_failed_attempt hnames hprogram hfailed

/-- A line that leaves a region open, once with a wait that comes too late and once with a spawn
that is to fail. -/
theorem split_apply_isolated_left_open :
    SelfContained "\"/opt/real cl\"" ∧ Closed "\"-D A\"" ∧
      ["/opt/real cl", "-D A", "a\\", "b\""] <+:
        split (Substitution.apply ⟨"\"/opt/real cl\"", "\"-D A\"", "/link"⟩ "cl a\\ b\\\" \"c d") ∧
      (∃ failure,
        ((World.host ⟨fun _ => some fun _ => .ok ⟨.exit 0, "", ""⟩, true⟩ []).attempt
            ⟨"\"/opt/real cl\"", "\"-D A\"", "/link"⟩ "cl a\\ b\\\" \"c d" {}).1 = .error failure ∧
          failure.program = "/opt/real cl") ∧
      ∃ failure,
        ((Rehearsal.host ⟨some "Error code (6)", none, 0⟩).attempt
            ⟨"\"/opt/real cl\"", "\"-D A\"", "/link"⟩ "cl a\\ b\\\" \"c d" {}).1 = .error failure ∧
          failure.program = "/opt/real cl" := by
  have hprogram : SelfContained "\"/opt/real cl\"" := by decide
  have hbefore : Closed "\"-D A\"" := by decide
  obtain ⟨hkept, hworld, hhost⟩ :=
    @split_apply_isolated ⟨"\"/opt/real cl\"", "\"-D A\"", "/link"⟩ hprogram hbefore
      "cl a\\ b\\\" \"c d"
  have hstatus : ((World.host ⟨fun _ => some fun _ => .ok ⟨.exit 0, "", ""⟩, true⟩ []).attempt
      ⟨"\"/opt/real cl\"", "\"-D A\"", "/link"⟩ "cl a\\ b\\\" \"c d" {}).1 =
        .error ⟨.status, "/opt/real cl", "No child processes"⟩ := by rfl
  have hspawn : ((Rehearsal.host ⟨some "Error code (6)", none, 0⟩).attempt
      ⟨"\"/opt/real cl\"", "\"-D A\"", "/link"⟩ "cl a\\ b\\\" \"c d" {}).1 =
        .error ⟨.spawn, "/opt/real cl", "Error code (6)"⟩ := by rfl
  have hname : unquoted "\"/opt/real cl\"" = "/opt/real cl" := by decide
  have hlist : [unquoted "\"/opt/real cl\""] ++ operands "\"-D A\"" ++
      (split "cl a\\ b\\\" \"c d").tail.dropLast = ["/opt/real cl", "-D A", "a\\", "b\""] := by
    decide +kernel
  rw [hlist] at hkept
  refine ⟨hprogram, hbefore, hkept, ⟨_, hstatus, ?_⟩, ⟨_, hspawn, ?_⟩⟩
  · exact (hworld _ [] {} _ hstatus).trans hname
  · exact (hhost _ (Rehearsal.namesPrograms_host _) {} _ hspawn).trans hname

end Substitution

end Interposer
