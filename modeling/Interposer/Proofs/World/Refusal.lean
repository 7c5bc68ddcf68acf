import Interposer.Proofs.CommandLine.Conservation
import Interposer.Proofs.Substitution.Arguments
import Interposer.Proofs.SystemError
import Interposer.Proofs.World.Outcome

/-!
# Lines that are refused

The operating system cannot be given an argument that holds a NUL, and a list with such an argument
is refused before its program is looked for. The arguments are read from a line, and since reading
takes out nothing but markup, the line has a NUL exactly if they have one. So a line decides by
itself whether it is refused, and no other failure reads the same: its reason would be a description
of a code, and that text is none.
-/

namespace Interposer

open CommandLine

/-- The failure to spawn a line that holds a NUL. -/
def refusal (line : String) : Failure :=
  ⟨.spawn, invokedProgram line, "nul byte found in provided data"⟩

/-! ### The NUL in a line -/

theorem any_holdsNul_split (line : String) :
    (split line).any World.holdsNul = true ↔ '\x00' ∈ line.toList := by
  have hnul : '\x00' ∉ markup := by decide
  rw [← (thinned_split line).mem_iff hnul, List.any_eq_true, List.mem_flatMap]
  simp only [World.holdsNul, List.contains_iff_mem]

namespace Substitution

theorem mem_ending_iff (substitution : Substitution) {c : Char} (hc : c ≠ ' ') :
    c ∈ substitution.ending.toList ↔ c ∈ substitution.after.toList := by
  by_cases hafter : substitution.after.isEmpty
  · rw [ending_of_isEmpty hafter, String.isEmpty_iff.1 hafter]
  · rw [ending_of_not_isEmpty hafter, String.toList_append, List.mem_append]
    simp [hc]

/-- Of the given line only what follows the program's token gets onto the new one. -/
theorem mem_apply_iff (substitution : Substitution) (line : String) {c : Char} (hc : c ≠ ' ') :
    c ∈ (substitution.apply line).toList ↔
      c ∈ substitution.program.toList ∨ c ∈ substitution.before.toList ∨
        c ∈ substitution.after.toList ∨ c ∈ (afterProgram line).toList := by
  have hspace : c ∉ " ".toList := by simpa using hc
  rw [apply_eq]
  simp only [String.toList_append, List.mem_append, hspace, false_or,
    substitution.mem_ending_iff hc]
  exact or_congr_right (or_congr_right or_comm)

end Substitution

/-! ### The refusal -/

theorem SystemError.describeCode_ne_nul (number : Int) :
    describeCode number ≠ "nul byte found in provided data" := by
  rw [describeCode_eq]
  cases hlookup : systemMessage? number with
  | none =>
      intro heq
      have hlast := congrArg (fun text => text.toList.getLast?) heq
      simp only [Option.getD_none, toList_numbered, List.getLast?_concat] at hlast
      exact absurd hlast (by decide)
  | some message =>
      have hcheck : ∀ entry ∈ messages, ∀ message ∈ entry,
          message ≠ "nul byte found in provided data" := by decide +kernel
      exact hcheck _ (some_mem_messages hlookup) message rfl

namespace World

variable (world : World)

theorem start_of_nul {line : String} (hnul : '\x00' ∈ line.toList) :
    world.start (split line) = .error (.refused "nul byte found in provided data") :=
  if_pos ((any_holdsNul_split line).2 hnul)

/-- Without a NUL, what keeps a process from being created has a code. -/
theorem exists_code_of_start {line : String} (hnul : '\x00' ∉ line.toList) {cause : SystemError}
    (hstart : world.start (split line) = .error cause) : ∃ number, cause = .code number := by
  rcases world.start_cases (split line) with
    ⟨hany, -⟩ | ⟨-, ⟨number, -, herror⟩ | ⟨work, -, hok⟩⟩
  · exact absurd ((any_holdsNul_split line).1 hany) hnul
  · exact ⟨number, Except.error.inj (hstart.symm.trans herror)⟩
  · exact nomatch hstart.symm.trans hok

theorem outcome_eq_refusal_iff (line : String) :
    world.outcome line = .error (refusal line) ↔ '\x00' ∈ line.toList := by
  constructor
  · intro hrefused
    by_contra hnul
    rcases cases_of_outcome_error hrefused with
      ⟨cause, hstart, hfailure⟩ | ⟨process, cause, -, -, hfailure⟩
    · obtain ⟨number, rfl⟩ := world.exists_code_of_start hnul hstart
      exact SystemError.describeCode_ne_nul number (congrArg Failure.reason hfailure).symm
    · exact nomatch congrArg Failure.stage hfailure
  · intro hnul
    rw [outcome_of_error (world.start_of_nul hnul)]
    rfl

variable (filter : Filter)

theorem spawn_of_nul {line : String} (hnul : '\x00' ∈ line.toList) (console : Console) :
    (world.host filter).spawn line console = (.error (refusal line), console) := by
  rw [spawn_host, world.start_of_nul hnul, programOf_split]
  rfl

theorem outcome_of_spawn_error {line : String} {console : Console} {failure : Failure}
    (hspawn : ((world.host filter).spawn line console).1 = .error failure) :
    world.outcome line = .error failure := by
  rw [spawn_host] at hspawn
  cases hstart : world.start (split line) with
  | error cause =>
      rw [hstart] at hspawn
      rw [outcome_of_error hstart, ← programOf_split]
      exact congrArg Except.error (Except.error.inj hspawn)
  | ok process =>
      rw [hstart] at hspawn
      contradiction

theorem attempt_of_nul {substitution : Substitution} {line : String}
    (hnul : '\x00' ∈ (substitution.apply line).toList) (console : Console) :
    (world.host filter).attempt substitution line console =
      (.error (refusal (substitution.apply line)),
        (console.report filter (.received line)).report filter
          (.substituted (substitution.apply line))) := by
  simp only [attempt_host, world.start_of_nul hnul, programOf_split]
  rfl

/-- A line is refused exactly if it holds a NUL, and then nothing at all has happened. So a run is
refused exactly if there is a NUL in its substitute, in its flags, or in the given line after the
program that it replaces, and then no process was started. -/
theorem refused_iff_nul (substitution : Substitution) (line : String) (console : Console) :
    (((world.host filter).spawn line console).1 = .error (refusal line) ↔ '\x00' ∈ line.toList) ∧
      ((world.host filter).spawn line console = (.error (refusal line), console) ↔
        '\x00' ∈ line.toList) ∧
      (((world.host filter).attempt substitution line console).1 =
          .error (refusal (substitution.apply line)) ↔
        '\x00' ∈ substitution.program.toList ∨ '\x00' ∈ substitution.before.toList ∨
          '\x00' ∈ substitution.after.toList ∨ '\x00' ∈ (afterProgram line).toList) ∧
      ((world.host filter).attempt substitution line console =
          (.error (refusal (substitution.apply line)),
            (console.report filter (.received line)).report filter
              (.substituted (substitution.apply line))) ↔
        '\x00' ∈ substitution.program.toList ∨ '\x00' ∈ substitution.before.toList ∨
          '\x00' ∈ substitution.after.toList ∨ '\x00' ∈ (afterProgram line).toList) := by
  have hspawned : ((world.host filter).spawn line console).1 = .error (refusal line) →
      '\x00' ∈ line.toList := fun hrefused =>
    (world.outcome_eq_refusal_iff line).1 (world.outcome_of_spawn_error filter hrefused)
  have hattempted : ((world.host filter).attempt substitution line console).1 =
        .error (refusal (substitution.apply line)) →
      '\x00' ∈ (substitution.apply line).toList := by
    intro hrefused
    rw [fst_attempt_host] at hrefused
    exact (world.outcome_eq_refusal_iff _).1 hrefused
  rw [← substitution.mem_apply_iff line (by decide)]
  refine ⟨⟨hspawned, ?_⟩, ⟨?_, ?_⟩, ⟨hattempted, ?_⟩, ⟨?_, ?_⟩⟩
  · exact fun hnul => congrArg Prod.fst (world.spawn_of_nul filter hnul console)
  · exact fun hrefused => hspawned (congrArg Prod.fst hrefused)
  · exact fun hnul => world.spawn_of_nul filter hnul console
  · exact fun hnul => congrArg Prod.fst (world.attempt_of_nul filter hnul console)
  · exact fun hrefused => hattempted (congrArg Prod.fst hrefused)
  · exact fun hnul => world.attempt_of_nul filter hnul console

end World

end Interposer
