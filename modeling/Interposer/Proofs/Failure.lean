import Interposer.Proofs.World.Refusal

/-!
# What a diagnostic tells

Nothing in a diagnostic is escaped, and the name of a program may hold whatever separates it from
the reason. But no reason does, so the separator that comes last is the one that was written: a
later one would have to begin in the reason, and an overlap with the one that was written is
impossible since only its first character is a quote. So the text gives the reason and everything
before it, and the stages differ in the first letter.
-/

namespace Interposer

open CommandLine

theorem Stage.opening_append_inj {stage other : Stage} {left right : List Char}
    (heq : stage.opening.toList ++ left = other.opening.toList ++ right) :
    stage = other ∧ left = right := by
  by_cases hstage : stage = other
  · rw [hstage, List.append_cancel_left_eq] at heq
    exact ⟨hstage, heq⟩
  · -- the openings of different stages begin with different letters
    have hfirst := congrArg List.head? heq
    cases stage <;> cases other <;> simp [opening] at hstage hfirst

namespace Failure

/-- What stands between the program and the reason. -/
def separator : List Char := ['"', ':', ' ']

/-- A reason that does not look like the end of a name and another reason. -/
def Plain (reason : String) : Prop := ¬ separator <:+: reason.toList

theorem plain_of_quote_not_mem {reason : String} (hquote : '"' ∉ reason.toList) : Plain reason :=
  fun hfound => hquote (hfound.subset List.mem_cons_self)

/-- No separator begins after the last one. -/
theorem eq_nil_of_separator_append {reason other more : List Char}
    (hreason : ¬ separator <:+: reason)
    (heq : separator ++ reason = more ++ (separator ++ other)) : more = [] := by
  rcases more with _ | ⟨first, _ | ⟨second, _ | ⟨third, more⟩⟩⟩
  · rfl
  · simp [separator] at heq
  · simp [separator] at heq
  · have hrest : reason = more ++ (separator ++ other) := by
      simpa [separator] using congrArg (List.drop 3) heq
    exact absurd ⟨more, other, by rw [hrest, List.append_assoc]⟩ hreason

theorem append_separator_inj {left right reason other : List Char}
    (hreason : ¬ separator <:+: reason) (hother : ¬ separator <:+: other)
    (heq : left ++ (separator ++ reason) = right ++ (separator ++ other)) :
    left = right ∧ reason = other := by
  rcases List.append_eq_append_iff.1 heq with ⟨more, hright, hmore⟩ | ⟨more, hleft, hmore⟩
  · obtain rfl := eq_nil_of_separator_append hreason hmore
    rw [List.append_nil] at hright
    rw [List.nil_append, List.append_cancel_left_eq] at hmore
    exact ⟨hright.symm, hmore⟩
  · obtain rfl := eq_nil_of_separator_append hother hmore
    rw [List.append_nil] at hleft
    rw [List.nil_append, List.append_cancel_left_eq] at hmore
    exact ⟨hleft, hmore.symm⟩

theorem toList_text (failure : Failure) :
    failure.text.toList =
      failure.stage.opening.toList ++ ([' ', '"'] ++ failure.program.toList) ++
        (separator ++ failure.reason.toList) := by
  simp [text, separator]

theorem text_inj {left right : Failure} (hleft : Plain left.reason) (hright : Plain right.reason) :
    left.text = right.text ↔ left = right := by
  constructor
  · intro htext
    have hlist := congrArg String.toList htext
    rw [toList_text, toList_text] at hlist
    obtain ⟨hbefore, hreason⟩ := append_separator_inj hleft hright hlist
    obtain ⟨hstage, hname⟩ := Stage.opening_append_inj hbefore
    rw [List.append_cancel_left_eq, String.toList_inj] at hname
    rw [String.toList_inj] at hreason
    cases left
    cases right
    exact (Failure.mk.injEq ..).mpr ⟨hstage, hname, hreason⟩
  · rintro rfl
    rfl

end Failure

/-! ### Runs that fail -/

/-- Whatever keeps a process from being created has a description without a quote. -/
theorem World.quote_not_mem_of_start {world : World} {line : String} {cause : SystemError}
    (hstart : world.start (split line) = .error cause) : '"' ∉ cause.describe.toList := by
  by_cases hnul : '\x00' ∈ line.toList
  · rw [world.start_of_nul hnul] at hstart
    rw [← Except.error.inj hstart]
    decide
  · obtain ⟨number, rfl⟩ := world.exists_code_of_start hnul hstart
    exact SystemError.quote_not_mem_describeCode number

theorem World.quote_not_mem_of_status {world : World} {process : Process} {cause : SystemError}
    (hstatus : world.status process = .error cause) : '"' ∉ cause.describe.toList := by
  rw [status] at hstatus
  split at hstatus
  · rw [← Except.error.inj hstatus]
    exact SystemError.quote_not_mem_describeCode 10
  · contradiction

theorem World.plain_of_outcome {world : World} {line : String} {failure : Failure}
    (hfailed : world.outcome line = .error failure) : Failure.Plain failure.reason := by
  rcases cases_of_outcome_error hfailed with
    ⟨cause, hstart, rfl⟩ | ⟨process, cause, -, hstatus, rfl⟩
  · exact Failure.plain_of_quote_not_mem (quote_not_mem_of_start hstart)
  · exact Failure.plain_of_quote_not_mem (quote_not_mem_of_status hstatus)

/-- A run in a world that cannot run its tool. -/
structure FailedRun where
  world : World
  filter : Filter
  substitution : Substitution
  line : String
  console : Console
  failure : Failure
  failed : ((world.host filter).attempt substitution line console).1 = .error failure

namespace FailedRun

variable (run : FailedRun)

/-- The console when the failure is known: it holds the reports and the work of the process. -/
def before : Console :=
  ((run.world.host run.filter).attempt run.substitution run.line run.console).2

/-- What the run itself writes to standard error. -/
def complaint : String := run.failure.text ++ "\n"

theorem plain_reason : Failure.Plain run.failure.reason := by
  have hfailed := run.failed
  rw [World.fst_attempt_host] at hfailed
  exact World.plain_of_outcome hfailed

theorem run_eq :
    (run.world.host run.filter).run run.substitution run.line run.console =
      (failureExitCode, run.before.addStderr run.complaint) := by
  have hattempt : (run.world.host run.filter).attempt run.substitution run.line run.console =
      (.error run.failure, run.before) := Prod.ext run.failed rfl
  rw [World.run_host, hattempt]
  rfl

theorem complaint_inj {left right : FailedRun} :
    left.complaint = right.complaint ↔ left.failure = right.failure := by
  rw [← Failure.text_inj left.plain_reason right.plain_reason, complaint, complaint,
    String.append_left_inj]

end FailedRun

namespace Failure

/-- The text of a failure gives its stage, its program and its reason, whatever the program is
called, if the reason does not hold the separator. No description of a code does, so what a failed
run writes to standard error tells its failure from every other in any world. -/
theorem text_identifies :
    (∀ left right : Failure, ¬ ['"', ':', ' '] <:+: left.reason.toList →
        ¬ ['"', ':', ' '] <:+: right.reason.toList → (left.text = right.text ↔ left = right)) ∧
      (∀ number, ¬ ['"', ':', ' '] <:+: (SystemError.describeCode number).toList) ∧
      (∀ run : FailedRun,
        (run.world.host run.filter).run run.substitution run.line run.console =
          (125, run.before.addStderr (run.failure.text ++ "\n"))) ∧
      ∀ left right : FailedRun,
        left.failure.text ++ "\n" = right.failure.text ++ "\n" ↔ left.failure = right.failure := by
  refine ⟨fun left right hleft hright => text_inj hleft hright, ?_, FailedRun.run_eq, ?_⟩
  · exact fun number => plain_of_quote_not_mem (SystemError.quote_not_mem_describeCode number)
  · exact fun left right => FailedRun.complaint_inj

/-- A program that is called like the rest of another diagnostic, one that is called like the
separator and another reason, and a run of a program that may not be executed. -/
theorem text_identifies_imitations :
    let spawned : Failure :=
      ⟨.spawn, "a\": b\nCould not retrieve exit code for \"cl", "Permission denied"⟩
    let waited : Failure := ⟨.status, "cl", "Permission denied"⟩
    let named : Failure := ⟨.status, "cl\": Permission denied", "Permission denied"⟩
    ¬ ['"', ':', ' '] <:+: "Permission denied".toList ∧
      (spawned.text = waited.text ↔ spawned = waited) ∧
      (waited.text = named.text ↔ waited = named) ∧
      (World.host ⟨fun _ => some fun _ => .error 13, false⟩ []).run ⟨"\"c l\"", "", ""⟩ "x" {} =
        (125, { stderr := "Failed to launch \"c l\": Permission denied\n" }) := by
  intro spawned waited named
  have hreason : ¬ ['"', ':', ' '] <:+: "Permission denied".toList :=
    plain_of_quote_not_mem (by decide)
  obtain ⟨hinj, -, hrun, -⟩ := text_identifies
  have hattempt : (World.host ⟨fun _ => some fun _ => .error 13, false⟩ []).attempt
      ⟨"\"c l\"", "", ""⟩ "x" {} = (.error ⟨.spawn, "c l", "Permission denied"⟩, {}) := by rfl
  have hwritten := hrun ⟨_, _, _, _, _, _, congrArg Prod.fst hattempt⟩
  have hconsole : ∀ before : Console, before = {} →
      ((125 : Int), before.addStderr (text ⟨.spawn, "c l", "Permission denied"⟩ ++ "\n")) =
        (125, { stderr := "Failed to launch \"c l\": Permission denied\n" }) := by
    rintro before rfl
    decide
  exact ⟨hreason, hinj spawned waited hreason hreason, hinj waited named hreason hreason,
    hwritten.trans (hconsole _ (congrArg Prod.snd hattempt))⟩

/-- With the separator in a reason, two failures can have one text. -/
example : Failure.text ⟨.spawn, "a\": b", "c"⟩ = Failure.text ⟨.spawn, "a", "b\": c"⟩ := by decide

end Failure

end Interposer
