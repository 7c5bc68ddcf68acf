import Interposer.Proofs.World.Outcome

/-!
# What is reported of a run

Reports are lines on standard error and nothing else. The events of a run are told by the line and
the world, and a filter only chooses among them. So where no program writes to standard error, the
reports stand there in the order of the events, and whatever else is seen of a run is seen without
reports as well. What directives enable is left open: it is any decision on the level and the target
of an event, since a host knows of its filter only which events it enables.
-/

namespace Interposer

open CommandLine

/-! ### What a filter can enable -/

/-- The threshold of a level, or one that nothing passes. -/
def Threshold.ofDecision (passes : Bool) (level : Level) : Threshold :=
  if passes then some level else none

/-- The directive that lets an event pass where a decision does. -/
def Directive.ofDecision (decides : Level → String → Bool) (event : Event) : Directive :=
  ⟨event.target, .ofDecision (decides event.level event.target) event.level⟩

/-- A directive for each target. All events of a target have one level, and no target begins with
another. -/
def Filter.ofDecision (decides : Level → String → Bool) : Filter :=
  [.lossyArgument, .received "", .started ""].map (Directive.ofDecision decides)

/-- Every decision on the level and the target of an event is that of a filter. -/
theorem Filter.enables_ofDecision (decides : Level → String → Bool) (event : Event) :
    (ofDecision decides).enables event = decides event.level event.target := by
  have hdeciding : (ofDecision decides).deciding? event.target =
      some (Directive.ofDecision decides event) := by
    cases event <;>
      simp [deciding?, ofDecision, Directive.covers, Directive.ofDecision, Event.target,
        Event.level]
  rw [enables, passes, hdeciding, Option.any_some, Directive.ofDecision]
  cases decides event.level event.target with
  | true => simp [Threshold.ofDecision, Threshold.admits]
  | false => rfl

/-- The filter to report by, where it is left open what directives decide. -/
def Settings.filterBy (settings : Settings) (decides : String → Level → String → Bool) : Filter :=
  (settings.directives?.map fun directives => Filter.ofDecision (decides directives)).getD []

namespace Settings

theorem enables_filterBy (settings : Settings) (decides : String → Level → String → Bool)
    (event : Event) :
    (settings.filterBy decides).enables event =
      settings.directives?.any fun directives => decides directives event.level event.target := by
  rw [filterBy]
  cases settings.directives? with
  | none => rfl
  | some directives => exact Filter.enables_ofDecision (decides directives) event

/-- What directives are read to enable is one of these decisions. -/
theorem enables_filterBy_passes (settings : Settings) (event : Event) :
    (settings.filterBy fun directives => (Filter.parse directives).passes).enables event =
      settings.toFilter.enables event := by
  rw [enables_filterBy, toFilter]
  cases settings.directives? with
  | none => rfl
  | some directives => rfl

/-- A list of directives that is text and not empty is gone by. In its place the switch asks for
level `debug`, if it is on. -/
theorem directives?_ofEnvironment (environment : Environment) :
    (ofEnvironment environment).directives? =
      let switch := environment.verbose.bind Utf8.decode?
      let fallback := if switch = some "1" ∨ switch = some "true" then some "debug" else none
      match environment.log.bind Utf8.decode? with
      | none => fallback
      | some text => if text = "" then fallback else some text := by
  have hswitch : ((environment.verbose.bind Utf8.decode?).any fun value =>
        value == "1" || value == "true") =
      decide (environment.verbose.bind Utf8.decode? = some "1" ∨
        environment.verbose.bind Utf8.decode? = some "true") := by
    cases environment.verbose.bind Utf8.decode? with
    | none => rfl
    | some value =>
        rw [Bool.eq_iff_iff]
        simp
  simp only [ofEnvironment, directives?, hswitch, decide_eq_true_eq]
  cases environment.log.bind Utf8.decode? with
  | none => rfl
  | some text =>
      by_cases hempty : text = ""
      · subst hempty
        rfl
      · simp [hempty]

end Settings

/-! ### Reports on a console -/

/-- The line of an event, written out. -/
def Event.shown : Event → String
  | lossyArgument =>
      " WARN chain_wrapper::command_line: " ++
        "Argument is not valid UTF-8; invalid sequences replaced" ++ "\n"
  | received line => "DEBUG chain_wrapper::wrapper: " ++ ("Old: [" ++ line ++ "]") ++ "\n"
  | substituted line => "DEBUG chain_wrapper::wrapper: " ++ ("New: [" ++ line ++ "]") ++ "\n"
  | started program =>
      "DEBUG chain_wrapper::launcher::platform: " ++ ("Spawned " ++ program ++ " pid=PID") ++ "\n"
  | finished exitCode =>
      "DEBUG chain_wrapper::wrapper: " ++
        ("Real tool finished exit_code=" ++ toString exitCode) ++ "\n"

theorem Event.line_eq_shown (event : Event) : event.line = event.shown := by
  have hreader : Level.warn.column ++ " " ++ "chain_wrapper::command_line" ++ ": " =
      " WARN chain_wrapper::command_line: " := by decide
  have hwrapper : Level.debug.column ++ " " ++ "chain_wrapper::wrapper" ++ ": " =
      "DEBUG chain_wrapper::wrapper: " := by decide
  have hplatform : Level.debug.column ++ " " ++ "chain_wrapper::launcher::platform" ++ ": " =
      "DEBUG chain_wrapper::launcher::platform: " := by decide
  cases event with
  | lossyArgument => exact congrArg (· ++ lossyArgument.text ++ "\n") hreader
  | received line => exact congrArg (· ++ (received line).text ++ "\n") hwrapper
  | substituted line => exact congrArg (· ++ (substituted line).text ++ "\n") hwrapper
  | started program => exact congrArg (· ++ (started program).text ++ "\n") hplatform
  | finished exitCode => exact congrArg (· ++ (finished exitCode).text ++ "\n") hwrapper

namespace Console

variable (console : Console)

theorem addStderr_empty : console.addStderr "" = console := by
  rw [addStderr, String.append_empty]

theorem addStderr_addStderr (text more : String) :
    (console.addStderr text).addStderr more = console.addStderr (text ++ more) := by
  simp only [addStderr, String.append_assoc]

theorem addProcess_addStderr {process : Process} (hsilent : process.stderr = "") (text : String) :
    (console.addStderr text).addProcess process = (console.addProcess process).addStderr text := by
  simp only [addProcess, addStderr, hsilent, String.append_empty]

/-- Reports are added to standard error and change nothing else. -/
theorem reportAll_eq (filter : Filter) (events : List Event) :
    console.reportAll filter events =
      console.addStderr (String.join ((events.filter filter.enables).map Event.line)) := by
  induction events generalizing console with
  | nil => exact console.addStderr_empty.symm
  | cons event events ih =>
      rw [reportAll, List.foldl_cons, ← reportAll, ih, report]
      cases henables : filter.enables event with
      | true =>
          rw [if_pos rfl, addStderr_addStderr, List.filter_cons_of_pos henables, List.map_cons,
            String.join_cons]
      | false => rw [if_neg nofun, List.filter_cons_of_neg (by simp [henables])]

theorem reportAll_append (filter : Filter) (events more : List Event) :
    console.reportAll filter (events ++ more) =
      (console.reportAll filter events).reportAll filter more :=
  List.foldl_append

theorem addProcess_reportAll {process : Process} (hsilent : process.stderr = "") (filter : Filter)
    (events : List Event) :
    (console.reportAll filter events).addProcess process =
      (console.addProcess process).reportAll filter events := by
  rw [reportAll_eq, reportAll_eq, addProcess_addStderr _ hsilent]

end Console

/-! ### The events of a run -/

namespace World

/-- No program writes to standard error, whatever arguments it is given. -/
def Silent (world : World) : Prop :=
  ∀ name program arguments work,
    world.programs name = some program → program arguments = .ok work → work.stderr = ""

/-- The events of a run, as far as it gets: the line that came in and the line made of it, then the
process if there is one, and its exit code if that can be had. -/
def events (world : World) (substitution : Substitution) (line : String) : List Event :=
  let made := substitution.apply line
  [.received line, .substituted made] ++
    match world.start (split made), world.outcome made with
    | .error _, _ => []
    | .ok _, .error _ => [.started (invokedProgram made)]
    | .ok _, .ok exitCode => [.started (invokedProgram made), .finished exitCode]

/-- A whole interposed process, where it is left open what directives decide. -/
def interposeDeciding (world : World) (decides : String → Level → String → Bool)
    (environment : Environment) (substitution : Substitution) (arguments : List Octets) :
    Int × Console :=
  let filter := (Settings.ofEnvironment environment).filterBy decides
  ((world.host filter).interpose substitution arguments).run {}

variable {world : World}

/-- A host is told by the events that its filter enables. -/
theorem host_congr {filter other : Filter}
    (henables : ∀ event, filter.enables event = other.enables event) :
    world.host filter = world.host other := by
  have hreport : host.report filter = host.report other := by
    funext event
    rw [host.report, host.report, henables]
  rw [host, host, hreport]

theorem interpose_eq_interposeDeciding (environment : Environment) (substitution : Substitution)
    (arguments : List Octets) :
    world.interpose environment substitution arguments =
      world.interposeDeciding (fun directives => (Filter.parse directives).passes) environment
        substitution arguments := by
  rw [interpose, interposeDeciding, host_congr (Settings.enables_filterBy_passes _)]

theorem Silent.stderr_of_start (hsilent : world.Silent) {arguments : List String}
    {process : Process} (hstart : world.start arguments = .ok process) : process.stderr = "" := by
  obtain ⟨work, hexecute, rfl⟩ := world.exists_work_of_start hstart
  obtain ⟨program, hprogram, hwork⟩ := world.exists_program_of_execute hexecute
  exact hsilent _ program arguments work hprogram hwork

theorem Silent.workOf_reportAll (hsilent : world.Silent) (line : String) (console : Console)
    (filter : Filter) (events : List Event) :
    world.workOf line (console.reportAll filter events) =
      (world.workOf line console).reportAll filter events := by
  rw [workOf, workOf]
  cases hstart : world.start (split line) with
  | error cause => rfl
  | ok process => exact console.addProcess_reportAll (hsilent.stderr_of_start hstart) filter events

/-- A run leaves on the console what it leaves there unreported, and its reports. -/
theorem Silent.attempt_host (hsilent : world.Silent) (filter : Filter)
    (substitution : Substitution) (line : String) (console : Console) :
    (world.host filter).attempt substitution line console =
      (world.outcome (substitution.apply line),
        (world.workOf (substitution.apply line) console).reportAll filter
          (world.events substitution line)) := by
  simp only [World.attempt_host, events, workOf]
  cases hstart : world.start (split (substitution.apply line)) with
  | error cause =>
      simp only [outcome_of_error hstart, programOf_split]
      rfl
  | ok process =>
      have hrunning := console.addProcess_reportAll (hsilent.stderr_of_start hstart) filter
        [.received line, .substituted (substitution.apply line),
          .started (invokedProgram (substitution.apply line))]
      simp only [Console.reportAll, List.foldl_cons, List.foldl_nil] at hrunning
      simp only [program_of_start hstart, outcome_of_ok hstart, hrunning]
      cases world.status process with
      | error cause => rfl
      | ok exitCode => rfl

theorem Silent.stderr_workOf (hsilent : world.Silent) (line : String) :
    (world.workOf line {}).stderr = "" := by
  rw [workOf]
  cases hstart : world.start (split line) with
  | error cause => rfl
  | ok process => exact String.empty_append.trans (hsilent.stderr_of_start hstart)

/-- What a run shows: what its process shows, the enabled events in their order on standard error,
and after them the diagnostic if the run failed. -/
theorem Silent.run_interpose (hsilent : world.Silent) (filter : Filter)
    (substitution : Substitution) (arguments : List Octets) :
    ((world.host filter).interpose substitution arguments).run {} =
      let line := join (arguments.map Utf8.decodeLossy)
      let warnings := (arguments.filter fun argument => (Utf8.decode? argument).isNone).map
        fun _ => Event.lossyArgument
      let enabled := (warnings ++ world.events substitution line).filter filter.enables
      let after := (world.workOf (substitution.apply line) {}).addStderr
        (String.join (enabled.map Event.shown))
      match world.outcome (substitution.apply line) with
      | .ok exitCode => (exitCode, after)
      | .error failure => (failureExitCode, after.addStderr (failure.text ++ "\n")) := by
  have hshown : Event.line = Event.shown := funext Event.line_eq_shown
  simp only [StateT.run, World.interpose_host, run_host, joinLossy, hsilent.attempt_host,
    hsilent.workOf_reportAll, ← Console.reportAll_append]
  simp only [Console.reportAll_eq, hshown]
  cases world.outcome (substitution.apply (join (arguments.map Utf8.decodeLossy))) with
  | ok exitCode => rfl
  | error failure => rfl

/-- Whatever the environment asks to be told, and whatever that enables, a run exits with the same
code, has the same output and starts the same arguments as one that is to report nothing. Standard
error has the enabled events in their order, and then the diagnostic if the run failed. -/
theorem interpose_reports (hsilent : world.Silent) (decides : String → Level → String → Bool)
    (environment : Environment) (substitution : Substitution) (arguments : List Octets) :
    let line := join (arguments.map Utf8.decodeLossy)
    let directives? := (Settings.ofEnvironment environment).directives?
    let enabled := fun event : Event =>
      directives?.any fun directives => decides directives event.level event.target
    let warnings := (arguments.filter fun argument => (Utf8.decode? argument).isNone).map
      fun _ => Event.lossyArgument
    let reported := world.interposeDeciding decides environment substitution arguments
    let unreported := world.interpose {} substitution arguments
    reported.1 = unreported.1 ∧ reported.2.stdout = unreported.2.stdout ∧
      reported.2.started = unreported.2.started ∧
      reported.2.stderr =
        String.join
            (((warnings ++ world.events substitution line).filter enabled).map Event.shown) ++
          (match world.outcome (substitution.apply line) with
            | .ok _ => ""
            | .error failure => failure.text ++ "\n") ∧
      (directives? =
        let switch := environment.verbose.bind Utf8.decode?
        let fallback := if switch = some "1" ∨ switch = some "true" then some "debug" else none
        match environment.log.bind Utf8.decode? with
        | none => fallback
        | some text => if text = "" then fallback else some text) ∧
      world.interpose environment substitution arguments =
        world.interposeDeciding (fun directives => (Filter.parse directives).passes) environment
          substitution arguments := by
  intro line directives? enabled warnings reported unreported
  have henables : ((Settings.ofEnvironment environment).filterBy decides).enables = enabled :=
    funext (Settings.enables_filterBy _ decides)
  have hreported : reported = _ := hsilent.run_interpose _ substitution arguments
  have hunreported : unreported = _ := hsilent.run_interpose [] substitution arguments
  have hstderr := hsilent.stderr_workOf
    (substitution.apply (join (arguments.map Utf8.decodeLossy)))
  have hdirectives := Settings.directives?_ofEnvironment environment
  have hown := world.interpose_eq_interposeDeciding environment substitution arguments
  -- the two runs differ in the reports alone, and nothing else is on standard error before them
  rw [hreported, hunreported]
  dsimp only
  rw [henables]
  cases world.outcome (substitution.apply line) with
  | ok exitCode =>
      refine ⟨rfl, rfl, rfl, ?_, hdirectives, hown⟩
      simp only [Console.addStderr, hstderr, String.empty_append, String.append_empty]
      rfl
  | error failure =>
      refine ⟨rfl, rfl, rfl, ?_, hdirectives, hown⟩
      simp only [Console.addStderr, hstderr, String.empty_append]
      rfl

/-- Where warnings alone are asked for and the wait comes too late, there is one line for the
argument that is not text, and the diagnostic. -/
theorem interpose_reports_warnings :
    let compiler : Program := fun arguments =>
      if arguments.getLast? = some "-z" then .ok ⟨.exit 3, "out", ""⟩ else .error 8
    let world : World := ⟨fun name => if name = "/bin/cc" then some compiler else none, true⟩
    world.Silent ∧
      (world.interpose ⟨some [0x31], some [0x77, 0x61, 0x72, 0x6e]⟩ ⟨"/bin/cc", "-b", "-z"⟩
          [[0x63], [0xff], [0x78]]).2.stderr =
        " WARN chain_wrapper::command_line: " ++
          "Argument is not valid UTF-8; invalid sequences replaced\n" ++
          "Could not retrieve exit code for \"/bin/cc\": No child processes\n" := by
  intro compiler world
  have hsilent : world.Silent := by
    intro name program arguments work hprogram hwork
    obtain ⟨-, rfl⟩ : name = "/bin/cc" ∧ compiler = program := by
      simpa [world] using hprogram
    by_cases hlast : arguments.getLast? = some "-z"
    · obtain rfl : Work.mk (.exit 3) "out" "" = work := by simpa [compiler, hlast] using hwork
      rfl
    · simp [compiler, hlast] at hwork
  obtain ⟨-, -, -, hstderr, -, hown⟩ := interpose_reports hsilent
    (fun directives => (Filter.parse directives).passes)
    ⟨some [0x31], some [0x77, 0x61, 0x72, 0x6e]⟩ ⟨"/bin/cc", "-b", "-z"⟩ [[0x63], [0xff], [0x78]]
  rw [hown]
  exact ⟨hsilent, hstderr.trans (by decide +kernel)⟩

end World

end Interposer
