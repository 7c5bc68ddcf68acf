import Interposer.Proofs.CommandLine.RoundTrip
import Interposer.Proofs.Substitution.Arguments
import Interposer.Proofs.World.Host

/-!
# An interposed process is as good as the program it stands in for

Between the arguments that an interposed process is started with and those that it starts its
substitute with there are two texts: the line that the arguments are put together into, and the line
that the substitution makes of it. Neither leaves a trace. Where nothing is to be reported, the run
shows what starting the substitute directly would show, and the arguments between the flags are the
given ones.
-/

namespace Interposer

open CommandLine

theorem Settings.toFilter_of_directives?_eq_none {settings : Settings}
    (hquiet : settings.directives? = none) : settings.toFilter = [] := by
  rw [toFilter, hquiet]
  rfl

theorem Substitution.split_apply_join_cons {substitution : Substitution}
    (hprogram : SelfContained substitution.program) (hbefore : Closed substitution.before)
    (first : String) (rest : List String) :
    split (substitution.apply (join (first :: rest))) =
      [unquoted substitution.program] ++ operands substitution.before ++ rest ++
        operands substitution.after := by
  have hclosed : Closed (afterProgram (join (first :: rest))) := by
    rw [afterProgram_join_cons]
    exact closed_written rest
  rw [split_apply hprogram, operands_afterProgram_apply_of_closed hprogram hbefore hclosed,
    afterProgram_join_cons, operands_written]
  rfl

namespace World

variable (world : World)

/-- A run of an interposed process that is to report nothing shows what the substitute shows when it
is started with its flags around the given arguments. Where that fails, the only other thing seen is
one line on standard error. -/
theorem interpose_eq_start (environment : Environment) (substitution : Substitution)
    (hquiet : (Settings.ofEnvironment environment).directives? = none)
    (hprogram : SelfContained substitution.program) (hbefore : Closed substitution.before)
    (first : Octets) (rest : List Octets) :
    let arguments := [unquoted substitution.program] ++ operands substitution.before ++
      rest.map Utf8.decodeLossy ++ operands substitution.after
    world.interpose environment substitution (first :: rest) =
      match world.start arguments with
      | .error cause =>
          let failure : Failure := ⟨.spawn, unquoted substitution.program, cause.describe⟩
          (125, ⟨"", failure.text ++ "\n", none⟩)
      | .ok process =>
          if world.reaped then
            let failure : Failure :=
              ⟨.status, unquoted substitution.program, (SystemError.code 10).describe⟩
            (125, ⟨process.stdout, process.stderr ++ (failure.text ++ "\n"), some arguments⟩)
          else
            (match process.ending with
              | .exit code => code.toNat
              | .signal number => 128 + number,
              ⟨process.stdout, process.stderr, some arguments⟩) := by
  intro arguments
  have hsplit : split (substitution.apply (joinLossy (first :: rest))) = arguments :=
    Substitution.split_apply_join_cons hprogram hbefore _ _
  have hname : programOf arguments = unquoted substitution.program := rfl
  simp only [interpose, Settings.toFilter_of_directives?_eq_none hquiet, StateT.run, interpose_host,
    run_host, attempt_host, hsplit, Console.report_nil, Console.reportAll_nil]
  cases hstart : world.start arguments with
  | error cause => simp [hname, Console.addStderr, failureExitCode]
  | ok process =>
      have hgiven := world.arguments_of_start hstart
      have hrunning : Console.addProcess {} process =
          ⟨process.stdout, process.stderr, some arguments⟩ := by
        simp [Console.addProcess, hgiven]
      cases hreaped : world.reaped with
      | true =>
          simp [status, hreaped, hrunning, Process.program, hgiven, hname, Console.addStderr,
            failureExitCode]
      | false =>
          simp only [status, hreaped, hrunning]
          cases process.ending with
          | exit code => rfl
          | signal number => rfl

/-- Arguments with quotes, a backslash, nothing and a stray octet, for a program with a path that is
killed if its last argument is `-z`. -/
theorem interpose_eq_start_killed :
    let killed : Program := fun arguments =>
      if arguments.getLast? = some "-z" then .ok ⟨.signal 9, "out", "err"⟩ else .error 13
    let world : World := ⟨fun name => if name = "/bin/a b\\c" then some killed else none, false⟩
    (Settings.ofEnvironment ⟨some [0x30], some [0xff]⟩).directives? = none ∧
      SelfContained "\"/bin/a b\"\\c" ∧ Closed "\"-x y\"" ∧
      world.interpose ⟨some [0x30], some [0xff]⟩ ⟨"\"/bin/a b\"\\c", "\"-x y\"", "-z"⟩
          [[0x63, 0x22], [0x22, 0x20, 0x5c], [], [0x61, 0xff]] =
        (137, ⟨"out", "err", some ["/bin/a b\\c", "-x y", "\" \\", "", "a\uFFFD", "-z"]⟩) := by
  intro killed world
  have hquiet :
      (Settings.ofEnvironment ⟨some [0x30], some [0xff]⟩).directives? = none := by decide
  have hprogram : SelfContained "\"/bin/a b\"\\c" := by decide
  have hbefore : Closed "\"-x y\"" := by decide
  have hrun := world.interpose_eq_start ⟨some [0x30], some [0xff]⟩
    ⟨"\"/bin/a b\"\\c", "\"-x y\"", "-z"⟩ hquiet hprogram hbefore [0x63, 0x22]
    [[0x22, 0x20, 0x5c], [], [0x61, 0xff]]
  exact ⟨hquiet, hprogram, hbefore, hrun.trans (by decide)⟩

end World

end Interposer
