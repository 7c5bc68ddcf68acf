import Interposer.Proofs.CommandLine.Escape

/-!
# Reading the program as an argument

The program and the arguments are found by different rules, and a line could be read by the rules of
the arguments from its start. Both readings end the first piece of the line at the same place, as
long as that piece does not do outside quotes what only one of them knows of: a tab separates
arguments but does not end the program, and a backslash before a quote takes its meaning from it in
an argument but not in the program. Inside quotes both count backslashes in pairs, one by covering
the character after each and the other by the length of the run, and a quote that follows a closing
one opens a region for both. This is kept as an invariant while the two go through the text side by
side.
-/

namespace Interposer.CommandLine

/-! ### Where the scan for the program stands -/

/-- The region of the scan for the end of the program after a text. -/
def regionAfter (text : List Char) : Region :=
  (Utf8.encode (String.ofList text)).foldl Region.next .outside

theorem regionAfter_concat (text : List Char) (c : Char) :
    regionAfter (text ++ [c]) = (regionAfter text).afterChar c := by
  rw [regionAfter, regionAfter, Utf8.encode_ofList, Utf8.encode_ofList, List.flatMap_append,
    List.flatMap_singleton, List.foldl_append, Region.foldl_next_encodeChar]

/-- The length of the run of backslashes that a text ends with. -/
def endingRun (text : List Char) : Nat := (text.reverse.takeWhile (· = '\\')).length

theorem endingRun_concat (text : List Char) (c : Char) :
    endingRun (text ++ [c]) = if c = '\\' then endingRun text + 1 else 0 := by
  by_cases hc : c = '\\'
  · simp [endingRun, hc]
  · simp [endingRun, hc]

/-- Outside quotes there is no tab, and no double quote after an odd run of backslashes. -/
def PlainOutside (text : List Char) : Prop :=
  ∀ (i : Nat) (hi : i < text.length), regionAfter (text.take i) = .outside →
    text[i] ≠ '\t' ∧ (text[i] = '"' → endingRun (text.take i) % 2 = 0)

instance (text : List Char) : Decidable (PlainOutside text) :=
  inferInstanceAs (Decidable (∀ (i : Nat) (hi : i < text.length),
    regionAfter (text.take i) = .outside →
      text[i] ≠ '\t' ∧ (text[i] = '"' → endingRun (text.take i) % 2 = 0)))

theorem PlainOutside.of_append_cons {text rest : List Char} {c : Char}
    (hplain : PlainOutside (text ++ c :: rest)) (hregion : regionAfter text = .outside) :
    c ≠ '\t' ∧ (c = '"' → endingRun text % 2 = 0) := by
  have hlength : text.length < (text ++ c :: rest).length := by simp
  have hhere := hplain text.length hlength
  rw [List.take_left] at hhere
  simpa using hhere hregion

theorem isBlank_eq_false_of_ne {c : Char} (hspace : c ≠ ' ') (htab : c ≠ '\t') :
    isBlank c = false := by
  simp [isBlank, hspace, htab]

/-! ### One step of both -/

/-- The region of the scan for the program, the run of backslashes read last, and where the reader
of arguments stands. Inside quotes the reader's run is odd exactly where a character is covered. -/
inductive InStep : Region → Nat → Reading → Prop where
  | bare (value : String) (run : Nat) : InStep .outside run (.bare value run)
  | closing (value : String) : InStep .outside 0 (.closing value)
  | quoted (value : String) {run : Nat} (last : Nat) :
      run % 2 = 0 → InStep .inside last (.quoted value run)
  | covered (value : String) {run : Nat} (last : Nat) :
      run % 2 = 1 → InStep .covered last (.quoted value run)

namespace InStep

variable {region : Region} {last : Nat} {reading : Reading}

theorem exists_value? (hstep : InStep region last reading) :
    ∃ value, reading.value? = some value := by
  cases hstep <;> exact ⟨_, rfl⟩

theorem inQuotes_eq_false (hstep : InStep .outside last reading) : reading.inQuotes = false := by
  cases hstep <;> rfl

theorem nextBare (value : String) {run : Nat} {c : Char} (hquote : c = '"' → run % 2 = 0) :
    InStep (Region.outside.afterChar c) (if c = '\\' then run + 1 else 0)
      (Reading.nextBare value run c) := by
  rw [Reading.nextBare, Region.afterChar]
  by_cases hbackslash : c = '\\'
  · subst hbackslash
    exact .bare value (run + 1)
  · by_cases hc : c = '"'
    · have hrun := hquote hc
      have heven : ¬ run % 2 = 1 := by omega
      simp only [if_neg hbackslash, if_pos hc, if_neg heven]
      exact .quoted _ 0 rfl
    · simp only [if_neg hbackslash, if_neg hc]
      exact .bare _ 0

theorem nextQuoted_of_even (value : String) {run : Nat} (hrun : run % 2 = 0) (c : Char) :
    InStep (Region.inside.afterChar c) (if c = '\\' then last + 1 else 0)
      (Reading.nextQuoted value run c) := by
  rw [Reading.nextQuoted, Region.afterChar]
  by_cases hbackslash : c = '\\'
  · subst hbackslash
    exact .covered value (last + 1) (by omega)
  · by_cases hc : c = '"'
    · have heven : ¬ run % 2 = 1 := by omega
      simp only [if_neg hbackslash, if_pos hc, if_neg heven]
      exact .closing _
    · simp only [if_neg hbackslash, if_neg hc]
      exact .quoted _ 0 rfl

theorem nextQuoted_of_odd (value : String) {run : Nat} (hrun : run % 2 = 1) (c : Char) :
    InStep (Region.covered.afterChar c) (if c = '\\' then last + 1 else 0)
      (Reading.nextQuoted value run c) := by
  rw [Reading.nextQuoted, Region.afterChar]
  by_cases hbackslash : c = '\\'
  · subst hbackslash
    exact .quoted value (last + 1) (by omega)
  · by_cases hc : c = '"'
    · simp only [if_neg hbackslash, if_pos hc, if_pos hrun]
      exact .quoted _ 0 rfl
    · simp only [if_neg hbackslash, if_neg hc]
      exact .quoted _ 0 rfl

/-- Up to a space outside quotes the two go on together, and the argument goes on with them. -/
theorem next (hstep : InStep region last reading) {c : Char}
    (hgoes : ¬ (region = .outside ∧ c = ' '))
    (hplain : region = .outside → c ≠ '\t' ∧ (c = '"' → last % 2 = 0)) :
    reading.endsAt c = false ∧
      InStep (region.afterChar c) (if c = '\\' then last + 1 else 0) (reading.next c) := by
  have hblank : region = .outside → isBlank c = false := by
    intro hregion
    have hspace : c ≠ ' ' := fun hc => hgoes ⟨hregion, hc⟩
    exact isBlank_eq_false_of_ne hspace (hplain hregion).1
  cases hstep with
  | bare value last =>
      rw [Reading.next_bare (hblank rfl)]
      exact ⟨hblank rfl, nextBare value (hplain rfl).2⟩
  | closing value =>
      by_cases hc : c = '"'
      · -- to the reader this quote is literal, and for both it leaves the region open
        subst hc
        exact ⟨rfl, .quoted _ 0 rfl⟩
      · rw [Reading.next_closing (hblank rfl) hc]
        exact ⟨hblank rfl, nextBare value (hplain rfl).2⟩
  | quoted value last hrun => exact ⟨rfl, nextQuoted_of_even value hrun c⟩
  | covered value last hrun => exact ⟨rfl, nextQuoted_of_odd value hrun c⟩

end InStep

/-! ### The first piece of a line -/

theorem InStep.read_eq {before text : List Char} {reading : Reading}
    (hstep : InStep (regionAfter before) (endingRun before) reading)
    (hplain : PlainOutside (before ++ (tokenAndRest (regionAfter before) text).1)) :
    ∃ value,
      reading.read text =
        value :: Reading.between.read (tokenAndRest (regionAfter before) text).2 := by
  induction text generalizing before reading with
  | nil =>
      obtain ⟨value, hvalue⟩ := hstep.exists_value?
      exact ⟨value, by rw [Reading.read, hvalue]; rfl⟩
  | cons c rest ih =>
      by_cases hstop : regionAfter before = .outside ∧ c = ' '
      · obtain ⟨hregion, rfl⟩ := hstop
        obtain ⟨value, hvalue⟩ := hstep.exists_value?
        rw [hregion] at hstep ⊢
        have hread : reading.read (' ' :: rest) =
            reading.value?.toList ++ Reading.between.read rest :=
          (reading.read_blank_iff rfl rest).2 hstep.inQuotes_eq_false
        refine ⟨value, ?_⟩
        rw [tokenAndRest, if_pos ⟨rfl, rfl⟩, hread, Reading.read_between_blank rfl, hvalue]
        rfl
      · rw [tokenAndRest_cons hstop, ← regionAfter_concat] at hplain ⊢
        obtain ⟨hends, hnext⟩ := hstep.next hstop hplain.of_append_cons
        have hrest : PlainOutside
            (before ++ [c] ++ (tokenAndRest (regionAfter (before ++ [c])) rest).1) := by
          rw [← List.append_cons]
          exact hplain
        rw [← regionAfter_concat, ← endingRun_concat] at hnext
        rw [Reading.read_cons_of_not_endsAt hends]
        exact ih hnext hrest

theorem exists_operands_eq_cons {line : String} (hline : line ≠ "")
    (hspace : line.toList.head? ≠ some ' ') (hplain : PlainOutside (programToken line).toList) :
    ∃ first, operands line = first :: operands (afterProgram line) := by
  obtain ⟨c, text, htext⟩ : ∃ c text, line.toList = c :: text :=
    List.exists_cons_of_ne_nil fun hnil => hline (String.toList_eq_nil_iff.1 hnil)
  have hc : c ≠ ' ' := by
    rintro rfl
    exact hspace (by rw [htext, List.head?_cons])
  rw [programToken, cut_eq, String.toList_ofList, htext] at hplain
  have htab : c ≠ '\t' := by
    have hfirst := hplain
    rw [tokenAndRest_cons fun hstop => hc hstop.2] at hfirst
    exact (@PlainOutside.of_append_cons [] _ c hfirst rfl).1
  obtain ⟨first, hread⟩ := @InStep.read_eq [] (c :: text) (.bare "" 0) (.bare "" 0) hplain
  refine ⟨first, ?_⟩
  rw [operands, operands, afterProgram, cut_eq, String.toList_ofList, htext,
    Reading.read_between_cons (isBlank_eq_false_of_ne hc htab)]
  exact hread

/-- To read a whole line as arguments ends the first of them where the program's token ends, so the
arguments after it are those of the line. -/
theorem drop_two_split_p_append {line : String} (hspace : line.toList.head? ≠ some ' ')
    (hplain : PlainOutside (programToken line).toList) :
    (split ("p " ++ line)).drop 2 = (split line).tail := by
  have hoperands : (split ("p " ++ line)).drop 2 = (operands line).tail := by
    rw [← tail_split_p_append, ← List.tail_drop, List.drop_one]
  rw [hoperands, tail_split]
  by_cases hline : line = ""
  · subst hline
    rfl
  · obtain ⟨first, hfirst⟩ := exists_operands_eq_cons hline hspace hplain
    rw [hfirst, List.tail_cons]

/-- A backslash outside quotes, an odd and an even run before a quote inside them, and a doubled
quote, all before the first space. -/
theorem drop_two_split_p_append_doubled :
    "x\\y\"\\\"a\\\\\"\" c\" \"d\"\"e f".toList.head? ≠ some ' ' ∧
      PlainOutside (programToken "x\\y\"\\\"a\\\\\"\" c\" \"d\"\"e f").toList ∧
      (split ("p " ++ "x\\y\"\\\"a\\\\\"\" c\" \"d\"\"e f")).drop 2 = ["d\"e f"] := by
  have hspace : "x\\y\"\\\"a\\\\\"\" c\" \"d\"\"e f".toList.head? ≠ some ' ' := by decide
  have hplain : PlainOutside (programToken "x\\y\"\\\"a\\\\\"\" c\" \"d\"\"e f").toList := by
    decide +kernel
  exact ⟨hspace, hplain, (drop_two_split_p_append hspace hplain).trans (by decide +kernel)⟩

/-- A leading space, a tab, and an odd run before a quote outside quotes. -/
example :
    (split ("p " ++ " a")).drop 2 ≠ (split " a").tail ∧
      (split ("p " ++ "a\tb c")).drop 2 ≠ (split "a\tb c").tail ∧
      (split ("p " ++ "a\\\" b")).drop 2 ≠ (split "a\\\" b").tail := by
  decide

end Interposer.CommandLine
