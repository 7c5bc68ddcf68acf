import Interposer.Proofs.CommandLine.Escape

/-!
# Lists of arguments, written and read back

A list that was joined splits into as many elements, and all but the first are read back as they
were. The first names the program: its quotes are dropped, and nothing in it is unescaped. So it
comes back only if it has no quote and none of its backslashes had to be doubled before the closing
quote. It is not lost, though. It was written like any other argument, and to read the whole line as
arguments undoes `join` on every list.
-/

namespace Interposer.CommandLine

/-- The arguments after a program as they are written, each with the space before it. -/
def written : List String → String
  | [] => ""
  | argument :: rest => " " ++ (quote argument ++ written rest)

theorem join_cons (program : String) (arguments : List String) :
    join (program :: arguments) = quote program ++ written arguments := by
  induction arguments generalizing program with
  | nil => simp [join, written]
  | cons argument rest ih =>
      have hrest := ih argument
      rw [join, List.map_cons] at hrest
      rw [join, List.map_cons, List.map_cons, String.intercalate_cons_cons, hrest, written,
        String.append_assoc]

theorem detached_written (arguments : List String) : Detached (written arguments) := by
  cases arguments with
  | nil => exact detached_empty
  | cons argument rest => exact detached_space_append _

theorem operands_written (arguments : List String) : operands (written arguments) = arguments := by
  induction arguments with
  | nil => rfl
  | cons argument rest ih =>
      have hrest := detached_written rest
      rw [written, operands_space_append, operands_quote_append argument hrest, ih]

theorem written_concat (arguments : List String) (argument : String) :
    written (arguments ++ [argument]) = written arguments ++ (" " ++ quote argument) := by
  induction arguments with
  | nil => simp [written]
  | cons first rest ih => simp [written, ih, String.append_assoc]

/-- The probe of `Closed` is itself a written argument. -/
theorem closed_written (arguments : List String) : Closed (written arguments) := by
  have hprobe : " x" = " " ++ quote "x" := by decide
  rw [Closed, hprobe, ← written_concat, operands_written, operands_written]

theorem cut_join_cons (program : String) (arguments : List String) :
    cut (join (program :: arguments)) = (quote program, written arguments) := by
  rw [join_cons]
  exact (selfContained_quote program).cut (detached_written arguments)

theorem afterProgram_join_cons (program : String) (arguments : List String) :
    afterProgram (join (program :: arguments)) = written arguments := by
  rw [afterProgram, cut_join_cons]

theorem written_cons_eq_space_append_join (argument : String) (rest : List String) :
    written (argument :: rest) = " " ++ join (argument :: rest) := by
  rw [written, join_cons]

theorem quote_ne_empty (argument : String) : quote argument ≠ "" := by
  rw [quote]
  cases hneeds : needsQuotes argument with
  | true => simp [String.ofList_eq_empty_iff]
  | false => exact (needsQuotes_eq_false_iff.1 hneeds).1

theorem split_join_cons (program : String) (arguments : List String) :
    split (join (program :: arguments)) = unquoted (quote program) :: arguments := by
  have hline : join (program :: arguments) ≠ "" := by
    rw [join_cons, Ne, String.append_eq_empty_iff]
    exact fun hempty => quote_ne_empty program hempty.1
  rw [split_of_ne_empty hline, invokedProgram, programToken, afterProgram, cut_join_cons,
    operands_written]

/-! ### The program without its quotes -/

theorem toList_unquoted (text : String) :
    (unquoted text).toList = text.toList.filter (· ≠ '"') := String.toList_ofList

theorem quote_not_mem_unquoted (text : String) : '"' ∉ (unquoted text).toList := by
  simp [toList_unquoted]

theorem unquoted_of_quote_not_mem {text : String} (hquotes : '"' ∉ text.toList) :
    unquoted text = text := by
  rw [← String.toList_inj, toList_unquoted, List.filter_eq_self]
  intro c hc
  rw [decide_eq_true_eq]
  intro heq
  exact hquotes (heq ▸ hc)

theorem unquoted_between_quotes {text : List Char} (hquotes : '"' ∉ text) :
    unquoted (String.ofList ('"' :: text ++ ['"'])) = String.ofList text := by
  have htext : unquoted (String.ofList text) = String.ofList text :=
    unquoted_of_quote_not_mem (by simpa using hquotes)
  rw [← String.toList_inj, toList_unquoted] at htext ⊢
  simpa using htext

theorem length_le_length_escape (text : List Char) : text.length ≤ (escape text).length := by
  fun_induction escape text <;> simp_all <;> omega

theorem reachesQuote_iff {text : List Char} (hquotes : '"' ∉ text) :
    reachesQuote text = true ↔ ∀ c ∈ text, c = '\\' := by
  induction text with
  | nil => simp [reachesQuote]
  | cons c text ih =>
      obtain ⟨hc, htext⟩ : '"' ≠ c ∧ '"' ∉ text := by simpa using hquotes
      by_cases hbackslash : c = '\\'
      · subst hbackslash
        simp [reachesQuote_backslash, ih htext]
      · simp [reachesQuote_other hbackslash (Ne.symm hc), hbackslash]

/-- A text without quotes is written with more backslashes exactly if one stands at its end. -/
theorem escape_eq_self_iff {text : List Char} (hquotes : '"' ∉ text) :
    escape text = text ↔ text.getLast? ≠ some '\\' := by
  induction text with
  | nil => simp [escape]
  | cons c text ih =>
      obtain ⟨hc, htext⟩ : '"' ≠ c ∧ '"' ∉ text := by simpa using hquotes
      cases hrun : decide (c = '\\') && reachesQuote text with
      | true =>
          obtain ⟨rfl, hreaches⟩ : c = '\\' ∧ reachesQuote text = true := by simpa using hrun
          have hall := (reachesQuote_iff htext).1 hreaches
          have hlong := length_le_length_escape text
          have hlast : ('\\' :: text).getLast? = some '\\' := by
            have hrun : '\\' :: text = List.replicate (text.length + 1) '\\' := by
              rw [List.replicate_succ, ← List.eq_replicate_of_mem hall]
            rw [hrun, List.getLast?_replicate, if_neg (by omega)]
          rw [escape_backslash_of_reachesQuote hreaches, hlast]
          refine iff_of_false (fun heq => ?_) (fun hne => hne rfl)
          have hlength := congrArg List.length heq
          simp only [List.length_cons] at hlength
          omega
      | false =>
          have hlast : (c :: text).getLast? ≠ some '\\' ↔ text.getLast? ≠ some '\\' := by
            cases text with
            | nil =>
                have hbackslash : c ≠ '\\' := by simpa [reachesQuote] using hrun
                simp [hbackslash]
            | cons d text => rw [List.getLast?_cons_cons]
          rw [escape_cons_of_ne_quote (Ne.symm hc) (by simpa using hrun), hlast,
            List.cons_inj_right, ih htext]

theorem quote_not_mem_escape {text : List Char} (hquotes : '"' ∉ text) : '"' ∉ escape text := by
  fun_induction escape text <;> simp_all

theorem forcesQuotes_iff (c : Char) :
    forcesQuotes c = true ↔ c ∈ [' ', '\t', '\n', '\x0b'] ∨ c = '"' := by
  simp [forcesQuotes, or_assoc]

theorem needsQuotes_iff {argument : String} (hquotes : '"' ∉ argument.toList) :
    needsQuotes argument = true ↔
      argument = "" ∨ ∃ c ∈ argument.toList, c ∈ [' ', '\t', '\n', '\x0b'] := by
  rw [needsQuotes, Bool.or_eq_true, String.isEmpty_iff, List.any_eq_true]
  refine or_congr_right ⟨?_, ?_⟩
  · intro hforced
    obtain ⟨c, hmem, hforces⟩ := hforced
    rcases (forcesQuotes_iff c).1 hforces with hspace | heq
    · exact ⟨c, hmem, hspace⟩
    · exact absurd (heq ▸ hmem) hquotes
  · intro hspaces
    obtain ⟨c, hmem, hspace⟩ := hspaces
    exact ⟨c, hmem, (forcesQuotes_iff c).2 (.inl hspace)⟩

/-- A program comes back from its written form unless it has a quote, or stands in quotes with a
backslash at its end. -/
theorem unquoted_quote_eq_self_iff (program : String) :
    unquoted (quote program) = program ↔
      '"' ∉ program.toList ∧
        ¬ ((∃ c ∈ program.toList, c ∈ [' ', '\t', '\n', '\x0b']) ∧
          program.toList.getLast? = some '\\') := by
  by_cases hquotes : '"' ∈ program.toList
  · refine iff_of_false (fun heq => ?_) (fun h => h.1 hquotes)
    rw [← heq] at hquotes
    exact quote_not_mem_unquoted _ hquotes
  · rw [quote]
    cases hneeds : needsQuotes program with
    | true =>
        have hspace : program.toList.getLast? = some '\\' →
            ∃ c ∈ program.toList, c ∈ [' ', '\t', '\n', '\x0b'] := by
          intro hlast
          rcases (needsQuotes_iff hquotes).1 hneeds with rfl | hspace
          · simp at hlast
          · exact hspace
        rw [if_pos rfl, unquoted_between_quotes (quote_not_mem_escape hquotes), ← String.toList_inj,
          String.toList_ofList, escape_eq_self_iff hquotes]
        exact ⟨fun hlast => ⟨hquotes, fun h => hlast h.2⟩, fun h hlast => h.2 ⟨hspace hlast, hlast⟩⟩
    | false =>
        rw [if_neg (by decide)]
        refine iff_of_true (unquoted_of_quote_not_mem hquotes) ⟨hquotes, ?_⟩
        intro hboth
        rw [(needsQuotes_iff hquotes).2 (.inr hboth.1)] at hneeds
        contradiction

/-! ### The round trip -/

/-- A joined list splits into as many elements and comes back but for its first one, and that one
comes back too unless it has a quote, or both needs quotes for a space, a tab or a line break and
ends in a backslash. -/
theorem split_join (arguments : List String) :
    (split (join arguments)).length = arguments.length ∧
      (split (join arguments)).tail = arguments.tail ∧
      (split (join arguments) = arguments ↔
        ∀ program ∈ arguments.head?,
          '"' ∉ program.toList ∧
            ¬ ((∃ c ∈ program.toList, c ∈ [' ', '\t', '\n', '\x0b']) ∧
              program.toList.getLast? = some '\\')) := by
  cases arguments with
  | nil => simp [show split (join []) = [] from rfl]
  | cons program rest =>
      rw [split_join_cons]
      refine ⟨rfl, rfl, ?_⟩
      rw [List.cons_eq_cons, unquoted_quote_eq_self_iff]
      simp

/-! ### The line as a whole -/

theorem operands_join (arguments : List String) : operands (join arguments) = arguments := by
  cases arguments with
  | nil => rfl
  | cons program rest =>
      rw [join_cons, operands_quote_append program (detached_written rest), operands_written]

/-- No two lists are joined to the same line, not even where splitting it gives neither of them. -/
theorem join_inj {left right : List String} : join left = join right ↔ left = right := by
  constructor
  · intro hline
    calc left = operands (join left) := (operands_join left).symm
      _ = operands (join right) := congrArg operands hline
      _ = right := operands_join right
  · exact congrArg join

end Interposer.CommandLine
