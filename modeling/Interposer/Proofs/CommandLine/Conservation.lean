import Interposer.Proofs.CommandLine.RoundTrip

/-!
# What splitting leaves out

To split a line takes spaces, tabs, quotes and backslashes out of it and nothing else, and puts
nothing in. Part of what was read is still held back by the reader: the argument that is open and
the run of backslashes after it. So what is conserved is what was given out together with what is
held, and a character that is read either joins what is held or is one of those that may go.
-/

namespace Interposer.CommandLine

/-- The characters that a line may lose when it is split. -/
def markup : List Char := [' ', '\t', '"', '\\']

/-- The first text is the second one without some of its markup. -/
structure Thinned (kept whole : List Char) : Prop where
  sublist : kept.Sublist whole
  filter_eq : kept.filter (· ∉ markup) = whole.filter (· ∉ markup)

namespace Thinned

theorem refl (text : List Char) : Thinned text text := ⟨List.Sublist.refl text, rfl⟩

theorem trans {kept middle whole : List Char} (hkept : Thinned kept middle)
    (hmiddle : Thinned middle whole) : Thinned kept whole :=
  ⟨hkept.sublist.trans hmiddle.sublist, hkept.filter_eq.trans hmiddle.filter_eq⟩

theorem append {left right wholeLeft wholeRight : List Char} (hleft : Thinned left wholeLeft)
    (hright : Thinned right wholeRight) : Thinned (left ++ right) (wholeLeft ++ wholeRight) := by
  refine ⟨hleft.sublist.append hright.sublist, ?_⟩
  rw [List.filter_append, List.filter_append, hleft.filter_eq, hright.filter_eq]

/-- Only markup can go. -/
theorem mem_iff {kept whole : List Char} (hthinned : Thinned kept whole) {c : Char}
    (hc : c ∉ markup) : c ∈ kept ↔ c ∈ whole := by
  have hfilter : c ∈ kept.filter (· ∉ markup) ↔ c ∈ whole.filter (· ∉ markup) := by
    rw [hthinned.filter_eq]
  simpa [hc] using hfilter

theorem nil_of_markup {text : List Char} (htext : ∀ c ∈ text, c ∈ markup) : Thinned [] text := by
  refine ⟨List.nil_sublist text, ?_⟩
  rw [List.filter_nil, eq_comm, List.filter_eq_nil_iff]
  intro c hc
  simpa using htext c hc

theorem nil_singleton {c : Char} (hc : c ∈ markup) : Thinned [] [c] := by
  refine nil_of_markup fun d hd => ?_
  rwa [List.mem_singleton.1 hd]

theorem replicate_backslash {kept whole : Nat} (hle : kept ≤ whole) :
    Thinned (List.replicate kept '\\') (List.replicate whole '\\') := by
  have hrest : Thinned [] (List.replicate (whole - kept) '\\') := by
    refine nil_of_markup fun c hc => ?_
    rw [List.eq_of_mem_replicate hc]
    decide
  have hboth := (refl (List.replicate kept '\\')).append hrest
  rwa [List.append_nil, List.replicate_append_replicate, Nat.add_sub_cancel' hle] at hboth

theorem unquoted (text : String) : Thinned (unquoted text).toList text.toList := by
  rw [toList_unquoted]
  refine ⟨List.filter_sublist, ?_⟩
  rw [List.filter_filter]
  refine List.filter_congr fun c _ => ?_
  by_cases hquote : c = '"'
  · simp [hquote, markup]
  · simp [hquote]

end Thinned

theorem mem_markup_of_isBlank {c : Char} (hblank : isBlank c) : c ∈ markup := by
  simp only [isBlank, Bool.or_eq_true, beq_iff_eq] at hblank
  rcases hblank with rfl | rfl <;> decide

/-! ### The reader -/

namespace Reading

/-- The part of what was read that is not given out yet. -/
def held (reading : Reading) : List Char := (reading.value?.getD "").toList

theorem held_closing (value : String) : (closing value).held = value.toList := rfl

theorem held_bare (value : String) (run : Nat) :
    (bare value run).held = value.toList ++ List.replicate run '\\' := by
  simp [held, value?]

theorem held_quoted (value : String) (run : Nat) :
    (quoted value run).held = value.toList ++ List.replicate run '\\' := by
  simp [held, value?]

/-- A quote uses up half of the run before it, and may itself go or stay. -/
theorem thinned_before_quote (value : String) (run : Nat) {last : List Char}
    (hlast : Thinned last ['"']) :
    Thinned (value.toList ++ List.replicate (run / 2) '\\' ++ last)
      (value.toList ++ List.replicate run '\\' ++ ['"']) := by
  have hhalf : run / 2 ≤ run := by omega
  exact ((Thinned.refl value.toList).append (Thinned.replicate_backslash hhalf)).append hlast

theorem thinned_held_nextBare (value : String) (run : Nat) (c : Char) :
    Thinned (nextBare value run c).held (value.toList ++ List.replicate run '\\' ++ [c]) := by
  fun_cases nextBare value run c with
  | case1 hbackslash =>
      rw [hbackslash, held_bare, List.replicate_succ', List.append_assoc]
      exact Thinned.refl _
  | case2 _ hquote =>
      have hliteral := thinned_before_quote value run (Thinned.refl ['"'])
      simpa [held_bare, hquote] using hliteral
  | case3 _ hquote =>
      have hopening := thinned_before_quote value run (Thinned.nil_singleton (by decide))
      simpa [held_quoted, hquote] using hopening
  | case4 =>
      have hheld : (bare ((value ++ backslashes run).push c) 0).held =
          value.toList ++ List.replicate run '\\' ++ [c] := by
        simp [held_bare]
      rw [hheld]
      exact Thinned.refl _

/-- Inside quotes a character means another state, but no other text. -/
theorem held_nextQuoted (value : String) (run : Nat) (c : Char) :
    (nextQuoted value run c).held = (nextBare value run c).held := by
  fun_cases nextQuoted value run c with
  | case1 hbackslash => rw [nextBare, if_pos hbackslash, held_quoted, held_bare]
  | case2 hbackslash hquote hodd =>
      rw [nextBare, if_neg hbackslash, if_pos hquote, if_pos hodd, held_quoted, held_bare]
  | case3 hbackslash hquote hodd =>
      rw [nextBare, if_neg hbackslash, if_pos hquote, if_neg hodd, held_closing, held_quoted,
        List.replicate_zero, List.append_nil]
  | case4 hbackslash hquote =>
      rw [nextBare, if_neg hbackslash, if_neg hquote, held_quoted, held_bare]

theorem thinned_held_next {reading : Reading} {c : Char} (hends : reading.endsAt c = false) :
    Thinned (reading.next c).held (reading.held ++ [c]) := by
  unfold next
  rw [hends, if_neg (by decide)]
  cases reading with
  | between => exact thinned_held_nextBare "" 0 c
  | bare value run =>
      rw [held_bare]
      exact thinned_held_nextBare value run c
  | quoted value run =>
      rw [held_nextQuoted, held_quoted]
      exact thinned_held_nextBare value run c
  | closing value =>
      by_cases hquote : c = '"'
      · subst hquote
        simpa [held_closing, held_quoted] using Thinned.refl (value.toList ++ ['"'])
      · simpa [held_closing, hquote] using thinned_held_nextBare value 0 c

theorem flatMap_toList_value? (reading : Reading) :
    reading.value?.toList.flatMap String.toList = reading.held := by
  cases hvalue : reading.value? with
  | none => simp [held, hvalue]
  | some value => simp [held, hvalue]

theorem thinned_read (reading : Reading) (text : List Char) :
    Thinned ((reading.read text).flatMap String.toList) (reading.held ++ text) := by
  induction text generalizing reading with
  | nil =>
      rw [read, flatMap_toList_value?, List.append_nil]
      exact Thinned.refl _
  | cons c rest ih =>
      cases hends : reading.endsAt c with
      | true =>
          have hc : Thinned [] [c] :=
            Thinned.nil_singleton (mem_markup_of_isBlank (isBlank_of_endsAt hends))
          have hrest : Thinned ((between.read rest).flatMap String.toList) rest := ih between
          rw [read, completed?, if_pos hends, next_of_endsAt hends, List.flatMap_append,
            flatMap_toList_value?]
          exact (Thinned.refl reading.held).append (hc.append hrest)
      | false =>
          have hnext := (thinned_held_next hends).append (Thinned.refl rest)
          rw [List.append_assoc, List.singleton_append] at hnext
          rw [read_cons_of_not_endsAt hends]
          exact (ih (reading.next c)).trans hnext

end Reading

/-! ### The line -/

theorem thinned_operands (text : String) :
    Thinned ((operands text).flatMap String.toList) text.toList :=
  Reading.between.thinned_read text.toList

theorem thinned_split (line : String) :
    Thinned ((split line).flatMap String.toList) line.toList := by
  by_cases hline : line = ""
  · subst hline
    exact Thinned.refl []
  · have hparts := congrArg String.toList (programToken_append_afterProgram line)
    have hprogram := Thinned.unquoted (programToken line)
    have harguments := thinned_operands (afterProgram line)
    rw [String.toList_append] at hparts
    rw [split_of_ne_empty hline, List.flatMap_cons, invokedProgram, ← hparts]
    exact hprogram.append harguments

/-- The arguments of a line, put together again, are the line without some of its spaces, tabs,
double quotes and backslashes. Nothing else is missing, nothing is new and the order is kept. -/
theorem join_split_conserved (line : String) :
    (String.join (split line)).toList.Sublist line.toList ∧
      (String.join (split line)).toList.filter (· ∉ [' ', '\t', '"', '\\']) =
        line.toList.filter (· ∉ [' ', '\t', '"', '\\']) := by
  have hthinned := thinned_split line
  rw [String.toList_join]
  exact ⟨hthinned.sublist, hthinned.filter_eq⟩

end Interposer.CommandLine
