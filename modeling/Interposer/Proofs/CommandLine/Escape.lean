import Interposer.CommandLine.Quoted
import Interposer.Proofs.CommandLine.Seam

/-!
# One written argument

An argument that was written is read back as it was, and a program that was written is cut off where
it ends. Both are proved whatever text follows, so that a list of them needs no further induction on
the readers. What the reader has pending when it comes to a run of backslashes is the heart of it:
where the run reaches a quote, an even number of backslashes was read before.
-/

namespace Interposer.CommandLine

/-! ### Which arguments stand as they are -/

theorem needsQuotes_eq_false_iff {argument : String} :
    needsQuotes argument = false ↔
      argument ≠ "" ∧ ∀ c ∈ argument.toList, forcesQuotes c = false := by
  simp [needsQuotes]

theorem isBlank_of_forcesQuotes_eq_false {c : Char} (hc : forcesQuotes c = false) :
    isBlank c = false := by
  simp_all [forcesQuotes, isBlank]

theorem ne_of_forcesQuotes_eq_false {c d : Char} (hc : forcesQuotes c = false)
    (hd : forcesQuotes d = true) : c ≠ d := by
  intro heq
  rw [← heq, hc] at hd
  contradiction

/-! ### Escaping, by the first character -/

theorem reachesQuote_backslash (text : List Char) :
    reachesQuote ('\\' :: text) = reachesQuote text := rfl

theorem reachesQuote_quote (text : List Char) : reachesQuote ('"' :: text) = true := rfl

theorem reachesQuote_other {c : Char} (hbackslash : c ≠ '\\') (hquote : c ≠ '"')
    (text : List Char) : reachesQuote (c :: text) = false := by
  rw [reachesQuote, if_neg hbackslash]
  exact beq_false_of_ne hquote

theorem escape_quote (text : List Char) : escape ('"' :: text) = '\\' :: '"' :: escape text := by
  rw [escape, if_pos rfl]

theorem escape_backslash_of_reachesQuote {text : List Char} (hreaches : reachesQuote text = true) :
    escape ('\\' :: text) = '\\' :: '\\' :: escape text := by
  rw [escape, if_neg (by decide), if_pos ⟨rfl, hreaches⟩]

theorem escape_cons_of_ne_quote {c : Char} {text : List Char} (hquote : c ≠ '"')
    (hrun : c = '\\' → reachesQuote text = false) : escape (c :: text) = c :: escape text := by
  rw [escape, if_neg hquote, if_neg]
  rintro ⟨hbackslash, hreaches⟩
  rw [hrun hbackslash] at hreaches
  contradiction

/-! ### Inside quotes, one character at a time -/

@[simp] theorem toList_backslashes (count : Nat) :
    (backslashes count).toList = List.replicate count '\\' := String.toList_ofList

namespace Reading

theorem read_quoted_backslash (value : String) (run : Nat) (rest : List Char) :
    (quoted value run).read ('\\' :: rest) = (quoted value (run + 1)).read rest := rfl

theorem read_quoted_quote_of_odd (value : String) {run : Nat} (hrun : run % 2 = 1)
    (rest : List Char) :
    (quoted value run).read ('"' :: rest) =
      (quoted ((value ++ backslashes (run / 2)).push '"') 0).read rest := by
  have hnext : (quoted value run).next '"' =
      quoted ((value ++ backslashes (run / 2)).push '"') 0 := if_pos hrun
  rw [read_cons_of_not_endsAt rfl, hnext]

theorem read_quoted_quote_of_even (value : String) {run : Nat} (hrun : run % 2 = 0)
    (rest : List Char) :
    (quoted value run).read ('"' :: rest) =
      (closing (value ++ backslashes (run / 2))).read rest := by
  have hodd : ¬ run % 2 = 1 := by omega
  have hnext : (quoted value run).next '"' = closing (value ++ backslashes (run / 2)) := if_neg hodd
  rw [read_cons_of_not_endsAt rfl, hnext]

theorem read_quoted_other (value : String) (run : Nat) {c : Char} (hbackslash : c ≠ '\\')
    (hquote : c ≠ '"') (rest : List Char) :
    (quoted value run).read (c :: rest) =
      (quoted ((value ++ backslashes run).push c) 0).read rest := by
  have hnext : (quoted value run).next c = quoted ((value ++ backslashes run).push c) 0 := by
    rw [show (quoted value run).next c = nextQuoted value run c from rfl, nextQuoted,
      if_neg hbackslash, if_neg hquote]
  rw [read_cons_of_not_endsAt rfl, hnext]

/-- An escaped text is read as the text, after half of the backslashes that were pending if the
text goes on with a run that reaches a quote, and after all of them otherwise. -/
theorem read_escape_append (text : List Char) (value : String) (run : Nat)
    (hrun : reachesQuote text = true → run % 2 = 0) (rest : List Char) :
    (quoted value run).read (escape text ++ '"' :: rest) =
      (closing (value ++ backslashes (if reachesQuote text then run / 2 else run) ++
        String.ofList text)).read rest := by
  induction text generalizing value run with
  | nil =>
      rw [escape, List.nil_append, read_quoted_quote_of_even value (hrun rfl), reachesQuote,
        if_pos rfl]
      exact congrArg (fun value => (closing value).read rest) String.append_empty.symm
  | cons c text ih =>
      by_cases hquote : c = '"'
      · subst hquote
        have heven : run % 2 = 0 := hrun (reachesQuote_quote text)
        have hhalf : (run + 1) / 2 = run / 2 := by omega
        rw [escape_quote, List.cons_append, List.cons_append, read_quoted_backslash,
          read_quoted_quote_of_odd value (by omega), ih _ _ fun _ => rfl, reachesQuote_quote]
        congr 2
        simp [← String.toList_inj, hhalf]
      · by_cases hbackslash : c = '\\'
        · subst hbackslash
          rw [reachesQuote_backslash] at hrun ⊢
          cases hreaches : reachesQuote text with
          | true =>
              have heven : run % 2 = 0 := hrun hreaches
              have hhalf : (run + 1 + 1) / 2 = run / 2 + 1 := by omega
              rw [escape_backslash_of_reachesQuote hreaches, List.cons_append, List.cons_append,
                read_quoted_backslash, read_quoted_backslash, ih _ _ fun _ => by omega, hreaches]
              congr 2
              simp [← String.toList_inj, hhalf, List.replicate_succ']
          | false =>
              rw [escape_cons_of_ne_quote hquote fun _ => hreaches, List.cons_append,
                read_quoted_backslash, ih _ _ fun htrue => by simp [hreaches] at htrue, hreaches]
              congr 2
              simp [← String.toList_inj, List.replicate_succ']
        · rw [escape_cons_of_ne_quote hquote fun h => absurd h hbackslash, List.cons_append,
            read_quoted_other value run hbackslash hquote, ih _ _ fun _ => rfl,
            reachesQuote_other hbackslash hquote]
          congr 2
          simp [← String.toList_inj]

/-! ### Outside quotes -/

theorem read_between_cons {c : Char} (hblank : isBlank c = false) (rest : List Char) :
    between.read (c :: rest) = (bare "" 0).read (c :: rest) := by
  have hnext : between.next c = (bare "" 0).next c := by simp [next, endsAt, hblank]
  rw [read_cons_of_not_endsAt (endsAt_of_not_isBlank _ hblank), hnext,
    read_cons_of_not_endsAt (endsAt_of_not_isBlank _ hblank)]

/-- Characters that do not force quotes are taken over as they stand. -/
theorem read_plain_append {text : List Char} (hplain : ∀ c ∈ text, forcesQuotes c = false)
    (value : String) (run : Nat) (rest : List Char) :
    ∃ settled pending, (bare value run).read (text ++ rest) = (bare settled pending).read rest ∧
      settled ++ backslashes pending = value ++ backslashes run ++ String.ofList text := by
  induction text generalizing value run with
  | nil => exact ⟨value, run, rfl, String.append_empty.symm⟩
  | cons c text ih =>
      have hc := hplain c List.mem_cons_self
      have hblank := isBlank_of_forcesQuotes_eq_false hc
      have hquote : c ≠ '"' := ne_of_forcesQuotes_eq_false hc rfl
      have hread : (bare value run).read (c :: (text ++ rest)) =
          (nextBare value run c).read (text ++ rest) := by
        rw [read_cons_of_not_endsAt (endsAt_of_not_isBlank _ hblank), next_bare hblank]
      have htext := ih fun d hd => hplain d (List.mem_cons_of_mem c hd)
      rw [List.cons_append, hread, nextBare]
      by_cases hbackslash : c = '\\'
      · obtain ⟨settled, pending, hrest, hvalue⟩ := htext value (run + 1)
        refine ⟨settled, pending, by rw [if_pos hbackslash, hrest], ?_⟩
        rw [hvalue]
        simp [← String.toList_inj, hbackslash, List.replicate_succ']
      · obtain ⟨settled, pending, hrest, hvalue⟩ := htext ((value ++ backslashes run).push c) 0
        refine ⟨settled, pending, by rw [if_neg hbackslash, if_neg hquote, hrest], ?_⟩
        rw [hvalue]
        simp [← String.toList_inj]

end Reading

/-! ### One argument -/

theorem operands_quote_append (argument : String) {rest : String} (hrest : Detached rest) :
    operands (quote argument ++ rest) = argument :: operands rest := by
  rw [operands, String.toList_append, quote]
  cases hneeds : needsQuotes argument with
  | true =>
      have hread := Reading.read_escape_append argument.toList "" 0 (fun _ => rfl) rest.toList
      have hvalue : "" ++ backslashes (if reachesQuote argument.toList then 0 / 2 else 0) ++
          String.ofList argument.toList = argument := by
        simp [← String.toList_inj]
      rw [if_pos rfl, String.toList_ofList, List.append_assoc, List.cons_append, List.cons_append,
        List.nil_append, Reading.read_between_cons (by decide)]
      refine hread.trans ?_
      rw [hvalue]
      exact Reading.read_detached rfl hrest
  | false =>
      obtain ⟨hempty, hplain⟩ := needsQuotes_eq_false_iff.1 hneeds
      obtain ⟨c, text, htext⟩ : ∃ c text, argument.toList = c :: text :=
        List.exists_cons_of_ne_nil fun hnil => hempty (String.toList_eq_nil_iff.1 hnil)
      obtain ⟨settled, pending, hread, hvalue⟩ := Reading.read_plain_append hplain "" 0 rest.toList
      have hblank : isBlank c = false :=
        isBlank_of_forcesQuotes_eq_false (hplain c (by rw [htext]; exact List.mem_cons_self))
      rw [if_neg (by decide), htext, List.cons_append, Reading.read_between_cons hblank,
        ← List.cons_append, ← htext, hread, Reading.read_detached rfl hrest, Reading.value?, hvalue]
      simp [backslashes]

/-! ### One program -/

/-- Inside quotes a backslash covers the character after it. -/
theorem tokenAndRest_inside_backslash (c : Char) (text : List Char) :
    tokenAndRest .inside ('\\' :: c :: text) =
      ('\\' :: c :: (tokenAndRest .inside text).1, (tokenAndRest .inside text).2) := rfl

/-- The scan for the end of a program goes through an escaped text without leaving the quotes. -/
theorem tokenAndRest_escape_append (text : List Char) {region : Region}
    (hregion : region = .inside ∨ region = .covered ∧ reachesQuote text = false)
    (rest : List Char) :
    tokenAndRest region (escape text ++ '"' :: rest) =
      (escape text ++ '"' :: (tokenAndRest .outside rest).1, (tokenAndRest .outside rest).2) := by
  induction text generalizing region with
  | nil =>
      rcases hregion with rfl | ⟨rfl, hreaches⟩
      · rfl
      · simp [reachesQuote] at hreaches
  | cons c text ih =>
      have hgoes : ∀ d : Char, ¬ (region = .outside ∧ d = ' ') := by
        rintro d ⟨rfl, -⟩
        simp at hregion
      by_cases hquote : c = '"'
      · subst hquote
        obtain rfl : region = .inside := by simpa [reachesQuote_quote] using hregion
        rw [escape_quote, List.cons_append, List.cons_append, tokenAndRest_inside_backslash,
          ih (.inl rfl)]
        rfl
      · cases hrun : decide (c = '\\') && reachesQuote text with
        | true =>
            obtain ⟨rfl, hreaches⟩ : c = '\\' ∧ reachesQuote text = true := by simpa using hrun
            obtain rfl : region = .inside := by
              simpa [reachesQuote_backslash, hreaches] using hregion
            rw [escape_backslash_of_reachesQuote hreaches, List.cons_append, List.cons_append,
              tokenAndRest_inside_backslash, ih (.inl rfl)]
            rfl
        | false =>
            have hnext : region.afterChar c = .inside ∨
                region.afterChar c = .covered ∧ reachesQuote text = false := by
              rcases hregion with rfl | ⟨rfl, -⟩
              · by_cases hbackslash : c = '\\'
                · simp_all [Region.afterChar]
                · simp [Region.afterChar, hquote, hbackslash]
              · exact .inl rfl
            rw [escape_cons_of_ne_quote hquote (by simpa using hrun), List.cons_append,
              tokenAndRest_cons (hgoes c), ih hnext, List.cons_append]

theorem tokenAndRest_plain_append {text : List Char} (hplain : ∀ c ∈ text, forcesQuotes c = false)
    (rest : List Char) :
    tokenAndRest .outside (text ++ rest) =
      (text ++ (tokenAndRest .outside rest).1, (tokenAndRest .outside rest).2) := by
  induction text with
  | nil => rfl
  | cons c text ih =>
      have hc := hplain c List.mem_cons_self
      have hspace : c ≠ ' ' := ne_of_forcesQuotes_eq_false hc rfl
      have hquote : c ≠ '"' := ne_of_forcesQuotes_eq_false hc rfl
      have hnext : Region.outside.afterChar c = .outside := if_neg hquote
      rw [List.cons_append, tokenAndRest_cons (fun hstop => hspace hstop.2), hnext,
        ih fun d hd => hplain d (List.mem_cons_of_mem c hd), List.cons_append]

/-- A written argument is the token of a line that begins with it. -/
theorem selfContained_quote (argument : String) : SelfContained (quote argument) := by
  rw [selfContained_iff, quote]
  cases hneeds : needsQuotes argument with
  | true =>
      have hscan := tokenAndRest_escape_append argument.toList (.inl rfl) [' ']
      rw [if_pos rfl, String.toList_ofList, List.append_assoc, List.cons_append, List.cons_append,
        List.nil_append, tokenAndRest_cons (by decide),
        show Region.outside.afterChar '"' = .inside from rfl, hscan]
      rfl
  | false =>
      rw [if_neg (by decide), tokenAndRest_plain_append (needsQuotes_eq_false_iff.1 hneeds).2]
      simp [tokenAndRest]

end Interposer.CommandLine
