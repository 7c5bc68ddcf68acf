import Interposer.CommandLine.Grammar
import Interposer.Proofs.CommandLine.Escape

/-!
# The reader and the grammar

The reader goes on by one character and carries the run of backslashes that it is in. A rule of the
grammar takes a run together with what decides about it. So every rule is first shown as a law of
the reader, and then a derivation is read rule by rule, whatever was read before it. For the
converse a text is taken apart at its first run: some rule fits whatever comes next, and what the
rule leaves is shorter.
-/

namespace Interposer.CommandLine

/-- Where the reader stands at a place, after a value and a run of backslashes. -/
def Place.reading : Place → String → Nat → Reading
  | between, _, _ => .between
  | bare, value, run => .bare value run
  | quoted, value, run => .quoted value run

/-- The arguments that a list denotes, the first of them joined to a value read before it. -/
def resume (value : String) : List (List Char) → List String
  | [] => []
  | first :: rest => (value ++ String.ofList first) :: rest.map String.ofList

theorem resume_empty (arguments : List (List Char)) :
    resume "" arguments = arguments.map String.ofList := by
  cases arguments with
  | nil => rfl
  | cons first rest => rw [resume, String.empty_append, List.map_cons]

theorem resume_append (value : String) (more first : List Char) (rest : List (List Char)) :
    resume (value ++ String.ofList more) (first :: rest) =
      resume value ((more ++ first) :: rest) := by
  rw [resume, resume, String.ofList_append, String.append_assoc]

/-! ### The rules as laws of the reader -/

namespace Place

variable {place : Place}

theorem read_backslashes (hplace : place ≠ .between) (value : String) (run n : Nat)
    (rest : List Char) :
    (place.reading value run).read (List.replicate n '\\' ++ rest) =
      (place.reading value (run + n)).read rest := by
  induction n generalizing run with
  | zero => rfl
  | succ n ih =>
      have hstep : (place.reading value run).read ('\\' :: (List.replicate n '\\' ++ rest)) =
          (place.reading value (run + 1)).read (List.replicate n '\\' ++ rest) := by
        cases place with
        | between => exact absurd rfl hplace
        | bare | quoted => rfl
      rw [List.replicate_succ, List.cons_append, hstep, ih, Nat.add_assoc, Nat.add_comm 1]

theorem read_ordinary {c : Char} (hplace : place = .quoted ∨ place = .bare ∧ ¬ isBlank c)
    (hbackslash : c ≠ '\\') (hquote : c ≠ '"') (value : String) (run : Nat) (rest : List Char) :
    (place.reading value run).read (c :: rest) =
      (place.reading ((value ++ backslashes run).push c) 0).read rest := by
  rcases hplace with rfl | ⟨rfl, hblank⟩
  · exact Reading.read_quoted_other value run hbackslash hquote rest
  · have hbare : isBlank c = false := by simpa using hblank
    rw [reading, Reading.read_cons_of_not_endsAt (Reading.endsAt_of_not_isBlank _ hbare),
      Reading.next_bare hbare, Reading.nextBare, if_neg hbackslash, if_neg hquote]
    rfl

theorem read_separator {c : Char} (hblank : isBlank c) (value : String) (run : Nat)
    (rest : List Char) :
    (bare.reading value run).read (c :: rest) =
      (value ++ backslashes run) :: Reading.between.read rest :=
  (Reading.read_blank_iff (.bare value run) hblank rest).2 rfl

/-- A run that is not before a quote is settled where it ends. -/
theorem read_run (hplace : place ≠ .between) {rest : List Char}
    (hbackslash : ¬ BeginsWith '\\' rest) (hquote : ¬ BeginsWith '"' rest) (value : String)
    (n : Nat) :
    (place.reading value 0).read (List.replicate n '\\' ++ rest) =
      (place.reading (value ++ backslashes n) 0).read rest := by
  have hnone : ∀ value, value ++ backslashes 0 = value := fun value => String.append_empty
  rw [read_backslashes hplace, Nat.zero_add]
  rcases rest with _ | ⟨c, rest⟩
  · cases place with
    | between => exact absurd rfl hplace
    | bare | quoted => simp only [reading, Reading.read, Reading.value?, hnone]
  · have hc : c ≠ '\\' := fun heq => hbackslash (congrArg some heq)
    have hd : c ≠ '"' := fun heq => hquote (congrArg some heq)
    by_cases hordinary : place = .quoted ∨ place = .bare ∧ ¬ isBlank c
    · rw [read_ordinary hordinary hc hd, read_ordinary hordinary hc hd, hnone]
    · obtain ⟨rfl, hblank⟩ : place = .bare ∧ isBlank c := by
        cases place <;> simp_all
      rw [read_separator hblank, read_separator hblank, hnone]

theorem read_literal (hplace : place ≠ .between) (value : String) (n : Nat) (rest : List Char) :
    (place.reading value 0).read (List.replicate (2 * n + 1) '\\' ++ '"' :: rest) =
      (place.reading ((value ++ backslashes n).push '"') 0).read rest := by
  have hodd : (2 * n + 1) % 2 = 1 := by omega
  have hhalf : (2 * n + 1) / 2 = n := by omega
  rw [read_backslashes hplace, Nat.zero_add]
  cases place with
  | between => exact absurd rfl hplace
  | bare =>
      have hnext : (Reading.bare value (2 * n + 1)).next '"' =
          .bare ((value ++ backslashes ((2 * n + 1) / 2)).push '"') 0 := if_pos hodd
      rw [reading, Reading.read_cons_of_not_endsAt rfl, hnext, hhalf]
      rfl
  | quoted =>
      rw [reading, Reading.read_quoted_quote_of_odd value hodd, hhalf]
      rfl

theorem read_opening (value : String) (n : Nat) (rest : List Char) :
    (bare.reading value 0).read (List.replicate (2 * n) '\\' ++ '"' :: rest) =
      (quoted.reading (value ++ backslashes n) 0).read rest := by
  have heven : ¬ (2 * n) % 2 = 1 := by omega
  have hhalf : (2 * n) / 2 = n := by omega
  have hnext : (Reading.bare value (2 * n)).next '"' =
      .quoted (value ++ backslashes ((2 * n) / 2)) 0 := if_neg heven
  rw [read_backslashes (by decide), Nat.zero_add, reading, Reading.read_cons_of_not_endsAt rfl,
    hnext, hhalf]
  rfl

theorem read_even_quote (value : String) (n : Nat) (rest : List Char) :
    (quoted.reading value 0).read (List.replicate (2 * n) '\\' ++ '"' :: rest) =
      (Reading.closing (value ++ backslashes n)).read rest := by
  have heven : (2 * n) % 2 = 0 := by omega
  have hhalf : (2 * n) / 2 = n := by omega
  rw [read_backslashes (by decide), Nat.zero_add, reading,
    Reading.read_quoted_quote_of_even value heven, hhalf]

theorem read_doubled (value : String) (n : Nat) (rest : List Char) :
    (quoted.reading value 0).read (List.replicate (2 * n) '\\' ++ '"' :: '"' :: rest) =
      (quoted.reading ((value ++ backslashes n).push '"') 0).read rest := by
  rw [read_even_quote, Reading.read_cons_of_not_endsAt rfl]
  rfl

/-- A quote that no other follows leaves the region, as if the argument had been bare all along. -/
theorem read_closing {rest : List Char} (hquote : ¬ BeginsWith '"' rest) (value : String)
    (n : Nat) :
    (quoted.reading value 0).read (List.replicate (2 * n) '\\' ++ '"' :: rest) =
      (bare.reading (value ++ backslashes n) 0).read rest := by
  have hnone : value ++ backslashes n ++ backslashes 0 = value ++ backslashes n :=
    String.append_empty
  rw [read_even_quote]
  rcases rest with _ | ⟨c, rest⟩
  · simp only [reading, Reading.read, Reading.value?, hnone]
  · have hc : c ≠ '"' := fun heq => hquote (congrArg some heq)
    cases hblank : isBlank c with
    | true =>
        rw [read_separator hblank, hnone]
        exact (Reading.read_blank_iff (.closing _) hblank rest).2 rfl
    | false =>
        have hends := fun reading => Reading.endsAt_of_not_isBlank reading hblank
        rw [reading, Reading.read_cons_of_not_endsAt (hends _),
          Reading.read_cons_of_not_endsAt (hends _), Reading.next_closing hblank hc,
          Reading.next_bare hblank]

end Place

/-! ### From a derivation to what is read -/

/-- A derivation says what the reader makes of the text, after any value that is open already. -/
theorem Denotes.read_eq {place : Place} {text : List Char} {arguments : List (List Char)}
    (hdenotes : Denotes place text arguments) (value : String)
    (hvalue : place = .between → value = "") :
    (place.reading value 0).read text = resume value arguments := by
  have hopen : ∀ {place : Place}, place ≠ .between → ∀ {value : String},
      place = .between → value = "" :=
    fun hplace _ heq => absurd heq hplace
  have hpush : ∀ (value : String) (n : Nat) (c : Char),
      (value ++ backslashes n).push c = value ++ String.ofList (List.replicate n '\\' ++ [c]) := by
    intro value n c
    simp [← String.toList_inj]
  induction hdenotes generalizing value with
  | done => rfl
  | @blank c rest arguments hblank _ ih =>
      exact (Reading.read_between_blank hblank rest).trans (ih value hvalue)
  | @argument c rest arguments hblank _ ih =>
      rw [hvalue rfl]
      exact (Reading.read_between_cons (by simpa using hblank) rest).trans (ih "" fun _ => rfl)
  | finish => simp [Place.reading, Reading.read, Reading.value?, resume, backslashes]
  | @separator c rest arguments hblank _ ih =>
      have hrest : Reading.between.read rest = resume "" arguments := ih "" fun _ => rfl
      rw [Place.read_separator hblank, hrest, resume_empty, resume]
      rfl
  | unterminated => simp [Place.reading, Reading.read, Reading.value?, resume, backslashes]
  | @ordinary place c rest denoted arguments hplace hbackslash hquote _ ih =>
      have hne : place ≠ .between := by
        rcases hplace with rfl | ⟨rfl, -⟩ <;> decide
      rw [Place.read_ordinary hplace hbackslash hquote, hpush, ih _ (hopen hne), resume_append]
      rfl
  | run n hplace _ hbackslash hquote _ ih =>
      rw [Place.read_run hplace hbackslash hquote, backslashes, ih _ (hopen hplace), resume_append]
  | literal n hplace _ ih =>
      rw [Place.read_literal hplace, hpush, ih _ (hopen hplace), resume_append, List.append_assoc]
      rfl
  | opening n _ ih => rw [Place.read_opening, backslashes, ih _ (hopen (by decide)), resume_append]
  | doubled n _ ih =>
      rw [Place.read_doubled, hpush, ih _ (hopen (by decide)), resume_append, List.append_assoc]
      rfl
  | closing n hquote _ ih =>
      rw [Place.read_closing hquote, backslashes, ih _ (hopen (by decide)), resume_append]

/-! ### Every text has a derivation -/

/-- A text denotes something from every place on, with an argument to go on with where one is
open. -/
structure Readable (text : List Char) : Prop where
  between : ∃ arguments, Denotes .between text arguments
  opened (place : Place) : place ≠ .between →
    ∃ value arguments, Denotes place text (value :: arguments)

theorem BeginsWith.exists_cons {c : Char} {text : List Char} (hbegins : BeginsWith c text) :
    ∃ rest, text = c :: rest := by
  cases text with
  | nil => simp [BeginsWith] at hbegins
  | cons d rest => exact ⟨rest, by rw [Option.some.inj hbegins]⟩

theorem exists_eq_replicate_append (text : List Char) :
    ∃ n rest, text = List.replicate n '\\' ++ rest ∧ ¬ BeginsWith '\\' rest := by
  induction text with
  | nil => exact ⟨0, [], rfl, nofun⟩
  | cons c text ih =>
      by_cases hc : c = '\\'
      · obtain ⟨n, rest, hrun, hrest⟩ := ih
        exact ⟨n + 1, rest, by rw [hc, hrun]; rfl, hrest⟩
      · exact ⟨0, c :: text, rfl, fun hbegins => hc (Option.some.inj hbegins)⟩

theorem exists_denotes_nil {place : Place} (hplace : place ≠ .between) :
    ∃ value arguments, Denotes place [] (value :: arguments) := by
  cases place with
  | between => exact absurd rfl hplace
  | bare => exact ⟨_, _, .finish⟩
  | quoted => exact ⟨_, _, .unterminated⟩

theorem exists_denotes_quote {place : Place} (hplace : place ≠ .between) (n : Nat)
    {rest : List Char} (hrest : ∀ more : List Char, more.length ≤ rest.length → Readable more) :
    ∃ value arguments,
      Denotes place (List.replicate n '\\' ++ '"' :: rest) (value :: arguments) := by
  have hself := hrest rest (Nat.le_refl _)
  obtain ⟨half, rfl | rfl⟩ : ∃ half, n = 2 * half + 1 ∨ n = 2 * half := ⟨n / 2, by omega⟩
  · obtain ⟨value, arguments, hdenotes⟩ := hself.opened place hplace
    exact ⟨_, _, .literal half hplace hdenotes⟩
  · cases place with
    | between => exact absurd rfl hplace
    | bare =>
        obtain ⟨value, arguments, hdenotes⟩ := hself.opened .quoted nofun
        exact ⟨_, _, .opening half hdenotes⟩
    | quoted =>
        by_cases hdoubled : BeginsWith '"' rest
        · obtain ⟨more, rfl⟩ := hdoubled.exists_cons
          have hmore := hrest more (Nat.le_succ _)
          obtain ⟨value, arguments, hdenotes⟩ := hmore.opened .quoted nofun
          exact ⟨_, _, .doubled half hdenotes⟩
        · obtain ⟨value, arguments, hdenotes⟩ := hself.opened .bare nofun
          exact ⟨_, _, .closing half hdoubled hdenotes⟩

theorem exists_denotes_cons {place : Place} (hplace : place ≠ .between) {c : Char}
    (hbackslash : c ≠ '\\') (hquote : c ≠ '"') {rest : List Char} (hrest : Readable rest) :
    ∃ value arguments, Denotes place (c :: rest) (value :: arguments) := by
  by_cases hordinary : place = .quoted ∨ place = .bare ∧ ¬ isBlank c
  · obtain ⟨value, arguments, hdenotes⟩ := hrest.opened place hplace
    exact ⟨_, _, .ordinary hordinary hbackslash hquote hdenotes⟩
  · obtain ⟨rfl, hblank⟩ : place = .bare ∧ isBlank c := by
      cases place <;> simp_all
    obtain ⟨arguments, hdenotes⟩ := hrest.between
    exact ⟨_, _, .separator hblank hdenotes⟩

theorem exists_denotes_of_shorter {text : List Char}
    (hshorter : ∀ rest : List Char, rest.length < text.length → Readable rest) (place : Place)
    (hplace : place ≠ .between) :
    ∃ value arguments, Denotes place text (value :: arguments) := by
  obtain ⟨n, rest, rfl, hbackslash⟩ := exists_eq_replicate_append text
  rw [List.length_append, List.length_replicate] at hshorter
  by_cases hquote : BeginsWith '"' rest
  · obtain ⟨rest, rfl⟩ := hquote.exists_cons
    rw [List.length_cons] at hshorter
    exact exists_denotes_quote hplace n fun more hmore => hshorter more (by omega)
  · by_cases hrun : 0 < n
    · obtain ⟨value, arguments, hdenotes⟩ := (hshorter rest (by omega)).opened place hplace
      exact ⟨_, _, .run n hplace hrun hbackslash hquote hdenotes⟩
    · obtain rfl : n = 0 := by omega
      cases rest with
      | nil => exact exists_denotes_nil hplace
      | cons c rest =>
          rw [List.length_cons] at hshorter
          exact exists_denotes_cons hplace (fun heq => hbackslash (congrArg some heq))
            (fun heq => hquote (congrArg some heq)) (hshorter rest (by omega))

theorem readable (text : List Char) : Readable text := by
  induction hlength : text.length using Nat.strongRecOn generalizing text with
  | ind length ih =>
      subst hlength
      have hshorter : ∀ rest : List Char, rest.length < text.length → Readable rest :=
        fun rest hrest => ih rest.length hrest rest rfl
      refine ⟨?_, exists_denotes_of_shorter hshorter⟩
      cases text with
      | nil => exact ⟨_, .done⟩
      | cons c rest =>
          by_cases hblank : isBlank c
          · obtain ⟨arguments, hdenotes⟩ := (hshorter rest (Nat.lt_succ_self _)).between
            exact ⟨_, .blank hblank hdenotes⟩
          · obtain ⟨value, arguments, hdenotes⟩ := exists_denotes_of_shorter hshorter .bare nofun
            exact ⟨_, .argument hblank hdenotes⟩

/-! ### The arguments of a line -/

theorem eq_of_map_ofList_eq {left right : List (List Char)}
    (heq : left.map String.ofList = right.map String.ofList) : left = right :=
  (List.map_inj_right fun _ _ => String.ofList_injective).1 heq

theorem denotes_between_iff (text : String) (arguments : List (List Char)) :
    Denotes .between text.toList arguments ↔ operands text = arguments.map String.ofList := by
  have hread : ∀ {denoted : List (List Char)}, Denotes .between text.toList denoted →
      operands text = denoted.map String.ofList := fun hdenotes =>
    (hdenotes.read_eq "" fun _ => rfl).trans (resume_empty _)
  refine ⟨hread, fun heq => ?_⟩
  obtain ⟨denoted, hdenotes⟩ := (readable text.toList).between
  rwa [eq_of_map_ofList_eq (heq.symm.trans (hread hdenotes))]

/-- A line is split into the program and the one list of arguments that the text after the program
denotes. -/
theorem split_eq_denoted {line : String} (hline : line ≠ "") :
    ∃ arguments, split line = invokedProgram line :: arguments.map String.ofList ∧
      ∀ denoted, Denotes .between (afterProgram line).toList denoted ↔ denoted = arguments := by
  obtain ⟨arguments, hdenotes⟩ := (readable (afterProgram line).toList).between
  have hoperands := (denotes_between_iff (afterProgram line) arguments).1 hdenotes
  refine ⟨arguments, by rw [split_of_ne_empty hline, hoperands], fun denoted => ?_⟩
  rw [denotes_between_iff, hoperands]
  exact ⟨fun heq => eq_of_map_ofList_eq heq.symm, fun heq => by rw [heq]⟩

/-- A doubled quote inside a region, an odd run of backslashes and an empty argument. -/
theorem split_eq_denoted_doubled :
    "t \"a \"\"b\" \\\\\\\"c\t\"\"" ≠ "" ∧
      ∀ denoted,
        Denotes .between (afterProgram "t \"a \"\"b\" \\\\\\\"c\t\"\"").toList denoted ↔
          denoted = ["a \"b".toList, "\\\"c".toList, []] := by
  have hline : "t \"a \"\"b\" \\\\\\\"c\t\"\"" ≠ "" := by decide
  obtain ⟨arguments, hsplit, hunique⟩ := split_eq_denoted hline
  have hread : split "t \"a \"\"b\" \\\\\\\"c\t\"\"" =
      "t" :: ["a \"b".toList, "\\\"c".toList, []].map String.ofList := by decide
  rw [← eq_of_map_ofList_eq (List.cons.inj (hsplit.symm.trans hread)).2]
  exact ⟨hline, hunique⟩

end Interposer.CommandLine
