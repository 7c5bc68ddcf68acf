import Interposer.Proofs.CommandLine.Token

/-!
# What is read on both sides of a seam

A line put together from several texts is cut and read in one go. The program's part is settled by
`SelfContained.cut`. For the arguments the reader's state at the seam decides: a blank there ends
what was open before it, unless it stands inside quotes, and then it becomes part of the argument
whatever follows. So `Closed`, which asks about one probe, is the same as not ending inside quotes.
-/

namespace Interposer.CommandLine

/-- A text that is empty or begins with a space, so that it goes on with nothing before it. -/
def Detached (text : String) : Prop := ∀ c ∈ text.toList.head?, c = ' '

theorem detached_empty : Detached "" := by simp [Detached]

theorem detached_space_append (rest : String) : Detached (" " ++ rest) := by simp [Detached]

/-- A detached text with anything in it is a space and what follows it. -/
theorem Detached.cases {text : String} (htext : Detached text) :
    text = "" ∨ ∃ rest, text = " " ++ rest := by
  rcases hlist : text.toList with _ | ⟨c, rest⟩
  · exact .inl (String.toList_eq_nil_iff.1 hlist)
  · obtain rfl : c = ' ' := htext c (by rw [hlist, List.head?_cons, Option.mem_some])
    refine .inr ⟨String.ofList rest, ?_⟩
    simp [← String.toList_inj, hlist]

theorem Detached.append {left right : String} (hleft : Detached left) (hright : Detached right) :
    Detached (left ++ right) := by
  rcases hleft.cases with rfl | ⟨rest, rfl⟩
  · rwa [String.empty_append]
  · rw [String.append_assoc]
    exact detached_space_append _

/-! ### The program -/

theorem detached_afterProgram (line : String) : Detached (afterProgram line) := by
  intro c hhead
  rw [afterProgram, cut_eq, String.toList_ofList] at hhead
  exact eq_space_of_mem_head?_rest hhead

theorem selfContained_iff (program : String) :
    SelfContained program ↔
      tokenAndRest .outside (program.toList ++ [' ']) = (program.toList, [' ']) := by
  have hline : (program ++ " ").toList = program.toList ++ [' '] := String.toList_append
  constructor
  · intro hprogram
    have hprobe : cut (program ++ " ") = (program, " ") := by
      rw [cut, hprogram, cutAt?_append, Option.getD_some]
    rw [← hline]
    exact cut_eq_iff.1 hprobe
  · intro hscan
    have hprobe : cut (program ++ " ") = (program, " ") := by
      rw [cut_eq_iff, hline]
      exact hscan
    rw [SelfContained, programEnd_eq_utf8ByteSize, programToken, hprobe]

/-- A self-contained text is the whole token of a line that goes on with a space or not at all. -/
theorem SelfContained.cut {program : String} (hprogram : SelfContained program) {rest : String}
    (hrest : Detached rest) : cut (program ++ rest) = (program, rest) := by
  have hspace := (selfContained_iff program).1 hprogram
  rw [cut_eq_iff, String.toList_append]
  rcases hrest.cases with rfl | ⟨more, rfl⟩
  · simpa using tokenAndRest_of_append hspace
  · simpa using tokenAndRest_append_of_ended hspace more.toList

/-! ### The reader at a seam -/

namespace Reading

/-- Whether the reader stands inside quotes. -/
def inQuotes : Reading → Bool
  | quoted _ _ => true
  | _ => false

/-- The part of the open argument that nothing read later can change. -/
def settled? : Reading → Option String
  | between => none
  | bare value _ | quoted value _ | closing value => some value

theorem append_push (left right : String) (c : Char) :
    (left ++ right).push c = left ++ right.push c := by
  simp [← String.toList_inj]

theorem settled?_nextBare (value : String) (run : Nat) (c : Char) :
    ∃ more, (nextBare value run c).settled? = some (value ++ more) := by
  fun_cases nextBare value run c with
  | case1 => exact ⟨"", congrArg some (String.append_empty).symm⟩
  | case2 => exact ⟨_, congrArg some (append_push ..)⟩
  | case3 => exact ⟨_, rfl⟩
  | case4 => exact ⟨_, congrArg some (append_push ..)⟩

theorem settled?_nextQuoted (value : String) (run : Nat) (c : Char) :
    ∃ more, (nextQuoted value run c).settled? = some (value ++ more) := by
  fun_cases nextQuoted value run c with
  | case1 => exact ⟨"", congrArg some (String.append_empty).symm⟩
  | case2 => exact ⟨_, congrArg some (append_push ..)⟩
  | case3 => exact ⟨_, rfl⟩
  | case4 => exact ⟨_, congrArg some (append_push ..)⟩

theorem settled?_next {reading : Reading} {value : String} (hvalue : reading.settled? = some value)
    {c : Char} (hends : reading.endsAt c = false) :
    ∃ more, (reading.next c).settled? = some (value ++ more) := by
  unfold next
  rw [hends, if_neg (by decide)]
  cases reading with
  | between => simp [settled?] at hvalue
  | bare settled run =>
      obtain rfl : settled = value := Option.some.inj hvalue
      exact settled?_nextBare settled run c
  | quoted settled run =>
      obtain rfl : settled = value := Option.some.inj hvalue
      exact settled?_nextQuoted settled run c
  | closing settled =>
      obtain rfl : settled = value := Option.some.inj hvalue
      by_cases hquote : c = '"'
      · refine ⟨String.singleton '"', ?_⟩
        simp only [if_pos hquote, settled?, String.push_eq_append]
      · simpa only [if_neg hquote] using settled?_nextBare settled 0 c

theorem value?_of_settled? {reading : Reading} {value : String}
    (hvalue : reading.settled? = some value) :
    ∃ run, reading.value? = some (value ++ backslashes run) := by
  cases reading with
  | between => simp [settled?] at hvalue
  | bare settled run | quoted settled run => exact ⟨run, by rw [← Option.some.inj hvalue, value?]⟩
  | closing settled =>
      refine ⟨0, ?_⟩
      rw [← Option.some.inj hvalue, value?]
      exact congrArg some (String.append_empty).symm

/-- An open argument is read to its end and begins with what is settled of it. -/
theorem read_of_settled? {reading : Reading} {value : String}
    (hvalue : reading.settled? = some value) (text : List Char) :
    ∃ more arguments, reading.read text = (value ++ more) :: arguments := by
  induction text generalizing reading value with
  | nil =>
      obtain ⟨run, hrun⟩ := value?_of_settled? hvalue
      exact ⟨backslashes run, [], by rw [read, hrun, Option.toList_some]⟩
  | cons c rest ih =>
      rw [read, completed?]
      cases hends : reading.endsAt c with
      | true =>
          obtain ⟨run, hrun⟩ := value?_of_settled? hvalue
          exact ⟨backslashes run, _, by rw [hrun]; rfl⟩
      | false =>
          obtain ⟨more, hnext⟩ := settled?_next hvalue hends
          obtain ⟨later, arguments, hread⟩ := ih hnext
          exact ⟨more ++ later, arguments, by rw [hread, String.append_assoc]; rfl⟩

theorem read_cons_of_not_endsAt {reading : Reading} {c : Char} (hends : reading.endsAt c = false)
    (rest : List Char) : reading.read (c :: rest) = (reading.next c).read rest := by
  rw [read, completed?, hends]
  rfl

theorem endsAt_of_not_isBlank (reading : Reading) {c : Char} (hblank : isBlank c = false) :
    reading.endsAt c = false := by
  cases reading with
  | quoted value run => rfl
  | between | bare value run | closing value => exact hblank

theorem endsAt_of_isBlank {reading : Reading} (hquotes : reading.inQuotes = false) {c : Char}
    (hblank : isBlank c) : reading.endsAt c := by
  cases reading with
  | quoted value run => simp [inQuotes] at hquotes
  | between | bare value run | closing value => exact hblank

theorem isBlank_of_endsAt {reading : Reading} {c : Char} (hends : reading.endsAt c) :
    isBlank c := by
  cases reading with
  | quoted value run => simp [endsAt] at hends
  | between | bare value run | closing value => exact hends

theorem next_of_endsAt {reading : Reading} {c : Char} (hends : reading.endsAt c) :
    reading.next c = between := if_pos hends

theorem next_bare {c : Char} (hblank : isBlank c = false) (value : String) (run : Nat) :
    (bare value run).next c = nextBare value run c := by
  have hends := endsAt_of_not_isBlank (bare value run) hblank
  rw [next, hends, if_neg (by decide)]

theorem next_closing {c : Char} (hblank : isBlank c = false) (hquote : c ≠ '"') (value : String) :
    (closing value).next c = nextBare value 0 c := by
  have hends := endsAt_of_not_isBlank (closing value) hblank
  simp only [next, hends, if_neg hquote]
  rfl

theorem next_quoted_of_isBlank (value : String) (run : Nat) {c : Char} (hblank : isBlank c) :
    (quoted value run).next c = quoted ((value ++ backslashes run).push c) 0 := by
  have hbackslash : c ≠ '\\' := by
    intro heq
    simp [isBlank, heq] at hblank
  have hquote : c ≠ '"' := by
    intro heq
    simp [isBlank, heq] at hblank
  simp [next, endsAt, nextQuoted, hbackslash, hquote]

/-- A blank ends an argument everywhere but inside quotes, where it becomes part of it. -/
theorem read_blank_iff (reading : Reading) {c : Char} (hblank : isBlank c) (rest : List Char) :
    reading.read (c :: rest) = reading.value?.toList ++ between.read rest ↔
      reading.inQuotes = false := by
  constructor
  · intro hread
    cases reading with
    | between | bare value run | closing value => rfl
    | quoted value run =>
        -- the argument read from here on is longer than the one the text before denotes
        have hsettled : ((quoted value run).next c).settled? =
            some ((value ++ backslashes run).push c) := by
          rw [next_quoted_of_isBlank value run hblank, settled?]
        obtain ⟨more, arguments, hlong⟩ := read_of_settled? hsettled rest
        rw [read, hlong, completed?, endsAt, if_neg (by decide), value?] at hread
        have hlength := congrArg String.length (List.cons.inj hread).1
        rw [String.length_append, String.length_push] at hlength
        omega
  · intro hquotes
    have hends := endsAt_of_isBlank hquotes hblank
    rw [read, completed?, if_pos hends, next_of_endsAt hends]

theorem read_append_blank_iff (reading : Reading) (text : List Char) {c : Char} (hblank : isBlank c)
    (rest : List Char) :
    reading.read (text ++ c :: rest) = reading.read text ++ between.read rest ↔
      (reading.after text).inQuotes = false := by
  rw [read_append, read_eq reading text, List.append_assoc, List.append_cancel_left_eq]
  exact (reading.after text).read_blank_iff hblank rest

theorem read_between_blank {c : Char} (hblank : isBlank c) (rest : List Char) :
    between.read (c :: rest) = between.read rest :=
  (read_blank_iff between hblank rest).2 rfl

theorem read_between_blanks_append {blanks : List Char} (hblanks : blanks.all isBlank)
    (rest : List Char) : between.read (blanks ++ rest) = between.read rest := by
  induction blanks with
  | nil => rfl
  | cons c blanks ih =>
      obtain ⟨hc, hothers⟩ : isBlank c ∧ blanks.all isBlank := by simpa using hblanks
      rw [List.cons_append, read_between_blank hc, ih hothers]

end Reading

/-! ### The arguments -/

theorem closed_iff (text : String) :
    Closed text ↔ (Reading.between.after text.toList).inQuotes = false := by
  rw [Closed, operands, String.toList_append]
  exact Reading.between.read_append_blank_iff text.toList rfl ['x']

/-- However many blanks follow a text, the first of them decides what becomes of the rest. -/
theorem operands_append_blanks_iff {blanks : String} (hsome : blanks ≠ "")
    (hblanks : blanks.toList.all isBlank) (text rest : String) :
    operands (text ++ (blanks ++ rest)) = operands text ++ operands rest ↔ Closed text := by
  obtain ⟨c, others, hlist⟩ : ∃ c others, blanks.toList = c :: others :=
    List.exists_cons_of_ne_nil fun hnil => hsome (String.toList_eq_nil_iff.1 hnil)
  obtain ⟨hc, hothers⟩ : isBlank c ∧ others.all isBlank := by simpa [hlist] using hblanks
  have hrest : operands rest = Reading.between.read (others ++ rest.toList) :=
    (Reading.read_between_blanks_append hothers rest.toList).symm
  rw [closed_iff, hrest, operands, String.toList_append, String.toList_append, hlist]
  exact Reading.between.read_append_blank_iff text.toList hc _

theorem operands_append_space_iff (text rest : String) :
    operands (text ++ (" " ++ rest)) = operands text ++ operands rest ↔ Closed text :=
  operands_append_blanks_iff (by decide) rfl text rest

@[simp] theorem operands_empty : operands "" = [] := rfl

theorem operands_space_append (rest : String) : operands (" " ++ rest) = operands rest := by
  rw [operands, String.toList_append]
  exact @Reading.read_between_blanks_append [' '] rfl rest.toList

theorem Reading.read_detached {reading : Reading} (hquotes : reading.inQuotes = false)
    {rest : String} (hrest : Detached rest) :
    reading.read rest.toList = reading.value?.toList ++ operands rest := by
  rcases hrest.cases with rfl | ⟨more, rfl⟩
  · rw [operands_empty, List.append_nil]
    rfl
  · rw [operands_space_append, String.toList_append]
    exact (reading.read_blank_iff rfl more.toList).2 hquotes

theorem Closed.operands_append {left right : String} (hleft : Closed left)
    (hright : Detached right) : operands (left ++ right) = operands left ++ operands right := by
  have hquotes := (closed_iff left).1 hleft
  rw [operands, String.toList_append, Reading.read_append, Reading.read_detached hquotes hright,
    ← List.append_assoc, ← Reading.read_eq]
  rfl

theorem closed_empty : Closed "" := (closed_iff "").2 rfl

theorem closed_space_append_iff (rest : String) : Closed (" " ++ rest) ↔ Closed rest := by
  rw [closed_iff, closed_iff, String.toList_append]
  rfl

theorem Closed.append {left right : String} (hleft : Closed left) (hdetached : Detached right)
    (hright : Closed right) : Closed (left ++ right) := by
  rcases hdetached.cases with rfl | ⟨rest, rfl⟩
  · rwa [String.append_empty]
  · have hends : (Reading.between.after left.toList).endsAt ' ' :=
      Reading.endsAt_of_isBlank ((closed_iff left).1 hleft) rfl
    have hseam : (" " ++ rest).toList = ' ' :: rest.toList := String.toList_append
    rw [closed_space_append_iff, closed_iff] at hright
    rwa [closed_iff, String.toList_append, Reading.after_append, hseam, Reading.after_cons,
      Reading.next_of_endsAt hends]

/-! ### The whole line -/

theorem split_of_ne_empty {line : String} (hline : line ≠ "") :
    split line = invokedProgram line :: operands (afterProgram line) := by
  rw [split, if_neg (by rwa [String.isEmpty_iff])]

theorem tail_split (line : String) : (split line).tail = operands (afterProgram line) := by
  by_cases hline : line = ""
  · rw [hline]
    rfl
  · rw [split_of_ne_empty hline, List.tail_cons]

theorem SelfContained.split_append {program : String} (hprogram : SelfContained program)
    (rest : String) : split (program ++ (" " ++ rest)) = unquoted program :: operands rest := by
  have hcut := hprogram.cut (detached_space_append rest)
  rw [split_of_ne_empty (by simp), invokedProgram, programToken, afterProgram, hcut,
    operands_space_append]

/-- What `operands` reads from a text is what the text adds to a line that only names a program. -/
theorem tail_split_p_append (text : String) : (split ("p " ++ text)).tail = operands text := by
  have hprogram : SelfContained "p" := by decide
  have hline : "p " ++ text = "p" ++ (" " ++ text) := by
    rw [← String.append_assoc]
    rfl
  rw [hline, hprogram.split_append, List.tail_cons]

end Interposer.CommandLine
