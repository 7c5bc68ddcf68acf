import Interposer.Proofs.Substitution.Arguments
import Interposer.Substitution.Chain
import Interposer.Substitution.Merge

/-!
# Substitutions made one after the other

The program that a substitution writes is cut off again by the next one. If it is self-contained,
the cut falls right after it, whatever the line was, and what is left is text that one substitution
could have written at once. For a chain this is an induction on the list, where the first
substitution is merged with what the others come to.
-/

namespace Interposer.Substitution

open CommandLine

/-! ### Two substitutions -/

theorem ending_congr {left right : Substitution} (hafter : left.after = right.after) :
    left.ending = right.ending := by
  rw [ending, ending, placement, placement, hafter]

theorem ending_andThen (first second : Substitution) :
    (first.andThen second).ending = first.ending ++ second.ending := by
  by_cases hfirst : first.after.isEmpty
  · have hafter : (first.andThen second).after = second.after := if_pos hfirst
    rw [ending_of_isEmpty hfirst, String.empty_append, ending_congr hafter]
  · by_cases hsecond : second.after.isEmpty
    · have hafter : (first.andThen second).after = first.after := by
        rw [andThen, joinAfter, if_neg hfirst, if_pos hsecond]
      rw [ending_of_isEmpty hsecond, String.append_empty, ending_congr hafter]
    · have hafter : (first.andThen second).after = first.after ++ " " ++ second.after := by
        rw [andThen, joinAfter, if_neg hfirst, if_neg hsecond]
      have hsome : ¬ (first.andThen second).after.isEmpty := by simp [hafter]
      rw [ending_of_not_isEmpty hfirst, ending_of_not_isEmpty hsecond, ending_of_not_isEmpty hsome,
        hafter]
      simp only [String.append_assoc]

theorem apply_apply {first : Substitution} (hprogram : SelfContained first.program)
    (second : Substitution) (line : String) :
    second.apply (first.apply line) = (first.andThen second).apply line := by
  rw [apply_eq second, afterProgram_apply hprogram, apply_eq (first.andThen second), ending_andThen,
    andThen]
  simp only [String.append_assoc]

/-! ### A list of them -/

theorem joinAfter_intercalate_of_ne_empty {first : String} (hfirst : first ≠ "")
    {parts : List String} (hparts : "" ∉ parts) :
    joinAfter first (" ".intercalate parts) = " ".intercalate (first :: parts) := by
  rw [joinAfter, if_neg (by rwa [String.isEmpty_iff])]
  cases parts with
  | nil => simp
  | cons second rest =>
      have hsecond : "" ≠ second := fun h => hparts (h ▸ List.mem_cons_self)
      have hsome : " ".intercalate (second :: rest) ≠ "" := by
        cases rest <;> simp [hsecond.symm]
      rw [if_neg (by rwa [String.isEmpty_iff]), String.intercalate_cons_cons]

theorem joinAfter_intercalate (first : String) (others : List String) :
    joinAfter first (" ".intercalate (others.filter (· ≠ ""))) =
      " ".intercalate ((first :: others).filter (· ≠ "")) := by
  by_cases hfirst : first = ""
  · simp [joinAfter, hfirst]
  · have hkept : (first :: others).filter (· ≠ "") = first :: others.filter (· ≠ "") :=
      List.filter_cons_of_pos (by simpa using hfirst)
    rw [hkept]
    exact joinAfter_intercalate_of_ne_empty hfirst (by simp)

theorem merged_nil (first : Substitution) : merged first [] = first := by
  have hbefore : " ".intercalate [first.before] = first.before := String.intercalate_singleton
  have hafter : " ".intercalate ([first.after].filter (· ≠ "")) = first.after := by
    by_cases hempty : first.after = ""
    · simp [hempty]
    · simp [hempty]
  exact (Substitution.mk.injEq ..).mpr ⟨rfl, hbefore, hafter⟩

/-- The first of a list is merged with what the others are merged to. -/
theorem merged_cons (first second : Substitution) (rest : List Substitution) :
    merged first (second :: rest) = first.andThen (merged second rest) := by
  have hbefore : " ".intercalate ((first :: second :: rest).reverse.map (·.before)) =
      " ".intercalate ((second :: rest).reverse.map (·.before)) ++ " " ++ first.before := by
    rw [List.reverse_cons, List.map_append, List.map_singleton,
      String.intercalate_append_of_ne_nil (by simp) (by simp), String.intercalate_singleton]
  have hafter := joinAfter_intercalate first.after ((second :: rest).map (·.after))
  rw [merged, andThen, Substitution.mk.injEq]
  exact ⟨rfl, hbefore, hafter.symm⟩

theorem getLast?_chain_raw {first : Substitution} {rest : List Substitution}
    (hprograms : ∀ s ∈ (first :: rest).dropLast, SelfContained s.program) (line : String) :
    (chain .raw line (first :: rest)).getLast? = some ((merged first rest).apply line) := by
  induction rest generalizing first line with
  | nil =>
      rw [merged_nil]
      rfl
  | cons second rest ih =>
      rw [List.dropLast_cons_cons] at hprograms
      have hfirst := hprograms first List.mem_cons_self
      have hrest := ih (fun s hs => hprograms s (List.mem_cons_of_mem first hs)) (first.apply line)
      calc (chain .raw line (first :: second :: rest)).getLast?
          = (chain .raw (first.apply line) (second :: rest)).getLast? := rfl
        _ = some ((merged second rest).apply (first.apply line)) := hrest
        _ = some ((merged first (second :: rest)).apply line) := by
            rw [apply_apply hfirst, merged_cons]

/-- Whatever the line and the flags are, a substitution made on the line of another makes the line
that the two of them merged make, and a chain ends with the line of all of them merged. -/
theorem apply_merges :
    (∀ first second : Substitution, SelfContained first.program →
        ∀ line, second.apply (first.apply line) = (first.andThen second).apply line) ∧
      ∀ (first : Substitution) (rest : List Substitution),
        (∀ s ∈ (first :: rest).dropLast, SelfContained s.program) →
          ∀ line,
            (chain .raw line (first :: rest)).getLast? = some ((merged first rest).apply line) := by
  constructor
  · intro first second hprogram line
    exact apply_apply hprogram second line
  · intro first rest hprograms line
    exact getLast?_chain_raw hprograms line

/-- The last program of the three and the line leave quotes open. -/
theorem apply_merges_left_open :
    SelfContained "\"a b\"" ∧
      (∀ s ∈ [Substitution.mk "\"a b\"" "-x" "", ⟨"c", "", "-q"⟩, ⟨"\"d", "-z", "e"⟩].dropLast,
        SelfContained s.program) ∧
      Substitution.apply ⟨"c", "", "-q"⟩ (Substitution.apply ⟨"\"a b\"", "-x", ""⟩ "cl \"f  g") =
        "c  -x \"f  g -q" ∧
      (chain .raw "cl \"f  g"
          [⟨"\"a b\"", "-x", ""⟩, ⟨"c", "", "-q"⟩, ⟨"\"d", "-z", "e"⟩]).getLast? =
        some "\"d -z  -x \"f  g -q e" := by
  have hprogram : SelfContained "\"a b\"" := by decide
  have hprograms : ∀ s ∈
      [Substitution.mk "\"a b\"" "-x" "", ⟨"c", "", "-q"⟩, ⟨"\"d", "-z", "e"⟩].dropLast,
      SelfContained s.program := by decide
  obtain ⟨hpair, hchain⟩ := apply_merges
  refine ⟨hprogram, hprograms, ?_, ?_⟩
  · exact (hpair ⟨"\"a b\"", "-x", ""⟩ ⟨"c", "", "-q"⟩ hprogram "cl \"f  g").trans (by decide)
  · exact (hchain _ _ hprograms "cl \"f  g").trans (by decide)

end Interposer.Substitution
