import Interposer.Proofs.Text.Utf8
import Interposer.SystemError.Basic
import Mathlib.Data.List.DropRight

/-!
# Descriptions can be used as they are

A description stands at the end of a diagnostic, so it has to say something and must not end in
whitespace. Both are one property, `Usable`: what is left of a trimmed message has it unless nothing
is left, the fallback always has it, and a text that has it passes through a second description
unchanged. The messages of the system have it already, so they are descriptions themselves.
-/

namespace Interposer.SystemError

/-- The characters that a message loses at its end, and nowhere else. -/
def trailing : List Char := [' ', '\t', '\n', '\r']

theorem isTrailing_iff (c : Char) : isTrailing c ↔ c ∈ trailing := by
  simp [isTrailing, trailing, or_assoc]

/-- A text that says something and does not end in a trailing character. -/
structure Usable (text : String) : Prop where
  ne_empty : text ≠ ""
  last : ∀ c ∈ text.toList.getLast?, c ∉ trailing

/-! ### Trimming -/

theorem toList_trimEnd (message : String) :
    (trimEnd message).toList = message.toList.rdropWhile isTrailing := String.toList_ofList

theorem last_trimEnd (message : String) :
    ∀ c ∈ (trimEnd message).toList.getLast?, c ∉ trailing := by
  intro c hlast
  rw [toList_trimEnd] at hlast
  obtain ⟨hsome, rfl⟩ := List.mem_getLast?_eq_getLast hlast
  rw [← isTrailing_iff]
  exact List.rdropWhile_last_not isTrailing message.toList hsome

theorem Usable.trimEnd_eq {text : String} (husable : Usable text) : trimEnd text = text := by
  rw [← String.toList_inj, toList_trimEnd, List.rdropWhile_eq_self_iff]
  intro hsome
  rw [isTrailing_iff]
  exact husable.last _ (List.getLast_mem_getLast? hsome)

/-- The longest end of a text that consists of trailing characters. -/
structure LongestEnd (text cut : List Char) : Prop where
  suffix : cut <:+ text
  all : ∀ c ∈ cut, c ∈ trailing
  longest : ∀ other, other <:+ text → (∀ c ∈ other, c ∈ trailing) → other <:+ cut

theorem LongestEnd.of_append {kept cut : List Char} (hkept : ∀ c ∈ kept.getLast?, c ∉ trailing)
    (hcut : ∀ c ∈ cut, c ∈ trailing) : LongestEnd (kept ++ cut) cut where
  suffix := List.suffix_append kept cut
  all := hcut
  longest := by
    intro other hother hall
    rcases List.suffix_or_suffix_of_suffix hother (List.suffix_append kept cut) with hle | hge
    · exact hle
    · -- what a longer end had before the cut would be the end of what is kept
      obtain ⟨more, rfl⟩ := hge
      obtain ⟨start, hstart⟩ := hother
      rw [← List.append_assoc, List.append_cancel_right_eq] at hstart
      cases more using List.reverseRecOn with
      | nil => exact List.suffix_rfl
      | append_singleton more c =>
          have hlast : c ∈ kept.getLast? := by
            rw [← hstart, ← List.append_assoc, List.getLast?_concat, Option.mem_some]
          exact absurd (hall c (by simp)) (hkept c hlast)

/-- Trimming cuts off exactly the longest such end. -/
theorem exists_trimEnd_append (message : String) :
    ∃ cut, message = trimEnd message ++ cut ∧ LongestEnd message.toList cut.toList := by
  refine ⟨String.ofList (message.toList.rtakeWhile isTrailing), ?_, ?_⟩
  · rw [← String.toList_inj, String.toList_append, toList_trimEnd, String.toList_ofList,
      List.rdropWhile_append_rtakeWhile]
  · have hcut : ∀ c ∈ message.toList.rtakeWhile isTrailing, c ∈ trailing :=
      fun c hc => (isTrailing_iff c).1 (List.mem_rtakeWhile_imp hc)
    have hends := LongestEnd.of_append (last_trimEnd message) hcut
    rwa [toList_trimEnd, List.rdropWhile_append_rtakeWhile, ← @String.toList_ofList
      (message.toList.rtakeWhile isTrailing)] at hends

/-! ### Descriptions -/

theorem toList_numbered (number : Int) :
    (numbered number).toList = "Error code (".toList ++ (toString number).toList ++ [')'] := by
  have htext : numbered number = "Error code (" ++ toString number ++ ")" := rfl
  rw [htext, String.toList_append, String.toList_append]
  rfl

theorem usable_numbered (number : Int) : Usable (numbered number) := by
  have hlist := toList_numbered number
  refine ⟨?_, ?_⟩
  · intro hempty
    rw [hempty] at hlist
    simp at hlist
  · intro c hlast
    rw [hlist, List.getLast?_concat, Option.mem_some] at hlast
    rw [← hlast]
    decide

theorem describeAs_some (number : Int) (message : String) :
    describeAs number (some message) =
      if trimEnd message = "" then numbered number else trimEnd message := by
  rw [describeAs, Option.map_some, Option.filter_some]
  by_cases hempty : trimEnd message = ""
  · simp [hempty]
  · simp [hempty]

theorem usable_describeAs (number : Int) (message : Option String) :
    Usable (describeAs number message) := by
  cases message with
  | none => exact usable_numbered number
  | some message =>
      rw [describeAs_some]
      split
      · exact usable_numbered number
      · rename_i hsome
        exact ⟨hsome, last_trimEnd message⟩

theorem Usable.describeAs_eq {text : String} (husable : Usable text) (number : Int) :
    describeAs number (some text) = text := by
  rw [describeAs_some, husable.trimEnd_eq, if_neg husable.ne_empty]

theorem describeFetched_encode (number : Int) (message : Option String) :
    describeFetched number (message.map Utf8.encode) = describeAs number message := by
  cases message with
  | none => rfl
  | some message => rw [describeFetched, Option.map_some, Option.map_some, Utf8.decodeLossy_encode]

/-! ### The messages of the system -/

theorem some_mem_messages {number : Int} {message : String}
    (hlookup : systemMessage? number = some message) : some message ∈ messages := by
  cases number with
  | ofNat code =>
      rw [systemMessage?, Option.join_eq_some_iff] at hlookup
      exact List.mem_of_getElem? hlookup
  | negSucc code => simp [systemMessage?] at hlookup

theorem usable_of_mem_messages {message : String} (hmem : some message ∈ messages) :
    Usable message := by
  have hsome : ∀ entry ∈ messages, ∀ message ∈ entry, message ≠ "" := by decide +kernel
  have hlast : ∀ entry ∈ messages, ∀ message ∈ entry,
      (Utf8.encode message).getLast?.all (· ∉ trailing.map Char.toUInt8) := by decide +kernel
  refine ⟨hsome _ hmem _ rfl, fun c hc htrailing => ?_⟩
  have hlow : c.toNat < 128 := by
    have hall : ∀ d ∈ trailing, d.toNat < 128 := by simp [trailing]
    exact hall c htrailing
  have hoctet := Utf8.toUInt8_mem_getLast?_encode hlow hc
  have hnot := hlast _ hmem _ rfl
  rw [Option.mem_def] at hoctet
  rw [hoctet, Option.all_some, decide_eq_true_eq] at hnot
  exact hnot (List.mem_map_of_mem htrailing)

/-- A message of the system is a description as it stands. -/
theorem describeCode_eq (number : Int) :
    describeCode number = (systemMessage? number).getD (numbered number) := by
  cases hlookup : systemMessage? number with
  | none => rw [describeCode, hlookup]; rfl
  | some message =>
      rw [describeCode, hlookup, Option.getD_some]
      exact (usable_of_mem_messages (some_mem_messages hlookup)).describeAs_eq number

theorem isDigit_of_mem_repr {number : Nat} {c : Char} (hc : c ∈ number.repr.toList) :
    c.isDigit := by
  rw [Nat.toList_repr] at hc
  exact Nat.isDigit_of_mem_toDigits (by decide) (by decide) hc

theorem quote_not_mem_numbered (number : Int) : '"' ∉ (numbered number).toList := by
  have hdigits : ∀ n : Nat, '"' ∉ n.repr.toList := by
    intro n hquote
    exact absurd (isDigit_of_mem_repr hquote) (by decide)
  have hnumber : '"' ∉ (toString number).toList := by
    cases number with
    | ofNat n => exact hdigits n
    | negSucc n =>
        have htext : toString (Int.negSucc n) = "-" ++ n.succ.repr := rfl
        rw [htext, String.toList_append, List.mem_append, not_or]
        exact ⟨by decide, hdigits n.succ⟩
  rw [toList_numbered, List.mem_append, List.mem_append, not_or, not_or]
  exact ⟨⟨by decide, hnumber⟩, by decide⟩

/-- No description of a code holds a double quote. -/
theorem quote_not_mem_describeCode (number : Int) : '"' ∉ (describeCode number).toList := by
  rw [describeCode_eq]
  cases hlookup : systemMessage? number with
  | none => exact quote_not_mem_numbered number
  | some message =>
      have hcheck : ∀ entry ∈ messages, ∀ message ∈ entry,
          (Utf8.encode message).all (· ≠ '"'.toUInt8) := by decide +kernel
      intro hquote
      have hall := hcheck _ (some_mem_messages hlookup) message rfl
      rw [List.all_eq_true] at hall
      simpa using hall _ (Utf8.toUInt8_mem_encode (by decide) hquote)

/-! ### All descriptions -/

/-- Whatever the look-up of a code yields, the description says something, ends in no trailing
character and can be described again without a change. It is the message without the longest end of
trailing characters, or where nothing is left the code in brackets. An error with a code is
described like this by what the system has for the code. -/
theorem describeFetched_usable (number : Int) (fetched : Option Octets) :
    let description := describeFetched number fetched
    Usable description ∧
      (match fetched with
      | none => description = "Error code (" ++ toString number ++ ")"
      | some octets => ∃ kept cut, Utf8.decodeLossy octets = kept ++ cut ∧
          LongestEnd (Utf8.decodeLossy octets).toList cut.toList ∧
          description = if kept = "" then "Error code (" ++ toString number ++ ")" else kept) ∧
      describeAs number (some description) = description ∧
      describeFetched number (some (Utf8.encode description)) = description ∧
      (code number).describe = describeCode number ∧
      describeCode number = describeFetched number ((systemMessage? number).map Utf8.encode) := by
  intro description
  have husable : Usable description := usable_describeAs number _
  refine ⟨husable, ?_, husable.describeAs_eq number, ?_, rfl, ?_⟩
  · cases fetched with
    | none => rfl
    | some octets =>
        obtain ⟨cut, hparts, hends⟩ := exists_trimEnd_append (Utf8.decodeLossy octets)
        exact ⟨_, cut, hparts, hends, describeAs_some number (Utf8.decodeLossy octets)⟩
  · exact (describeFetched_encode number (some description)).trans (husable.describeAs_eq number)
  · exact (describeFetched_encode number (systemMessage? number)).symm

/-- Whitespace at the beginning stays, and so does a no-break space at the end. -/
example : describeAs 5 (some "  Access is denied.\u00a0\t\r\n") = "  Access is denied.\u00a0" := by
  decide +kernel

end Interposer.SystemError
