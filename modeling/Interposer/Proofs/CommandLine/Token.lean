import Interposer.CommandLine.Seam
import Interposer.Proofs.Text.Utf8

/-!
# The token of the program, by characters

`programEnd` counts octets. Here the same scan goes through the characters of a line and cuts it as
it goes. The two agree because space, quote and backslash are single octets and the octets of every
other character leave the region as they found it, a covered character apart. All that the rest of
the theory knows about `cut` is in the lemmas of this module: the parts make up the line, the second
one is empty or begins with a space, and a token that ended is not changed by what is added later.
-/

namespace Interposer.CommandLine

/-! ### ASCII characters and octets -/

theorem octet_eq_iff {c d : Char} (hc : c.toNat < 128) (hd : d.toNat < 128) :
    UInt8.ofNat c.toNat = d.toUInt8 ↔ c = d := by
  have hcode : d.toUInt8 = UInt8.ofNat d.toNat := rfl
  rw [hcode, ← UInt8.toNat_inj, UInt8.toNat_ofNat', UInt8.toNat_ofNat', ← Char.toNat_inj]
  omega

theorem octet_ne {octet : UInt8} (hoctet : 128 ≤ octet.toNat) {d : Char} (hd : d.toNat < 128) :
    octet ≠ d.toUInt8 := by
  have hcode : d.toUInt8 = UInt8.ofNat d.toNat := rfl
  rw [hcode, Ne, ← UInt8.toNat_inj, UInt8.toNat_ofNat']
  omega

/-! ### The scan by characters -/

/-- The region after one more character. -/
def Region.afterChar : Region → Char → Region
  | .outside, c => if c = '"' then .inside else .outside
  | .inside, c => if c = '"' then .outside else if c = '\\' then .covered else .inside
  | .covered, _ => .inside

/-- The part of a text before the first space outside quotes, and the text from that space on. -/
def tokenAndRest : Region → List Char → List Char × List Char
  | _, [] => ([], [])
  | region, c :: rest =>
      if region = .outside ∧ c = ' ' then ([], c :: rest)
      else
        (c :: (tokenAndRest (region.afterChar c) rest).1,
          (tokenAndRest (region.afterChar c) rest).2)

theorem tokenAndRest_cons {region : Region} {c : Char} (hgoes : ¬ (region = .outside ∧ c = ' '))
    (text : List Char) :
    tokenAndRest region (c :: text) =
      (c :: (tokenAndRest (region.afterChar c) text).1,
        (tokenAndRest (region.afterChar c) text).2) :=
  if_neg hgoes

theorem Region.next_ofNat (region : Region) {c : Char} (hc : c.toNat < 128) :
    region.next (UInt8.ofNat c.toNat) = region.afterChar c := by
  have hquote := octet_eq_iff (d := '"') hc (by decide)
  have hbackslash := octet_eq_iff (d := '\\') hc (by decide)
  cases region <;> simp only [next, afterChar, hquote, hbackslash]

theorem ne_of_high {c d : Char} (hc : 128 ≤ c.toNat) (hd : d.toNat < 128) : c ≠ d := by
  intro heq
  rw [← heq] at hd
  omega

theorem Region.foldl_next_high {region : Region} (hregion : region ≠ .covered) {octets : Octets}
    (hoctets : ∀ octet ∈ octets, 128 ≤ octet.toNat) : octets.foldl next region = region := by
  induction octets with
  | nil => rfl
  | cons octet octets ih =>
      have hoctet := hoctets octet List.mem_cons_self
      have hnext : region.next octet = region := by
        have hquote : octet ≠ '"'.toUInt8 := octet_ne hoctet (by decide)
        have hbackslash : octet ≠ '\\'.toUInt8 := octet_ne hoctet (by decide)
        cases region with
        | outside => exact if_neg hquote
        | inside => rw [next, if_neg hquote, if_neg hbackslash]
        | covered => exact absurd rfl hregion
      rw [List.foldl_cons, hnext, ih fun octet hmem => hoctets octet (List.mem_cons_of_mem _ hmem)]

/-- The octets of a character lead to the same region as the character. -/
theorem Region.foldl_next_encodeChar (region : Region) (c : Char) :
    (String.utf8EncodeChar c).foldl next region = region.afterChar c := by
  rcases Utf8.encodeChar_cases c with ⟨hc, hone⟩ | ⟨hc, hhigh⟩
  · rw [hone]
    exact region.next_ofNat hc
  · have hquote : c ≠ '"' := ne_of_high hc (by decide)
    have hbackslash : c ≠ '\\' := ne_of_high hc (by decide)
    cases region with
    | outside => rw [foldl_next_high (by decide) hhigh, afterChar, if_neg hquote]
    | inside => rw [foldl_next_high (by decide) hhigh, afterChar, if_neg hquote, if_neg hbackslash]
    | covered =>
        -- only the first octet is covered, and the others are read inside quotes
        have hsome : String.utf8EncodeChar c ≠ [] := String.utf8EncodeChar_ne_nil
        obtain ⟨octet, octets, hsplit⟩ := List.exists_cons_of_ne_nil hsome
        rw [hsplit] at hhigh ⊢
        have hothers : ∀ octet ∈ octets, 128 ≤ octet.toNat :=
          fun octet hmem => hhigh octet (List.mem_cons_of_mem _ hmem)
        rw [List.foldl_cons, next, foldl_next_high (by decide) hothers, afterChar]

theorem tokenSize_high_append {octets : Octets} (hoctets : ∀ octet ∈ octets, 128 ≤ octet.toNat)
    (region : Region) (rest : Octets) :
    tokenSize region (octets ++ rest) =
      tokenSize (octets.foldl Region.next region) rest + octets.length := by
  induction octets generalizing region with
  | nil => rfl
  | cons octet octets ih =>
      have hspace : octet ≠ ' '.toUInt8 := octet_ne (hoctets octet List.mem_cons_self) (by decide)
      rw [List.cons_append, tokenSize, if_neg (fun hstop => hspace hstop.2),
        ih fun octet hmem => hoctets octet (List.mem_cons_of_mem _ hmem), List.foldl_cons,
        List.length_cons]
      omega

/-- The scan by octets goes over a whole character at once. -/
theorem tokenSize_encodeChar_append (region : Region) (c : Char) (rest : Octets) :
    tokenSize region (String.utf8EncodeChar c ++ rest) =
      if region = .outside ∧ c = ' ' then 0
      else tokenSize (region.afterChar c) rest + c.utf8Size := by
  rw [← String.length_utf8EncodeChar]
  rcases Utf8.encodeChar_cases c with ⟨hc, hone⟩ | ⟨hc, hhigh⟩
  · have hspace := octet_eq_iff (d := ' ') hc (by decide)
    simp only [hone, List.singleton_append, tokenSize, hspace, region.next_ofNat hc,
      List.length_singleton]
  · have hspace : c ≠ ' ' := ne_of_high hc (by decide)
    rw [if_neg fun hstop => hspace hstop.2, tokenSize_high_append hhigh,
      Region.foldl_next_encodeChar]

theorem tokenSize_encode (region : Region) (text : List Char) :
    tokenSize region (Utf8.encode (String.ofList text)) =
      (String.ofList (tokenAndRest region text).1).utf8ByteSize := by
  induction text generalizing region with
  | nil => simp [tokenAndRest, tokenSize]
  | cons c rest ih =>
      rw [Utf8.encode_ofList_cons, tokenSize_encodeChar_append, tokenAndRest]
      split
      · simp
      · rw [ih, ← Utf8.length_encode, ← Utf8.length_encode, Utf8.encode_ofList_cons,
          List.length_append, String.length_utf8EncodeChar, Nat.add_comm]

theorem tokenAndRest_append (region : Region) (text : List Char) :
    (tokenAndRest region text).1 ++ (tokenAndRest region text).2 = text := by
  induction text generalizing region with
  | nil => rfl
  | cons c rest ih =>
      rw [tokenAndRest]
      split
      · rfl
      · rw [List.cons_append, ih]

/-- A token that ended is not changed by what is added to the text. -/
theorem tokenAndRest_append_of_ended {region : Region} {text token rest : List Char} {c : Char}
    (hended : tokenAndRest region text = (token, c :: rest)) (more : List Char) :
    tokenAndRest region (text ++ more) = (token, c :: rest ++ more) := by
  induction text generalizing region token with
  | nil => simp [tokenAndRest] at hended
  | cons d text ih =>
      rw [tokenAndRest] at hended
      rw [List.cons_append, tokenAndRest]
      split
      · rename_i hstop
        rw [if_pos hstop] at hended
        obtain ⟨rfl, htext⟩ := Prod.mk.inj hended
        rw [← List.cons_append, htext]
      · rename_i hstop
        rw [if_neg hstop] at hended
        obtain ⟨rfl, hrest⟩ := Prod.mk.inj hended
        rw [ih (Prod.ext rfl hrest)]

/-- A token that ended with a text does not end earlier without what follows. -/
theorem tokenAndRest_of_append {region : Region} {text more : List Char}
    (hwhole : tokenAndRest region (text ++ more) = (text, more)) :
    tokenAndRest region text = (text, []) := by
  induction text generalizing region with
  | nil => rfl
  | cons c text ih =>
      rw [List.cons_append, tokenAndRest] at hwhole
      rw [tokenAndRest]
      split
      · rename_i hstop
        rw [if_pos hstop] at hwhole
        simp at hwhole
      · rename_i hstop
        rw [if_neg hstop] at hwhole
        obtain ⟨htoken, hrest⟩ := Prod.mk.inj hwhole
        rw [ih (Prod.ext (List.cons.inj htoken).2 hrest)]

theorem eq_space_of_mem_head?_rest {region : Region} {text : List Char} {c : Char}
    (hhead : c ∈ (tokenAndRest region text).2.head?) : c = ' ' := by
  induction text generalizing region with
  | nil => simp [tokenAndRest] at hhead
  | cons d rest ih =>
      rw [tokenAndRest] at hhead
      split at hhead
      · rename_i hstop
        rw [List.head?_cons, Option.mem_some] at hhead
        exact hhead ▸ hstop.2
      · exact ih hhead

/-! ### The cut -/

theorem programEnd_eq (line : String) :
    programEnd line =
      (String.ofList (tokenAndRest .outside line.toList).1).utf8ByteSize := by
  have hsize := tokenSize_encode .outside line.toList
  rwa [String.ofList_toList] at hsize

theorem cut_eq (line : String) :
    cut line = (String.ofList (tokenAndRest .outside line.toList).1,
      String.ofList (tokenAndRest .outside line.toList).2) := by
  have hparts : String.ofList (tokenAndRest .outside line.toList).1 ++
      String.ofList (tokenAndRest .outside line.toList).2 = line := by
    rw [← String.ofList_append, tokenAndRest_append, String.ofList_toList]
  have hcut := cutAt?_append (String.ofList (tokenAndRest .outside line.toList).1)
    (String.ofList (tokenAndRest .outside line.toList).2)
  rw [hparts, ← programEnd_eq] at hcut
  rw [cut, hcut, Option.getD_some]

theorem cut_eq_iff {line token rest : String} :
    cut line = (token, rest) ↔
      tokenAndRest .outside line.toList = (token.toList, rest.toList) := by
  constructor
  · intro hcut
    obtain ⟨htoken, hrest⟩ := Prod.mk.inj ((cut_eq line).symm.trans hcut)
    rw [← htoken, ← hrest, String.toList_ofList, String.toList_ofList]
  · intro hscan
    rw [cut_eq, hscan, String.ofList_toList, String.ofList_toList]

/-- Where the token ended on a line, it ends on every longer line. -/
theorem cut_append_of_ended {line : String} (hended : afterProgram line ≠ "") (more : String) :
    cut (line ++ more) = (programToken line, afterProgram line ++ more) := by
  have hscan : tokenAndRest .outside line.toList =
      ((programToken line).toList, (afterProgram line).toList) := cut_eq_iff.1 rfl
  have hsome : (afterProgram line).toList ≠ [] :=
    fun hnil => hended (String.toList_eq_nil_iff.1 hnil)
  obtain ⟨c, rest, hrest⟩ := List.exists_cons_of_ne_nil hsome
  rw [hrest] at hscan
  rw [cut_eq_iff, String.toList_append, String.toList_append, hrest]
  exact tokenAndRest_append_of_ended hscan more.toList

theorem programEnd_eq_utf8ByteSize (line : String) :
    programEnd line = (programToken line).utf8ByteSize := by
  rw [programEnd_eq, programToken, cut_eq]

theorem programToken_append_afterProgram (line : String) :
    programToken line ++ afterProgram line = line := by
  rw [programToken, afterProgram, cut_eq, ← String.ofList_append, tokenAndRest_append,
    String.ofList_toList]

end Interposer.CommandLine
