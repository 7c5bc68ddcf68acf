import Interposer.Text.Utf8

/-!
# The octets of a text

A text is encoded character by character, and the reader gives each character back from its octets:
the first one says how many follow, and the range that it sets for the second one leaves out exactly
what no character is encoded as. So a text that was encoded is read without a gap.
-/

namespace Interposer.Utf8

theorem encode_ofList (text : List Char) :
    encode (String.ofList text) = text.flatMap String.utf8EncodeChar := by
  simp [encode, List.utf8Encode]

theorem encode_ofList_cons (c : Char) (rest : List Char) :
    encode (String.ofList (c :: rest)) =
      String.utf8EncodeChar c ++ encode (String.ofList rest) := by
  rw [encode_ofList, encode_ofList, List.flatMap_cons]

/-- A character is one octet below 128, or else it consists of octets from 128 on. -/
theorem encodeChar_cases (c : Char) :
    c.toNat < 128 ∧ String.utf8EncodeChar c = [UInt8.ofNat c.toNat] ∨
      128 ≤ c.toNat ∧ ∀ octet ∈ String.utf8EncodeChar c, 128 ≤ octet.toNat := by
  have hcode : c.val.toNat = c.toNat := rfl
  rw [String.utf8EncodeChar, hcode]
  by_cases hlow : c.toNat < 128
  · exact .inl ⟨hlow, if_pos (by omega)⟩
  · refine .inr ⟨by omega, ?_⟩
    rw [if_neg (by omega)]
    split
    · simp
      omega
    · split
      · simp
        omega
      · simp
        omega

theorem encodeChar_of_lt_128 {c : Char} (hc : c.toNat < 128) :
    String.utf8EncodeChar c = [c.toUInt8] := by
  rcases encodeChar_cases c with ⟨-, hone⟩ | ⟨hhigh, -⟩
  · exact hone
  · omega

/-- A character below 128 stands in a text only where its octet stands in the octets. -/
theorem toUInt8_mem_encode {text : String} {c : Char} (hc : c.toNat < 128)
    (hmem : c ∈ text.toList) : c.toUInt8 ∈ encode text := by
  rw [← @String.ofList_toList text, encode_ofList, List.mem_flatMap]
  exact ⟨c, hmem, by rw [encodeChar_of_lt_128 hc]; exact List.mem_singleton_self _⟩

theorem toUInt8_mem_getLast?_encode {text : String} {c : Char} (hc : c.toNat < 128)
    (hlast : c ∈ text.toList.getLast?) : c.toUInt8 ∈ (encode text).getLast? := by
  obtain ⟨start, hparts⟩ := List.getLast?_eq_some_iff.1 hlast
  rw [← @String.ofList_toList text, hparts, encode_ofList, List.flatMap_append,
    List.flatMap_singleton, encodeChar_of_lt_128 hc, List.getLast?_concat, Option.mem_some]

/-! ### The first octet of a character -/

theorem lead_ofNat_of_lt_128 {n : Nat} (hn : n < 128) :
    lead (UInt8.ofNat n) = .whole (Char.ofNat n) := by
  have hoctet : (UInt8.ofNat n).toNat = n := by rw [UInt8.toNat_ofNat']; omega
  rw [lead, if_pos (by rw [UInt8.lt_iff_toNat_lt, hoctet]; exact hn), hoctet]

theorem lead_two {n : Nat} (hlow : 0xC2 ≤ n) (hhigh : n < 0xE0) :
    lead (UInt8.ofNat n) = .begins ⟨n % 32, 0x80, 0xBF, 0⟩ := by
  have hoctet : (UInt8.ofNat n).toNat = n := by rw [UInt8.toNat_ofNat']; omega
  simp only [lead, UInt8.lt_iff_toNat_lt, hoctet]
  rw [if_neg (by simp; omega), if_neg (by simp; omega), if_pos (by simp; omega)]

theorem lead_three {n : Nat} (hlow : 0xE0 ≤ n) (hhigh : n < 0xF0) :
    lead (UInt8.ofNat n) =
      .begins ⟨n % 16, if n = 0xE0 then 0xA0 else 0x80, if n = 0xED then 0x9F else 0xBF, 1⟩ := by
  have hoctet : (UInt8.ofNat n).toNat = n := by rw [UInt8.toNat_ofNat']; omega
  simp only [lead, UInt8.lt_iff_toNat_lt, ← UInt8.toNat_inj, hoctet]
  rw [if_neg (by simp; omega), if_neg (by simp; omega), if_neg (by simp; omega),
    if_pos (by simp; omega)]
  rfl

theorem lead_four {n : Nat} (hlow : 0xF0 ≤ n) (hhigh : n < 0xF5) :
    lead (UInt8.ofNat n) =
      .begins ⟨n % 8, if n = 0xF0 then 0x90 else 0x80, if n = 0xF4 then 0x8F else 0xBF, 2⟩ := by
  have hoctet : (UInt8.ofNat n).toNat = n := by rw [UInt8.toNat_ofNat']; omega
  simp only [lead, UInt8.lt_iff_toNat_lt, ← UInt8.toNat_inj, hoctet]
  rw [if_neg (by simp; omega), if_neg (by simp; omega), if_neg (by simp; omega),
    if_neg (by simp; omega), if_pos (by simp; omega)]
  rfl

/-! ### The octets after it -/

theorem read_cons_whole {octet : UInt8} {c : Char} (hlead : lead octet = .whole c) (rest : Octets) :
    read none (octet :: rest) = some c :: read none rest := by
  rw [read, next, start, hlead]
  rfl

theorem read_cons_begins {octet : UInt8} {character : Begun}
    (hlead : lead octet = .begins character) (rest : Octets) :
    read none (octet :: rest) = read (some character) rest := by
  rw [read, next, start, hlead]
  rfl

theorem read_begun_cons_last {bits : Nat} {low high octet : UInt8}
    (hrange : low ≤ octet ∧ octet ≤ high) (rest : Octets) :
    read (some ⟨bits, low, high, 0⟩) (octet :: rest) =
      some (Char.ofNat (bits * 64 + octet.toNat % 64)) :: read none rest := by
  rw [read, next, if_pos hrange]
  rfl

theorem read_begun_cons_more {bits more : Nat} {low high octet : UInt8}
    (hrange : low ≤ octet ∧ octet ≤ high) (rest : Octets) :
    read (some ⟨bits, low, high, more + 1⟩) (octet :: rest) =
      read (some ⟨bits * 64 + octet.toNat % 64, 0x80, 0xBF, more⟩) rest := by
  rw [read, next, if_pos hrange]
  rfl

/-! ### A whole character -/

theorem toNat_continuation (n : Nat) : (UInt8.ofNat (n % 64 + 128)).toNat = n % 64 + 128 := by
  rw [UInt8.toNat_ofNat']
  omega

theorem continuation_in_range (n : Nat) :
    (0x80 : UInt8) ≤ UInt8.ofNat (n % 64 + 128) ∧ UInt8.ofNat (n % 64 + 128) ≤ (0xBF : UInt8) := by
  rw [UInt8.le_iff_toNat_le, UInt8.le_iff_toNat_le, toNat_continuation]
  simp
  omega

theorem read_two {n : Nat} (hlow : 0x80 ≤ n) (hhigh : n < 0x800) (rest : Octets) :
    read none (UInt8.ofNat (n / 64 % 32 + 192) :: UInt8.ofNat (n % 64 + 128) :: rest) =
      some (Char.ofNat n) :: read none rest := by
  have hlead := @lead_two (n / 64 % 32 + 192) (by omega) (by omega)
  have hbits : (n / 64 % 32 + 192) % 32 * 64 + (n % 64 + 128) % 64 = n := by omega
  rw [read_cons_begins hlead, read_begun_cons_last (continuation_in_range n), toNat_continuation,
    hbits]

theorem read_three {n : Nat} (hlow : 0x800 ≤ n) (hhigh : n < 0x10000)
    (hsurrogate : n < 0xD800 ∨ 0xDFFF < n) (rest : Octets) :
    read none (UInt8.ofNat (n / 4096 % 16 + 224) :: UInt8.ofNat (n / 64 % 64 + 128) ::
        UInt8.ofNat (n % 64 + 128) :: rest) =
      some (Char.ofNat n) :: read none rest := by
  have hlead := @lead_three (n / 4096 % 16 + 224) (by omega) (by omega)
  have hsecond : (if n / 4096 % 16 + 224 = 0xE0 then 0xA0 else (0x80 : UInt8)) ≤
        UInt8.ofNat (n / 64 % 64 + 128) ∧
      UInt8.ofNat (n / 64 % 64 + 128) ≤
        if n / 4096 % 16 + 224 = 0xED then 0x9F else (0xBF : UInt8) := by
    rw [UInt8.le_iff_toNat_le, UInt8.le_iff_toNat_le, toNat_continuation]
    constructor
    · split
      · simp
        omega
      · simp
    · split
      · simp
        omega
      · simp
        omega
  have hbits : ((n / 4096 % 16 + 224) % 16 * 64 + (n / 64 % 64 + 128) % 64) * 64 +
      (n % 64 + 128) % 64 = n := by omega
  rw [read_cons_begins hlead, read_begun_cons_more hsecond,
    read_begun_cons_last (continuation_in_range n), toNat_continuation, toNat_continuation, hbits]

theorem read_four {n : Nat} (hlow : 0x10000 ≤ n) (hhigh : n < 0x110000) (rest : Octets) :
    read none (UInt8.ofNat (n / 262144 % 8 + 240) :: UInt8.ofNat (n / 4096 % 64 + 128) ::
        UInt8.ofNat (n / 64 % 64 + 128) :: UInt8.ofNat (n % 64 + 128) :: rest) =
      some (Char.ofNat n) :: read none rest := by
  have hlead := @lead_four (n / 262144 % 8 + 240) (by omega) (by omega)
  have hsecond : (if n / 262144 % 8 + 240 = 0xF0 then 0x90 else (0x80 : UInt8)) ≤
        UInt8.ofNat (n / 4096 % 64 + 128) ∧
      UInt8.ofNat (n / 4096 % 64 + 128) ≤
        if n / 262144 % 8 + 240 = 0xF4 then 0x8F else (0xBF : UInt8) := by
    rw [UInt8.le_iff_toNat_le, UInt8.le_iff_toNat_le, toNat_continuation]
    constructor
    · split
      · simp
        omega
      · simp
    · split
      · simp
        omega
      · simp
        omega
  have hbits : (((n / 262144 % 8 + 240) % 8 * 64 + (n / 4096 % 64 + 128) % 64) * 64 +
      (n / 64 % 64 + 128) % 64) * 64 + (n % 64 + 128) % 64 = n := by omega
  rw [read_cons_begins hlead, read_begun_cons_more hsecond,
    read_begun_cons_more (continuation_in_range (n / 64)),
    read_begun_cons_last (continuation_in_range n), toNat_continuation, toNat_continuation,
    toNat_continuation, hbits]

/-- The octets of a character are read as that character, whatever follows them. -/
theorem read_encodeChar_append (c : Char) (rest : Octets) :
    read none (String.utf8EncodeChar c ++ rest) = some c :: read none rest := by
  have hcode : c.val.toNat = c.toNat := rfl
  have hvalid : c.toNat < 0xD800 ∨ 0xDFFF < c.toNat ∧ c.toNat < 0x110000 := c.valid
  have hchar := Char.ofNat_toNat c
  rw [String.utf8EncodeChar, hcode]
  by_cases hone : c.toNat ≤ 0x7F
  · rw [if_pos hone, List.singleton_append,
      read_cons_whole (lead_ofNat_of_lt_128 (Nat.lt_succ_of_le hone)), hchar]
  rw [if_neg hone]
  by_cases htwo : c.toNat ≤ 0x7FF
  · rw [if_pos htwo]
    exact (read_two (by omega) (by omega) rest).trans (by rw [hchar])
  rw [if_neg htwo]
  by_cases hthree : c.toNat ≤ 0xFFFF
  · rw [if_pos hthree]
    exact (read_three (by omega) (by omega) (by omega) rest).trans (by rw [hchar])
  · rw [if_neg hthree]
    exact (read_four (by omega) (by omega) rest).trans (by rw [hchar])

theorem read_encode (text : String) : read none (encode text) = text.toList.map some := by
  obtain ⟨characters, rfl⟩ : ∃ characters, text = String.ofList characters :=
    ⟨text.toList, String.ofList_toList.symm⟩
  rw [String.toList_ofList]
  induction characters with
  | nil => rfl
  | cons c rest ih => rw [encode_ofList_cons, read_encodeChar_append, ih, List.map_cons]

/-- Lossy decoding loses nothing of a text that was encoded. -/
@[simp] theorem decodeLossy_encode (text : String) : decodeLossy (encode text) = text := by
  rw [decodeLossy, read_encode, List.map_map]
  exact (congrArg String.ofList (List.map_id _)).trans String.ofList_toList

end Interposer.Utf8
