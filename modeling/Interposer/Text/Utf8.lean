/-!
# Reading UTF-8

The operating system hands over octets, and the rest of the library works on characters. The reader
below goes through the octets once. Where they are well formed it gives their characters; every
maximal part that begins a character without completing one, or else every single octet that cannot
begin one, it reports as one gap. Strict decoding wants no gap, lossy decoding writes one
replacement character for each.
-/

namespace Interposer

/-- Octets as the operating system hands them over, of any content. -/
abbrev Octets := List UInt8

namespace Utf8

/-- A text in UTF-8. -/
def encode (text : String) : Octets := text.toUTF8.data.toList

@[simp] theorem encode_empty : encode "" = [] := by
  simp [encode]

@[simp] theorem encode_append (left right : String) :
    encode (left ++ right) = encode left ++ encode right := by
  simp [encode]

@[simp] theorem length_encode (text : String) : (encode text).length = text.utf8ByteSize := by
  simp [encode, ← String.size_toByteArray]

/-- A character that has begun: the bits read so far, the range its next octet has to lie in, and
how many octets come after that one. -/
structure Begun where
  /-- The bits of the code point read so far. -/
  bits : Nat
  /-- The least octet that may come next. -/
  low : UInt8
  /-- The greatest octet that may come next. -/
  high : UInt8
  /-- How many octets follow the next one. -/
  more : Nat
  deriving DecidableEq, Repr

/-- What an octet means where a character may begin. -/
inductive Lead where
  /-- It is a character by itself. -/
  | whole (c : Char)
  /-- It begins a longer character. -/
  | begins (character : Begun)
  /-- No character begins with it. -/
  | stray
  deriving DecidableEq, Repr

/-- Two octets are led by C2 to DF, three by E0 to EF and four by F0 to F4. The range of the second
octet is narrower after E0 and F0, where a shorter form exists, after ED, which leads to the
surrogates, and after F4, which leads beyond the last code point. -/
def lead (octet : UInt8) : Lead :=
  if octet < 0x80 then .whole (Char.ofNat octet.toNat)
  else if octet < 0xC2 then .stray
  else if octet < 0xE0 then .begins ⟨octet.toNat % 32, 0x80, 0xBF, 0⟩
  else if octet < 0xF0 then
    .begins ⟨octet.toNat % 16, if octet = 0xE0 then 0xA0 else 0x80,
      if octet = 0xED then 0x9F else 0xBF, 1⟩
  else if octet < 0xF5 then
    .begins ⟨octet.toNat % 8, if octet = 0xF0 then 0x90 else 0x80,
      if octet = 0xF4 then 0x8F else 0xBF, 2⟩
  else .stray

/-- What one octet adds where a character may begin, with `none` for a gap, and the character it
leaves unfinished. -/
def start (octet : UInt8) : List (Option Char) × Option Begun :=
  match lead octet with
  | .whole c => ([some c], none)
  | .begins character => ([], some character)
  | .stray => ([none], none)

/-- What one octet adds, and the character it leaves unfinished. An octet that does not go on with
the unfinished character leaves a gap for it and is itself read from the start. -/
def next : Option Begun → UInt8 → List (Option Char) × Option Begun
  | none, octet => start octet
  | some character, octet =>
      if character.low ≤ octet ∧ octet ≤ character.high then
        let bits := character.bits * 64 + octet.toNat % 64
        match character.more with
        | 0 => ([some (Char.ofNat bits)], none)
        | more + 1 => ([], some ⟨bits, 0x80, 0xBF, more⟩)
      else
        (none :: (start octet).1, (start octet).2)

/-- The characters and gaps of the octets that follow an unfinished character, if there is one. -/
def read : Option Begun → Octets → List (Option Char)
  | none, [] => []
  | some _, [] => [none]
  | unfinished, octet :: rest =>
      (next unfinished octet).1 ++ read (next unfinished octet).2 rest

/-- The text that the octets are well-formed UTF-8 of, if they are. -/
def decode? (octets : Octets) : Option String :=
  ((read none octets).mapM id).map String.ofList

/-- The text of the octets, with one replacement character for each gap. -/
def decodeLossy (octets : Octets) : String :=
  String.ofList ((read none octets).map (·.getD '\uFFFD'))

end Utf8

end Interposer
