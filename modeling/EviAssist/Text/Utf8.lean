/-!
# UTF-8

Characters as bytes and back. A byte sequence that is no text is either refused or read with a
replacement character for each maximal ill-formed part.

* `Utf8.encode`, `Utf8.size`: the bytes of a text and their number.
* `Utf8.decode?`: the text of a well-formed byte sequence.
* `Utf8.decodeLossy`: the text of any byte sequence.
-/

namespace EviAssist.Utf8

/-! ## Writing -/

/-- The bytes of a text. -/
def encode (cs : List Char) : List UInt8 :=
  cs.flatMap String.utf8EncodeChar

/-- The number of bytes of a text. -/
def size (cs : List Char) : Nat :=
  (encode cs).length

/-! ## Reading -/

/-- What the first byte of a longer character announces: its payload, the range of the second
byte, and how many bytes follow the second. -/
structure Lead where
  payload : Nat
  low : Nat
  high : Nat
  more : Nat

/-- The first bytes of characters of two, three and four bytes. The range of the second byte
keeps out overlong forms, surrogates and numbers above the last character. -/
def Lead.ofByte? (b : Nat) : Option Lead :=
  if 0xC2 ≤ b ∧ b ≤ 0xDF then some ⟨b - 0xC0, 0x80, 0xBF, 0⟩
  else if b = 0xE0 then some ⟨0, 0xA0, 0xBF, 1⟩
  else if b = 0xED then some ⟨0xD, 0x80, 0x9F, 1⟩
  else if 0xE1 ≤ b ∧ b ≤ 0xEF then some ⟨b - 0xE0, 0x80, 0xBF, 1⟩
  else if b = 0xF0 then some ⟨0, 0x90, 0xBF, 2⟩
  else if 0xF1 ≤ b ∧ b ≤ 0xF3 then some ⟨b - 0xF0, 0x80, 0xBF, 2⟩
  else if b = 0xF4 then some ⟨4, 0x80, 0x8F, 2⟩
  else none

/-- Reads the bytes that must still follow, each carrying six bits. An ill-formed part ends
before the first byte that does not continue it. -/
def readTail : Nat → Nat → List UInt8 → Option Char × List UInt8
  | 0, acc, rest => (some (Char.ofNat acc), rest)
  | n + 1, acc, b :: rest =>
    if 0x80 ≤ b.toNat ∧ b.toNat ≤ 0xBF then readTail n (acc * 64 + (b.toNat - 0x80)) rest
    else (none, b :: rest)
  | _ + 1, _, [] => (none, [])

/-- Reads one character, or one maximal ill-formed part as `none`, after its first byte. -/
def readHead (b : UInt8) (rest : List UInt8) : Option Char × List UInt8 :=
  if b.toNat < 0x80 then (some (Char.ofNat b.toNat), rest)
  else
    match Lead.ofByte? b.toNat, rest with
    | some lead, second :: rest' =>
      if lead.low ≤ second.toNat ∧ second.toNat ≤ lead.high then
        readTail lead.more (lead.payload * 64 + (second.toNat - 0x80)) rest'
      else (none, rest)
    | _, _ => (none, rest)

theorem readTail_length_le (n acc : Nat) (bytes : List UInt8) :
    (readTail n acc bytes).2.length ≤ bytes.length := by
  fun_induction readTail n acc bytes <;> simp_all
  omega

theorem readHead_length_le (b : UInt8) (rest : List UInt8) :
    (readHead b rest).2.length ≤ rest.length := by
  unfold readHead
  split
  · simp
  · split
    · split
      · exact Nat.le_trans (readTail_length_le _ _ _) (by simp)
      · simp
    · simp

/-- The characters of a byte sequence, with `none` for each maximal ill-formed part. -/
def pieces : List UInt8 → List (Option Char)
  | [] => []
  | b :: rest => (readHead b rest).1 :: pieces (readHead b rest).2
termination_by bytes => bytes.length
decreasing_by exact Nat.lt_succ_of_le (readHead_length_le b rest)

/-- The text of a well-formed byte sequence. -/
def decode? (bytes : List UInt8) : Option (List Char) :=
  (pieces bytes).mapM id

/-- The text of any byte sequence, with U+FFFD for each maximal ill-formed part. -/
def decodeLossy (bytes : List UInt8) : List Char :=
  (pieces bytes).map (·.getD '\uFFFD')

end EviAssist.Utf8
