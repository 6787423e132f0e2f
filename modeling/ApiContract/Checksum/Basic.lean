import ApiContract.Checksum.Sha256

/-!
# Checksums of artifacts

The checksum of an artifact is the SHA-256 digest of its bytes, kept as sixty-four hexadecimal
digits in small letters. A text counts as its UTF-8 bytes.

A checksum tells artifacts apart as far as the digest does: two texts with one digest have one
checksum. Statements that go from equal checksums to equal texts therefore assume that the texts at
hand do not collide.
-/

namespace ApiContract

/-- A checksum: the digits of a digest. -/
structure Checksum where
  hex : String
  deriving DecidableEq, Repr

namespace Checksum

/-- The eight digits of a word. -/
def wordDigits (word : UInt32) : List Char :=
  let digits := Nat.toDigits 16 word.toNat
  List.replicate (8 - digits.length) '0' ++ digits

/-- The checksum of a content. -/
def ofBytes (content : ByteArray) : Checksum :=
  ⟨String.ofList ((Sha256.digest content.toList).words.flatMap wordDigits)⟩

/-- The checksum of a text. -/
def ofText (text : String) : Checksum := ofBytes text.toUTF8

/-- The first digits, enough to tell artifacts apart at a glance. -/
def short (c : Checksum) : String := String.ofList (c.hex.toList.take 12)

/-- The digits and how they were computed. -/
def display (c : Checksum) : String := "sha256:" ++ c.hex

/-- Whether a text has the checksum. -/
def verify (c : Checksum) (text : String) : Bool := ofText text == c

end Checksum

end ApiContract
