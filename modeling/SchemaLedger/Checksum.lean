import SchemaLedger.Digest.Sha256

/-!
# Checksums

A checksum is a signed 32-bit fingerprint: the first four bytes of the SHA-256 digest of whatever
was fed. `Fingerprint` holds the bytes fed so far, in order, so everything said about a checksum is
said about the bytes. A script is fed line by line: line terminators and a leading byte-order mark
are no part of its fingerprint, hence a script checked out with other line ends keeps its checksum.
-/

namespace SchemaLedger

/-- The fingerprint of a unit's content. -/
abbrev Checksum := Int32

/-- What has been fed so far, in order. -/
structure Fingerprint where
  bytes : List UInt8 := []
  deriving DecidableEq

namespace Fingerprint

def empty : Fingerprint := {}

def utf8 (chars : List Char) : List UInt8 := chars.flatMap String.utf8EncodeChar

def feed (fingerprint : Fingerprint) (bytes : List UInt8) : Fingerprint :=
  ⟨fingerprint.bytes ++ bytes⟩

@[simp]
theorem bytes_feed (fingerprint : Fingerprint) (bytes : List UInt8) :
    (fingerprint.feed bytes).bytes = fingerprint.bytes ++ bytes := rfl

def feedText (fingerprint : Fingerprint) (text : String) : Fingerprint :=
  fingerprint.feed (utf8 text.toList)

/-- Feeds a number as its eight bytes in two's complement, most significant first. -/
def feedDelta (fingerprint : Fingerprint) (delta : Int64) : Fingerprint :=
  fingerprint.feed (Digest.toBigEndian delta.toUInt64.toNat)

/-- Drops a leading byte-order mark, once. -/
def dropMark : List Char → List Char
  | '\uFEFF' :: rest => rest
  | chars => chars

/-- Drops every line feed together with one carriage return directly before it. -/
def dropTerminators : List Char → List Char
  | [] => []
  | '\r' :: '\n' :: rest => dropTerminators rest
  | '\n' :: rest => dropTerminators rest
  | c :: rest => c :: dropTerminators rest

/-- Feeds the lines of a script, without their terminators and without a leading mark. -/
def feedScript (fingerprint : Fingerprint) (script : String) : Fingerprint :=
  fingerprint.feed (utf8 (dropTerminators (dropMark script.toList)))

/-- The first four bytes of the digest, read as a signed number. -/
def checksum (fingerprint : Fingerprint) : Checksum :=
  .ofInt (Digest.ofBigEndian ((Digest.sha256 fingerprint.bytes).take 4))

end Fingerprint

def scriptChecksum (script : String) : Checksum := (Fingerprint.empty.feedScript script).checksum

/-- A key that stands for a name: the first eight bytes of its digest, read as a signed number. -/
def nameKey (name : String) : Int64 :=
  .ofInt (Digest.ofBigEndian ((Digest.sha256 (Fingerprint.utf8 name.toList)).take 8))

end SchemaLedger
