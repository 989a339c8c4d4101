/-!
# Space between the parts of a TOML text

Blanks are spaces and tabs. A line ends with a line feed, before which a carriage return may stand,
or with the text. A comment reaches to the end of its line and holds no control characters other
than tabs. Readers return the characters that follow what they have read.
-/

namespace SchemaLedger.Document.Toml

def isBlank (c : Char) : Bool := c == ' ' || c == '\t'

/-- A control character; the space is none. -/
def isControl (c : Char) : Bool := c < ' ' || c == '\u007F'

/-- A character that a comment, or a literal text apart from its quotes, can hold. -/
def isPlain (c : Char) : Bool := c == '\t' || !isControl c

def skipBlanks (chars : List Char) : List Char := chars.dropWhile isBlank

def newline? : List Char → Option (List Char)
  | '\n' :: rest => some rest
  | '\r' :: '\n' :: rest => some rest
  | _ => none

def lineEnd? : List Char → Option (List Char)
  | [] => some []
  | chars => newline? chars

def skipComment : List Char → List Char
  | '#' :: rest => rest.dropWhile isPlain
  | chars => chars

/-- Reads what may follow on a line after its content. -/
def trailing? (chars : List Char) : Option (List Char) :=
  lineEnd? (skipComment (skipBlanks chars))

/-- Skips blanks, comments and line ends, at most `fuel` lines of them; a comment that does not end
with its line is left where it is. -/
def skipLines : Nat → List Char → List Char
  | 0, chars => chars
  | fuel + 1, chars =>
      let unblanked := skipBlanks chars
      match newline? (skipComment unblanked) with
      | some rest => skipLines fuel rest
      | none => unblanked

/-- Skips blanks, comments and line ends. -/
def skipSpace (chars : List Char) : List Char := skipLines (chars.length + 1) chars

end SchemaLedger.Document.Toml
