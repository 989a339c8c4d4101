import SchemaLedger.Document.Toml.Space

/-!
# Quoted texts

A basic text stands in double quotes and can hold escapes; a literal text stands in single quotes
and is taken as it is. Tripled quotes enclose several lines: a line end right after the opening
quotes is dropped, one or two quotes may stand anywhere, also before the closing quotes, and in a
basic text a backslash at the end of a line removes the space up to the next character.
-/

namespace SchemaLedger.Document.Toml

/-- Reads characters piece by piece up to what closes a text. A closing reader returns the
characters that still belong to the text; each piece is read by a step. -/
def readUntil (close step : List Char → Option (List Char × List Char)) :
    Nat → List Char → Option (List Char × List Char)
  | 0, _ => none
  | fuel + 1, chars =>
      match close chars with
      | some closed => some closed
      | none => do
          let (piece, rest) ← step chars
          let (others, after) ← readUntil close step fuel rest
          return (piece ++ others, after)

def hexDigit? (c : Char) : Option Nat :=
  if '0' ≤ c && c ≤ '9' then some (c.toNat - '0'.toNat)
  else if 'a' ≤ c && c ≤ 'f' then some (c.toNat - 'a'.toNat + 10)
  else if 'A' ≤ c && c ≤ 'F' then some (c.toNat - 'A'.toNat + 10)
  else none

def hexNumber? (digits : List Char) : Option Nat :=
  digits.foldlM (fun value digit => (hexDigit? digit).map (value * 16 + ·)) 0

/-- The character with a code point in a fixed number of hexadecimal digits. -/
def codePoint? (width : Nat) (chars : List Char) : Option (Char × List Char) := do
  guard (width ≤ chars.length)
  let number ← hexNumber? (chars.take width)
  if number.isValidChar then return (Char.ofNat number, chars.drop width) else none

def escape? : List Char → Option (Char × List Char)
  | 'b' :: rest => some ('\u0008', rest)
  | 't' :: rest => some ('\t', rest)
  | 'n' :: rest => some ('\n', rest)
  | 'f' :: rest => some ('\u000C', rest)
  | 'r' :: rest => some ('\r', rest)
  | '"' :: rest => some ('"', rest)
  | '\\' :: rest => some ('\\', rest)
  | 'u' :: rest => codePoint? 4 rest
  | 'U' :: rest => codePoint? 8 rest
  | _ => none

def basicStep? : List Char → Option (List Char × List Char)
  | '\\' :: rest => (escape? rest).map fun (c, after) => ([c], after)
  | c :: rest => if isPlain c && c != '"' then some ([c], rest) else none
  | [] => none

def literalStep? : List Char → Option (List Char × List Char)
  | c :: rest => if isPlain c && c != '\'' then some ([c], rest) else none
  | [] => none

def closeOne (quote : Char) : List Char → Option (List Char × List Char)
  | c :: rest => if c == quote then some ([], rest) else none
  | [] => none

/-- Reads tripled closing quotes; one or two more quotes before them belong to the text. -/
def closeThree (quote : Char) (chars : List Char) : Option (List Char × List Char) :=
  let quotes := (chars.take 5).takeWhile (· == quote)
  if 3 ≤ quotes.length then some (quotes.drop 3, chars.drop quotes.length) else none

/-- Reads a line end within a text, which becomes a line feed. -/
def lineStep? (chars : List Char) : Option (List Char × List Char) :=
  (newline? chars).map fun rest => (['\n'], rest)

/-- Reads a backslash that removes the space after it, a line end included. -/
def continuation? : List Char → Option (List Char × List Char)
  | '\\' :: rest =>
      (newline? (skipBlanks rest)).map fun after => ([], dropSpace (after.length + 1) after)
  | _ => none
where
  /-- Drops blanks and line ends, at most `fuel` lines of them. -/
  dropSpace : Nat → List Char → List Char
    | 0, chars => chars
    | fuel + 1, chars =>
        match newline? (skipBlanks chars) with
        | some rest => dropSpace fuel rest
        | none => skipBlanks chars

/-- Reads a quote that does not close a text. -/
def quoteStep? (quote : Char) : List Char → Option (List Char × List Char)
  | c :: rest => if c == quote then some ([c], rest) else none
  | [] => none

/-- Reads a piece of a basic text of several lines. -/
def basicLinesStep? (chars : List Char) : Option (List Char × List Char) :=
  lineStep? chars <|> continuation? chars <|> quoteStep? '"' chars <|> basicStep? chars

/-- Reads a piece of a literal text of several lines. -/
def literalLinesStep? (chars : List Char) : Option (List Char × List Char) :=
  lineStep? chars <|> quoteStep? '\'' chars <|> literalStep? chars

/-- Drops a line end right after the opening quotes. -/
def dropFirstLine (chars : List Char) : List Char := (newline? chars).getD chars

/-- Reads a text in single or double quotes on one line. -/
def lineText? : List Char → Option (List Char × List Char)
  | '"' :: rest => readUntil (closeOne '"') basicStep? (rest.length + 1) rest
  | '\'' :: rest => readUntil (closeOne '\'') literalStep? (rest.length + 1) rest
  | _ => none

/-- Reads a quoted text of any form. -/
def quotedText? : List Char → Option (List Char × List Char)
  | '"' :: '"' :: '"' :: rest =>
      readUntil (closeThree '"') basicLinesStep? (rest.length + 1) (dropFirstLine rest)
  | '\'' :: '\'' :: '\'' :: rest =>
      readUntil (closeThree '\'') literalLinesStep? (rest.length + 1) (dropFirstLine rest)
  | chars => lineText? chars

end SchemaLedger.Document.Toml
