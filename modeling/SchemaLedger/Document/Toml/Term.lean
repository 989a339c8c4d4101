import SchemaLedger.Document.Toml.Number
import SchemaLedger.Document.Toml.Table

/-!
# Keys and values

A key is bare or quoted, and keys joined by points form a path of fewer than 80 keys. A value is a
text, a number, a date, a Boolean, an array or an inline table; arrays and inline tables nest fewer
than 80 deep. An array may spread over lines and end with a comma, an inline table may do neither.
-/

namespace SchemaLedger.Document.Toml

/-- The depth of nesting, and the length of a path, that is refused. -/
def nestingLimit : Nat := 80

/-! ## Keys -/

def isBare (c : Char) : Bool := c.isAlphanum || c == '_' || c == '-'

/-- Reads a bare or a quoted key. -/
def key? (chars : List Char) : Option (String × List Char) :=
  match chars with
  | '"' :: _ => (lineText? chars).map fun (text, rest) => (.ofList text, rest)
  | '\'' :: _ => (lineText? chars).map fun (text, rest) => (.ofList text, rest)
  | _ =>
      match chars.takeWhile isBare with
      | [] => none
      | bare => some (.ofList bare, chars.dropWhile isBare)

/-- Reads up to `limit` keys joined by points, with blanks around them. -/
def keys? : Nat → List Char → Option (Path × List Char)
  | 0, _ => none
  | limit + 1, chars => do
      let (key, rest) ← key? (skipBlanks chars)
      match skipBlanks rest with
      | '.' :: rest =>
          let (path, after) ← keys? limit rest
          return ({ path with parents := key :: path.parents }, after)
      | rest => return (⟨[], key⟩, rest)

def path? (chars : List Char) : Option (Path × List Char) := keys? (nestingLimit - 1) chars

/-- Reads a path, an equals sign and a value, with blanks between them. -/
def assignment? (value? : List Char → Option (Value × List Char)) (chars : List Char) :
    Option (Assignment × List Char) := do
  let (path, rest) ← path? chars
  let (value, after) ← value? (skipBlanks (← expect? '=' rest))
  return (⟨path, value⟩, after)

/-! ## Values -/

/-- Reads the elements of an array up to the closing bracket. -/
def elements? (value? : List Char → Option (Value × List Char)) :
    Nat → List Char → Option (List Value × List Char)
  | 0, _ => none
  | fuel + 1, chars =>
      match skipSpace chars with
      | ']' :: rest => some ([], rest)
      | begun => do
          let (value, rest) ← value? begun
          match skipSpace rest with
          | ',' :: rest =>
              let (values, after) ← elements? value? fuel rest
              return (value :: values, after)
          | ']' :: rest => return ([value], rest)
          | _ => none

/-- Reads the assignments of an inline table, of which there is at least one, up to the closing
brace. -/
def inlineAssignments? (value? : List Char → Option (Value × List Char)) :
    Nat → List Char → Option (List Assignment × List Char)
  | 0, _ => none
  | fuel + 1, chars => do
      let (assignment, rest) ← assignment? value? chars
      match skipBlanks rest with
      | ',' :: rest =>
          let (assignments, after) ← inlineAssignments? value? fuel rest
          return (assignment :: assignments, after)
      | '\x7d' :: rest => return ([assignment], rest)
      | _ => none

/-- Reads an inline table after its opening brace. -/
def inlineTable? (value? : List Char → Option (Value × List Char)) (chars : List Char) :
    Option (Value × List Char) := do
  match skipBlanks chars with
  | '\x7d' :: rest => return (.table [], rest)
  | begun =>
      let (assignments, rest) ← inlineAssignments? value? (begun.length + 1) begun
      return (← closedTable? assignments, rest)

/-- Reads a text, a number, a date or a Boolean. -/
def scalar? (chars : List Char) : Option (Value × List Char) :=
  match chars with
  | '"' :: _ => (quotedText? chars).map fun (text, rest) => (.text (.ofList text), rest)
  | '\'' :: _ => (quotedText? chars).map fun (text, rest) => (.text (.ofList text), rest)
  | 't' :: 'r' :: 'u' :: 'e' :: rest => some (.bool true, rest)
  | 'f' :: 'a' :: 'l' :: 's' :: 'e' :: rest => some (.bool false, rest)
  | _ => number? chars

/-- Reads a value in which arrays and inline tables nest at most `depth` deep. -/
def nested? : Nat → List Char → Option (Value × List Char)
  | depth + 1, '[' :: rest =>
      (elements? (nested? depth) (rest.length + 1) rest).map fun (values, after) =>
        (.list values, after)
  | depth + 1, '\x7b' :: rest => inlineTable? (nested? depth) rest
  | _, chars => scalar? chars

def value? (chars : List Char) : Option (Value × List Char) := nested? (nestingLimit - 1) chars

end SchemaLedger.Document.Toml
