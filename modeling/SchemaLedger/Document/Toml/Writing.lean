import SchemaLedger.Document.Toml.Statement

/-!
# TOML as a format

Texts are read with all that TOML 1.0 has. What is written is a table of scalars, an entry to a
line; an entry without a value has none. Texts stand in double quotes, with escapes where they need
them.
-/

namespace SchemaLedger.Document.Toml

/-- A number below 16 as a hexadecimal digit. -/
def hexDigit (number : Nat) : Char := Nat.digitChar number

def quoteChar (c : Char) : List Char :=
  if c == '"' then ['\\', '"']
  else if c == '\\' then ['\\', '\\']
  else if isControl c then
    ['\\', 'u', '0', '0', hexDigit (c.toNat / 16), hexDigit (c.toNat % 16)]
  else [c]

def quote (chars : List Char) : List Char := '"' :: (chars.flatMap quoteChar ++ ['"'])

/-- A key, in quotes unless it can do without. -/
def keyChars (key : String) : List Char :=
  if key != "" && key.toList.all isBare then key.toList else quote key.toList

def boolChars (value : Bool) : List Char := if value then "true".toList else "false".toList

def intChars : Int → List Char
  | .ofNat number => Nat.toDigits 10 number
  | .negSucc number => '-' :: Nat.toDigits 10 (number + 1)

/-- A scalar as it is written, unless it is an integer beyond 64 signed bits. -/
def scalarChars? : Value → Option (List Char)
  | .bool value => some (boolChars value)
  | .int number =>
      if Int64.minValue.toInt ≤ number ∧ number ≤ Int64.maxValue.toInt then
        some (intChars number)
      else none
  | .text text => some (quote text.toList)
  | _ => none

def lineChars? (entry : String × Value) : Option (List Char) :=
  (scalarChars? entry.2).map fun chars => keyChars entry.1 ++ " = ".toList ++ chars ++ ['\n']

def tableChars? (entries : Fields) : Option (List Char) :=
  (entries.present.mapM lineChars?).map (·.flatten)

/-- TOML, as far as it is written. -/
def format : Format where
  print
    | .table entries =>
        match tableChars? entries with
        | some chars => .ok (.ofList chars)
        | none => .error "value out of range"
    | _ => .error "not a table"
  parse text :=
    match document? text with
    | some value => .ok value
    | none => .error "not a TOML text"

end SchemaLedger.Document.Toml
