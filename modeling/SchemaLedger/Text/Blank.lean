/-!
# Blanks

The characters with the Unicode property White_Space, and texts without the blanks at their start.
-/

namespace SchemaLedger.Text

/-- The character has the property White_Space. -/
def isBlank (c : Char) : Bool :=
  ('\u0009' ≤ c && c ≤ '\u000D') || c == ' ' || c == '\u0085' || c == '\u00A0' || c == '\u1680'
    || ('\u2000' ≤ c && c ≤ '\u200A') || c == '\u2028' || c == '\u2029' || c == '\u202F'
    || c == '\u205F' || c == '\u3000'

def trimStart (chars : List Char) : List Char := chars.dropWhile isBlank

end SchemaLedger.Text
