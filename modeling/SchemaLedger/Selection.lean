/-!
# Greatest elements

Where elements can be equal in an order without being the same, it matters which of several
greatest elements is taken. `lastGreatest?` takes the last one.
-/

namespace SchemaLedger

/-- The last of the greatest elements of a list. -/
def lastGreatest? {α : Type} (le : α → α → Bool) : List α → Option α
  | [] => none
  | element :: rest =>
      match lastGreatest? le rest with
      | none => some element
      | some greatest => if le element greatest then some greatest else some element

end SchemaLedger
