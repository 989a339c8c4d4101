import SchemaLedger.Selection

/-!
# Versions

A version is a non-empty list of 64-bit components, most significant first. Components that are
not written count as zero, so `1`, `1.0` and `1.0.0` are one version in three spellings: order and
`==` look through the spelling, while `parts` keeps it. `significant` is the spelling without its
trailing zeros, which equal versions share.
-/

namespace SchemaLedger

/-- A non-empty list of components, as written. -/
structure Version where
  parts : List UInt64
  parts_ne_nil : parts ≠ []

namespace Version

def ofParts? (parts : List UInt64) : Option Version :=
  if given : parts ≠ [] then some ⟨parts, given⟩ else none

/-- The version with a single component. -/
def ofMajor (major : UInt64) : Version := ⟨[major], List.cons_ne_nil _ _⟩

def major (version : Version) : UInt64 := version.parts.head version.parts_ne_nil

def dropTrailingZeros : List UInt64 → List UInt64
  | [] => []
  | part :: rest =>
      match dropTrailingZeros rest with
      | [] => if part = 0 then [] else [part]
      | kept => part :: kept

/-- The components without trailing zeros. -/
def significant (version : Version) : List UInt64 := dropTrailingZeros version.parts

/-- Compares a list of zeros, as long as needed, with a list of components. -/
def compareZeros : List UInt64 → Ordering
  | [] => .eq
  | part :: rest => (compare 0 part).then (compareZeros rest)

/-- Compares component by component, the shorter list being continued with zeros. -/
def compareParts : List UInt64 → List UInt64 → Ordering
  | [], right => compareZeros right
  | left, [] => (compareZeros left).swap
  | a :: left, b :: right => (compare a b).then (compareParts left right)

theorem compareParts_self (parts : List UInt64) : compareParts parts parts = .eq := by
  induction parts with
  | nil => rfl
  | cons part rest ih => simp [compareParts, ih, Std.ReflCmp.compare_self]

instance : Ord Version where
  compare left right := compareParts left.parts right.parts

/-- Versions are equal when they compare as equal, whatever their spelling. -/
instance : BEq Version where
  beq left right := compare left right == .eq

theorem beq_iff_compare {left right : Version} :
    (left == right) = true ↔ compare left right = .eq := by
  simp [BEq.beq]

instance : ReflBEq Version where
  rfl := beq_iff_compare.mpr (compareParts_self _)

instance : LT Version := ltOfOrd

instance : LE Version := leOfOrd

/-- Equal versions hash alike, since only the significant components are hashed. -/
instance : Hashable Version where
  hash version := hash version.significant

/-- The highest of some versions, the last of equal ones. -/
def highest? (versions : List Version) : Option Version := lastGreatest? (· ≤ ·) versions

end Version

end SchemaLedger
