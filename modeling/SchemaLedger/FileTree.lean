import SchemaLedger.FileSystem
import Std.Data.HashMap

/-!
# File trees

A file system of directories and files alone, with a working directory from which relative paths
lead. A path is followed segment by segment: an empty segment and `.` stay, `..` leads to the
parent, and a name leads to what the directory holds under it. A name takes at most 255 bytes, a
path less than 4096, and neither holds a null character; the limit on paths counts the bytes as they
are spelled, whether they lead anywhere or stay.
-/

namespace SchemaLedger

/-- What a directory holds under a name. -/
inductive FileItem where
  | directory
  | file (content : ByteArray)

/-- Directories and files by the names that lead to them from the top, which is a directory. -/
structure FileTree where
  items : Std.HashMap (List String) FileItem
  /-- The working directory. -/
  base : List String

namespace FileTree

open FileSystem

/-- The tree with an empty working directory below the top. -/
def scratch : FileTree := ⟨.ofList [(["scratch"], .directory)], ["scratch"]⟩

def find? (tree : FileTree) : List String → Option FileItem
  | [] => some .directory
  | place => tree.items[place]?

/-- The tree with an item at a place. -/
def put (tree : FileTree) (place : List String) (item : FileItem) : FileTree :=
  { tree with items := tree.items.insert place item }

theorem find?_put_self (tree : FileTree) {place : List String} (below : place ≠ [])
    (item : FileItem) : (tree.put place item).find? place = some item := by
  cases place with
  | nil => exact absurd rfl below
  | cons => simp [put, find?]

theorem find?_put_of_ne (tree : FileTree) {place other : List String} (apart : other ≠ place)
    (item : FileItem) : (tree.put place item).find? other = tree.find? other := by
  cases other with
  | nil => rfl
  | cons => simp [put, find?, Std.HashMap.getElem?_insert, apart.symm]

def hasDirectory (tree : FileTree) (place : List String) : Bool :=
  match tree.find? place with
  | some .directory => true
  | _ => false

/-! ## Following paths -/

def isName (segment : String) : Bool :=
  !isStay segment && segment != ".." && segment.utf8ByteSize ≤ 255
    && !segment.toList.contains '\u0000'

def isShort (path : String) : Bool := path.utf8ByteSize < 4096

/-- The place from which a path leads: the top if it begins with a slash. -/
def start (tree : FileTree) (path : String) : List String :=
  if path.toList.head? == some '/' then [] else tree.base

/-- The directory to which segments lead from a directory. -/
def enter? (tree : FileTree) (place : List String) : List String → Option (List String)
  | [] => some place
  | segment :: rest =>
      if isStay segment then tree.enter? place rest
      else if segment == ".." then tree.enter? place.dropLast rest
      else if isName segment && tree.hasDirectory (place ++ [segment]) then
        tree.enter? (place ++ [segment]) rest
      else none

/-- The directory of a path's last segment, and that segment. -/
def locate? (tree : FileTree) (path : String) : Option (List String × String) := do
  guard (path != "" && isShort path)
  let last ← (segments path).getLast?
  return (← tree.enter? (tree.start path) (segments path).dropLast, last)

def item? (tree : FileTree) (path : String) : Option FileItem := do
  let (place, last) ← tree.locate? path
  if isName last then tree.find? (place ++ [last])
  else (tree.enter? place [last]).bind tree.find?

/-! ## Changing the tree -/

/-- Follows segments from a directory, creating what is missing; false if something is in the way,
and what was created stays. -/
def create (tree : FileTree) (place : List String) : List String → Bool × FileTree
  | [] => (true, tree)
  | segment :: rest =>
      if isStay segment then tree.create place rest
      else if segment == ".." then tree.create place.dropLast rest
      else if !isName segment then (false, tree)
      else
        match tree.find? (place ++ [segment]) with
        | some .directory => tree.create (place ++ [segment]) rest
        | some (.file _) => (false, tree)
        | none => (tree.put (place ++ [segment]) .directory).create (place ++ [segment]) rest

/-- Creates the directories that a path leads through, and the one that it leads to. A path that is
too long leads nowhere, even if the directories exist. -/
def createAll (tree : FileTree) (path : String) : Bool × FileTree :=
  if isShort path then tree.create (tree.start path) (segments path) else (false, tree)

/-- Writes a file in an existing directory, over another file if there is one. -/
def write (path : String) (content : ByteArray) (tree : FileTree) :
    Except String Unit × FileTree :=
  match tree.locate? path with
  | some (place, last) =>
      if isName last && !tree.hasDirectory (place ++ [last]) then
        (.ok (), tree.put (place ++ [last]) (.file content))
      else (.error "no file can be there", tree)
  | none => (.error "no such directory", tree)

/-! ## Calls -/

def readText (path : String) (tree : FileTree) : Except String String :=
  match tree.item? path with
  | none => .error "no such file"
  | some .directory => .error "is a directory"
  | some (.file content) =>
      match String.fromUTF8? content with
      | some text => .ok text
      | none => .error "not valid UTF-8"

def system : FileSystem FileTree where
  isThere path tree := .ok (tree.item? path).isSome
  readText := readText
  createAll path tree :=
    (if (tree.createAll path).1 then .ok () else .error "something is in the way",
      (tree.createAll path).2)
  write path text := write path text.toUTF8

end FileTree

end SchemaLedger
