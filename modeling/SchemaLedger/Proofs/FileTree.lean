import SchemaLedger.FileTree
import SchemaLedger.Proofs.FileSystem

/-!
# File trees as file systems

Creating directories keeps every file (`sparesFiles_system`). What has been written is what the path
leads to afterwards (`keeps_system`): paths are followed through directories only, so a file that is
put where no directory was leaves every path as it was.
-/

namespace SchemaLedger.FileTree

open FileSystem

variable {tree : FileTree} {path : String} {place : List String} {content : ByteArray}

/-- There always is a directory at the top. -/
theorem ne_nil_of_not_hasDirectory (free : tree.hasDirectory place = false) : place ≠ [] := by
  rintro rfl
  cases free

/-! ## Files that are kept -/

/-- The content of the file at a place, if there is one. -/
def fileAt? (tree : FileTree) (place : List String) : Option ByteArray :=
  match tree.find? place with
  | some (.file content) => some content
  | _ => none

/-- A directory that is put where nothing was hides no file. -/
theorem fileAt?_put_directory (vacant : tree.find? place = none) :
    (tree.put place .directory).fileAt? = tree.fileAt? := by
  have below : place ≠ [] := ne_nil_of_not_hasDirectory (by rw [hasDirectory, vacant])
  funext other
  by_cases same : other = place
  · subst same
    rw [fileAt?, fileAt?, find?_put_self tree below, vacant]
  · rw [fileAt?, fileAt?, find?_put_of_ne tree same]

/-- Creating directories keeps every file and makes none, even if something is in the way. -/
theorem fileAt?_create (tree : FileTree) (place segments : List String) :
    (tree.create place segments).2.fileAt? = tree.fileAt? := by
  -- Of all that can become of a segment, only the last case changes the tree.
  fun_induction create tree place segments with
  | case1 | case4 | case6 => rfl
  | case2 _ _ _ _ _ ih => exact ih
  | case3 _ _ _ _ _ _ ih => exact ih
  | case5 _ _ _ _ _ _ _ _ ih => exact ih
  | case7 _ _ _ _ _ _ _ vacant ih => exact ih.trans (fileAt?_put_directory vacant)

theorem sparesFiles_system : system.SparesFiles fileAt? := by
  intro path tree
  change (tree.createAll path).2.fileAt? = tree.fileAt?
  rw [createAll]
  split
  · exact fileAt?_create _ _ _
  · rfl

/-! ## Files that are found -/

/-- A file may be written in a directory under a name. -/
structure IsFree (tree : FileTree) (path : String) (place : List String) (name : String) :
    Prop where
  located : tree.locate? path = some (place, name)
  named : isName name = true
  free : tree.hasDirectory (place ++ [name]) = false

/-- A file that is put where no directory was stands in no path's way. -/
theorem locate?_put (free : tree.hasDirectory place = false) :
    (tree.put place (.file content)).locate? path = tree.locate? path := by
  have same (other : List String) :
      (tree.put place (.file content)).hasDirectory other = tree.hasDirectory other := by
    by_cases equal : other = place
    · subst equal
      rw [free, hasDirectory, find?_put_self tree (ne_nil_of_not_hasDirectory free)]
    · rw [hasDirectory, find?_put_of_ne tree equal, hasDirectory]
  have enter (start segments : List String) :
      (tree.put place (.file content)).enter? start segments = tree.enter? start segments := by
    induction segments generalizing start with
    | nil => rfl
    | cons segment rest ih => simp only [enter?, same, ih]
  have start : (tree.put place (.file content)).start path = tree.start path := rfl
  rw [locate?, locate?, start, enter]

theorem IsFree.write {name : String} (free : tree.IsFree path place name) (content : ByteArray) :
    FileTree.write path content tree = (.ok (), tree.put (place ++ [name]) (.file content)) := by
  simp [FileTree.write, free.located, free.named, free.free]

/-- What has been written is what the path leads to. -/
theorem IsFree.item?_put {name : String} (free : tree.IsFree path place name)
    (content : ByteArray) :
    (tree.put (place ++ [name]) (.file content)).item? path = some (.file content) := by
  have found : (tree.put (place ++ [name]) (.file content)).find? (place ++ [name]) =
      some (.file content) := find?_put_self tree (by simp) _
  simp [item?, locate?_put free.free, free.located, free.named, found]

/-- Writing fails unless the path leads to a place where a file can be. -/
theorem exists_isFree_of_write (written : (FileTree.write path content tree).1 = .ok ()) :
    ∃ place name, tree.IsFree path place name := by
  rw [FileTree.write] at written
  split at written
  · rename_i place last located
    split at written
    · rename_i free
      obtain ⟨named, free⟩ : isName last = true ∧ tree.hasDirectory (place ++ [last]) = false := by
        simpa using free
      exact ⟨place, last, located, named, free⟩
    · cases written
  · cases written

theorem item?_write {text : String} (written : (system.write path text tree).1 = .ok ()) :
    (system.write path text tree).2.item? path = some (.file text.toUTF8) := by
  obtain ⟨place, name, free⟩ := exists_isFree_of_write written
  change (FileTree.write path text.toUTF8 tree).2.item? path = some (.file text.toUTF8)
  rw [free.write]
  exact free.item?_put text.toUTF8

theorem fromUTF8?_toUTF8 (text : String) : String.fromUTF8? text.toUTF8 = some text := by
  rw [String.fromUTF8?, String.toUTF8_eq_toByteArray, dif_pos text.isValidUTF8]
  rfl

theorem keeps_system (path : String) : system.Keeps path where
  isThere {text tree} written := by
    change Except.ok ((system.write path text tree).2.item? path).isSome = Except.ok true
    rw [item?_write written]
    rfl
  readText {text tree} written := by
    change FileTree.readText path (system.write path text tree).2 = Except.ok text
    simp only [FileTree.readText, item?_write written, fromUTF8?_toUTF8]

end SchemaLedger.FileTree
