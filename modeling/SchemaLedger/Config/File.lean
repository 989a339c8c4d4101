import SchemaLedger.Config.Document
import SchemaLedger.FileSystem

/-!
# Configuration files

A configuration is loaded from a file, and a file that does not exist stands for the defaults. It is
saved by creating the parent directories, then writing out the configuration, then the file, so a
configuration that cannot be written out leaves no file. The format of the file and the file system
are given.
-/

namespace SchemaLedger.Config

open Document

variable {State : Type} (toml : Format) (system : FileSystem State)

def ofToml (text : String) : Except Error Config :=
  match toml.parse text with
  | .error detail => .error (.config (.unparsable detail))
  | .ok value =>
      match ofValue? value with
      | some config => .ok config
      | none => .error (.config (.unparsable "not a configuration"))

def toToml (config : Config) : Except Error String :=
  match toml.print config.toValue with
  | .ok text => .ok text
  | .error detail => .error (.config (.unserializable detail))

/-- Loads a configuration; a file that cannot be looked for does not exist. -/
def load (path : String) (state : State) : Except Error Config :=
  match system.isThere path state with
  | .ok true =>
      match system.readText path state with
      | .ok text => ofToml toml text
      | .error detail => .error (.config (.unreadable path detail))
  | _ => .ok {}

/-- Saves a configuration. -/
def save (config : Config) (path : String) : Work State Unit := do
  system.createParents path
  let text ← config.toToml toml
  FileSystem.perform (system.write path text) (.unwritable path)

end SchemaLedger.Config
