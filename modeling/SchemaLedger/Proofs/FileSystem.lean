import SchemaLedger.FileSystem

/-!
# What a file system is trusted with

A text that has been written at a path is found and read there, and creating directories changes no
file. What the files of a state are is told by a function that is given with the file system.
-/

namespace SchemaLedger.FileSystem

section Trust

variable {State Files : Type} (system : FileSystem State)

/-- The path is one of files, rather than of devices, so what is written there stays. -/
structure Keeps (path : String) : Prop where
  isThere {text : String} {state : State} (written : (system.write path text state).1 = .ok ()) :
    system.isThere path (system.write path text state).2 = .ok true
  readText {text : String} {state : State} (written : (system.write path text state).1 = .ok ()) :
    system.readText path (system.write path text state).2 = .ok text

/-- Creating directories changes no file, even if it fails. -/
def SparesFiles (files : State → Files) : Prop :=
  ∀ path state, files (system.createAll path state).2 = files state

/-- The parent directories can be created, and then the text can be written. -/
structure Takes (path text : String) (state : State) : Prop where
  created : (system.createParents path state).1 = .ok ()
  written : (system.write path text (system.createParents path state).2).1 = .ok ()

end Trust

section Calls

variable {State : Type} {system : FileSystem State} {path : String} {state : State}

theorem perform_apply (call : State → Except String Unit × State) (fault : String → ConfigFault)
    (state : State) :
    perform call fault state =
      match call state with
      | (.ok (), after) => (.ok (), after)
      | (.error detail, after) => (.error (.config (fault detail)), after) := by
  rw [perform, Work.bind_apply, Work.get_apply]
  cases called : call state with
  | mk result after =>
    simp only [called, Work.bind_apply, Work.set_apply]
    cases result <;> rfl

@[simp]
theorem perform_snd (call : State → Except String Unit × State) (fault : String → ConfigFault)
    (state : State) : (perform call fault state).2 = (call state).2 := by
  rw [perform_apply]
  rcases call state with ⟨_ | _, after⟩ <;> rfl

theorem perform_eq_ok_iff {call : State → Except String Unit × State}
    {fault : String → ConfigFault} :
    (perform call fault state).1 = .ok () ↔ (call state).1 = .ok () := by
  rw [perform_apply]
  rcases call state with ⟨_ | _, after⟩ <;> simp

theorem exists_detail_of_perform {call : State → Except String Unit × State}
    {fault : String → ConfigFault} {error : Error}
    (failed : (perform call fault state).1 = .error error) :
    ∃ detail, error = .config (fault detail) := by
  rw [perform_apply] at failed
  split at failed
  · cases failed
  · rename_i detail _ _
    exact ⟨detail, (Except.error.inj failed).symm⟩

theorem createParents_apply (system : FileSystem State) (path : String) (state : State) :
    system.createParents path state =
      match (parent? path).filter (· != "") with
      | none => (.ok (), state)
      | some directory => perform (system.createAll directory) .noDirectory state := by
  rw [createParents]
  cases (parent? path).filter (· != "") <;> rfl

/-- Only a directory that cannot be created ends the creation of the parents. -/
theorem exists_detail_of_createParents {error : Error}
    (failed : (system.createParents path state).1 = .error error) :
    ∃ detail, error = .config (.noDirectory detail) := by
  rw [createParents_apply] at failed
  split at failed
  · cases failed
  · exact exists_detail_of_perform failed

theorem SparesFiles.createParents {Files : Type} {files : State → Files}
    (spares : system.SparesFiles files) (path : String) (state : State) :
    files (system.createParents path state).2 = files state := by
  rw [createParents_apply]
  split
  · rfl
  · rw [perform_snd]
    exact spares _ state

end Calls

end SchemaLedger.FileSystem
