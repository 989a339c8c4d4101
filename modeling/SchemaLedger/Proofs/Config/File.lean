import SchemaLedger.Document.Toml.Writing
import SchemaLedger.Proofs.Config.Document
import SchemaLedger.Proofs.FileTree

/-!
# Configuration files read back

Where a file can be written, a configuration whose texts are plain is saved and loaded again as it
was, unless its lock timeout is beyond the integers of TOML: then saving fails, and no file is
written. The parent directories may have been created before that is found out.
-/

namespace SchemaLedger.Config

open Document

section Saving

variable {State Files : Type} {toml : Format} {system : FileSystem State} {config : Config}
  {path text : String} {state : State}

/-- A directory that cannot be created ends the saving. -/
theorem save_of_not_created {error : Error}
    (failed : (system.createParents path state).1 = .error error) :
    config.save toml system path state = (.error error, (system.createParents path state).2) := by
  have blocked : system.createParents path state =
      (.error error, (system.createParents path state).2) := Prod.ext failed rfl
  rw [save, Work.bind_apply_of_error blocked]

/-- Once the parent directories are there, the configuration is written out, and then the file. -/
theorem save_of_created (created : (system.createParents path state).1 = .ok ()) :
    config.save toml system path state =
      match config.toToml toml with
      | .ok text =>
          FileSystem.perform (system.write path text) (.unwritable path)
            (system.createParents path state).2
      | .error error => (.error error, (system.createParents path state).2) := by
  have made : system.createParents path state =
      (.ok (), (system.createParents path state).2) := Prod.ext created rfl
  rw [save, Work.bind_apply_of_ok made, Work.bind_apply, Work.liftExcept_apply]
  cases config.toToml toml <;> rfl

/-- A configuration that can be written out is saved where the file system takes it. -/
theorem save_eq_ok_iff (written : config.toToml toml = .ok text) :
    (config.save toml system path state).1 = .ok () ↔ system.Takes path text state := by
  cases created : (system.createParents path state).1 with
  | error error =>
    rw [save_of_not_created created]
    constructor
    · intro saved
      cases saved
    · intro takes
      rw [takes.created] at created
      cases created
  | ok =>
    rw [save_of_created created, written]
    exact FileSystem.perform_eq_ok_iff.trans ⟨fun saved => ⟨created, saved⟩, (·.written)⟩

/-- What is loaded from where a configuration has been saved is what has been written. -/
theorem load_of_takes (keeps : system.Keeps path) (written : config.toToml toml = .ok text)
    (takes : system.Takes path text state) :
    load toml system path (config.save toml system path state).2 = ofToml toml text := by
  rw [save_of_created takes.created, written]
  simp only [FileSystem.perform_snd, load, keeps.isThere takes.written,
    keeps.readText takes.written]

/-- A configuration that cannot be written out makes no file. -/
theorem save_of_not_isWritable {files : State → Files} (trusted : toml.IsToml)
    (spares : system.SparesFiles files) (beyond : ¬config.IsWritable) :
    (∃ fault, (config.save toml system path state).1 = .error (.config fault)) ∧
      files (config.save toml system path state).2 = files state := by
  obtain ⟨detail, refused⟩ := toToml_of_not_isWritable trusted beyond
  have kept := spares.createParents path state
  cases created : (system.createParents path state).1 with
  | error error =>
    obtain ⟨detail, rfl⟩ := FileSystem.exists_detail_of_createParents created
    rw [save_of_not_created created]
    exact ⟨⟨_, rfl⟩, kept⟩
  | ok =>
    rw [save_of_created created, refused]
    exact ⟨⟨_, rfl⟩, kept⟩

end Saving

/-- A configuration that can be written out is saved exactly where the file system takes it, and is
loaded from there as it was: with the same components of its versions, and with nothing where it had
nothing. One whose lock timeout is too large is refused, and no file is made or changed. -/
theorem load_save {State Files : Type} {toml : Format} {system : FileSystem State}
    {files : State → Files} {path : String} {config : Config} (trusted : toml.IsToml)
    (keeps : system.Keeps path) (spares : system.SparesFiles files) (plain : config.IsPlain)
    (state : State) :
    (config.IsWritable →
      ∃ text, config.toToml toml = .ok text ∧
        ((config.save toml system path state).1 = .ok () ↔ system.Takes path text state) ∧
        ((config.save toml system path state).1 = .ok () →
          load toml system path (config.save toml system path state).2 = .ok config)) ∧
      (¬config.IsWritable →
        (∃ fault, (config.save toml system path state).1 = .error (.config fault)) ∧
          files (config.save toml system path state).2 = files state) := by
  refine ⟨fun writable => ?_, save_of_not_isWritable trusted spares⟩
  obtain ⟨text, written, read⟩ := exists_toToml trusted plain writable
  refine ⟨text, written, save_eq_ok_iff written, fun saved => ?_⟩
  rw [load_of_takes keeps written ((save_eq_ok_iff written).mp saved), read]

section Patience

open FileTree

/-- Settings of every kind, and as much patience as a file can say. -/
def patient : Config where
  outOfOrder := true
  target := some ⟨[2, 10, 0], by decide⟩
  ignoreMissing := true
  baselineVersion := ⟨[0, 0], by decide⟩
  baselineDescription := "état initial"
  installedBy := ""
  lockTimeout := some 9223372036854775807

/-- The same settings with a second more. -/
def tooPatient : Config := { patient with lockTimeout := some 9223372036854775808 }

theorem scratch_takes (text : String) : system.Takes "nested/tidemark.toml" text .scratch := by
  have vacant : scratch.find? ["scratch", "nested"] = none := by simp [scratch, find?]
  have nested : (scratch.put ["scratch", "nested"] .directory).find? ["scratch", "nested"] =
      some .directory := find?_put_self _ (by decide) _
  have unused : (scratch.put ["scratch", "nested"] .directory).find?
      ["scratch", "nested", "tidemark.toml"] = none := by
    rw [find?_put_of_ne _ (by decide)]
    simp [scratch, find?]
  have parts : FileSystem.segments "nested/tidemark.toml" = ["nested", "tidemark.toml"] ∧
      (FileSystem.parent? "nested/tidemark.toml").filter (· != "") = some "nested" ∧
      FileSystem.segments "nested" = ["nested"] := by decide
  have named : FileSystem.isStay "nested" = false ∧ isName "nested" = true := by decide
  have start : scratch.start "nested" = ["scratch"] ∧
      (scratch.put ["scratch", "nested"] .directory).start "nested/tidemark.toml" =
        ["scratch"] := by decide
  have created : scratch.createAll "nested" =
      (true, scratch.put ["scratch", "nested"] .directory) := by
    have short : isShort "nested" = true := by decide
    simp [createAll, short, start, parts, create, named, vacant]
  have parents : system.createParents "nested/tidemark.toml" scratch =
      (.ok (), scratch.put ["scratch", "nested"] .directory) := by
    rw [FileSystem.createParents_apply, parts.2.1]
    simp [FileSystem.perform_apply, system, created]
  have proper : (guard ("nested/tidemark.toml" != "" && isShort "nested/tidemark.toml") :
      Option Unit) = some () := by decide
  have free : (scratch.put ["scratch", "nested"] .directory).IsFree "nested/tidemark.toml"
      ["scratch", "nested"] "tidemark.toml" := by
    refine ⟨?_, by decide, by simp [hasDirectory, unused]⟩
    rw [locate?, proper, parts.1, start.2]
    simp [enter?, named, hasDirectory, nested]
  refine ⟨by rw [parents], ?_⟩
  rw [parents]
  exact congrArg Prod.fst (free.write text.toUTF8)

theorem load_save_patient :
    (patient.IsPlain ∧ patient.IsWritable ∧ tooPatient.IsPlain ∧ ¬tooPatient.IsWritable) ∧
      load Toml.format system "nested/tidemark.toml"
        (patient.save Toml.format system "nested/tidemark.toml" .scratch).2 = .ok patient ∧
      (∃ fault, (tooPatient.save Toml.format system "nested/tidemark.toml" .scratch).1 =
        .error (.config fault)) ∧
      (tooPatient.save Toml.format system "nested/tidemark.toml" .scratch).2.fileAt? =
        scratch.fileAt? := by
  have plain : patient.IsPlain := ⟨by decide, by decide⟩
  have plainly : tooPatient.IsPlain := ⟨by decide, by decide⟩
  have writable : patient.IsWritable := by decide
  have beyond : ¬tooPatient.IsWritable := by decide
  obtain ⟨text, -, saved, loaded⟩ := (load_save Toml.isToml_format
    (keeps_system "nested/tidemark.toml") sparesFiles_system plain .scratch).1 writable
  exact ⟨⟨plain, writable, plainly, beyond⟩, loaded (saved.mpr (scratch_takes text)),
    (load_save Toml.isToml_format (keeps_system "nested/tidemark.toml") sparesFiles_system
      plainly .scratch).2 beyond⟩

end Patience

end SchemaLedger.Config
