import Mathlib.Data.List.Nodup
import SchemaLedger.Config.File
import SchemaLedger.Proofs.Document.Toml
import SchemaLedger.Proofs.Version.Text

/-!
# Configurations read back

A configuration whose texts are plain is written out as TOML, and read back from there as it was
(`exists_toToml`): its fields are distinct, each with a value that has a spelling, and the two that
may be left out take the default that stands for nothing. Only a lock timeout beyond the integers of
TOML cannot be written (`toToml_of_not_isWritable`).
-/

namespace SchemaLedger

open Document Document.Toml

namespace Document

section Fields

variable {α : Type} {fields kept : Fields} {name : String} {value : Value}

/-- A field whose name occurs once is read. -/
theorem Fields.get_of_mem (distinct : (fields.map (·.1)).Nodup) (member : (name, value) ∈ fields)
    (read : Value → Option α) (default : α) : fields.get name read default = read value := by
  obtain ⟨before, after, rfl⟩ := List.append_of_mem member
  have found : (before ++ (name, value) :: after).lookup name = some value := by
    refine List.lookup_eq_some_iff.mpr ⟨before, after, rfl, fun entry earlier => ?_⟩
    rw [List.map_append, List.nodup_append] at distinct
    exact bne_iff_ne.mpr (distinct.2.2 entry.1 (List.mem_map_of_mem earlier) name
      List.mem_cons_self).symm
  rw [get, found]

theorem Fields.get_of_not_mem (absent : name ∉ fields.map (·.1)) (read : Value → Option α)
    (default : α) : fields.get name read default = some default := by
  have missing : fields.lookup name = none := by
    refine List.lookup_eq_none_iff.mpr fun entry member => ?_
    exact bne_iff_ne.mpr fun same => absent (same ▸ List.mem_map_of_mem member)
  rw [get, missing]

/-- Of fields that are kept in any order where they have a value, one without takes its default. -/
theorem Fields.get_of_perm_present (distinct : (fields.map (·.1)).Nodup)
    (same : kept.Perm fields.present) (member : (name, value) ∈ fields)
    (read : Value → Option α) (default : α) :
    kept.get name read default = if value.isNull then some default else read value := by
  have once : (kept.map (·.1)).Nodup :=
    ((same.map _).nodup_iff).mpr (distinct.sublist (List.filter_sublist.map _))
  cases given : value.isNull with
  | false =>
    have present : (name, value) ∈ fields.present :=
      List.mem_filter.mpr ⟨member, by simp [given]⟩
    exact get_of_mem once (same.mem_iff.mpr present) read default
  | true =>
    refine get_of_not_mem (fun known => ?_) read default
    obtain ⟨⟨_, stored⟩, found, rfl⟩ := List.mem_map.mp known
    obtain ⟨unfiltered, nonnull⟩ := List.mem_filter.mp (same.mem_iff.mp found)
    have equal := List.inj_on_of_nodup_map distinct unfiltered member rfl
    rw [(Prod.mk.inj equal).2, given] at nonnull
    cases nonnull

/-- A field that is null where there is nothing to write is read as it was. -/
theorem Fields.get_optional (distinct : (fields.map (·.1)).Nodup)
    (same : kept.Perm fields.present) {given : Option α} {write : α → Value}
    {read : Value → Option α} (member : (name, (given.map write).getD .null) ∈ fields)
    (nonnull : ∀ content, (write content).isNull = false)
    (reads : ∀ content, (write content).optional? read = some (some content)) :
    kept.get name (·.optional? read) none = some given := by
  rw [get_of_perm_present distinct same member]
  cases given with
  | none => rfl
  | some content =>
    rw [Option.map_some, Option.getD_some, nonnull, reads]
    rfl

end Fields

theorem Value.uint64?_toNat (number : UInt64) : (int number.toNat).uint64? = some number := by
  have fits : number.toNat < UInt64.size := number.toNat_lt
  simp [uint64?, fits, Int.not_lt.mpr (Int.natCast_nonneg _)]

end Document

namespace Version

theorem isPlainText_chars (version : Version) : IsPlainText version.chars := by
  have printed {c : Char} (written : c.isDigit = true ∨ isSeparator c = true) :
      isControl c = false := by
    rcases written with digit | separator
    · obtain ⟨low, high⟩ := isDigit_iff.mp digit
      have blank : ¬c < ' ' := Char.not_lt.mpr (Char.le_trans (by decide) low)
      have delete : c ≠ '\u007F' := by
        rintro rfl
        exact absurd high (by decide)
      simp [isControl, blank, delete]
    · obtain rfl | rfl := isSeparator_iff.mp separator <;> rfl
  intro c member
  refine ⟨?_, ?_, printed ((spells_chars version).isDigit_or_isSeparator c member)⟩
  · rintro rfl
    exact version.not_mem_chars rfl rfl member
  · rintro rfl
    exact version.not_mem_chars rfl rfl member

theorem ofValue?_toValue (version : Version) : ofValue? version.toValue = some version := by
  simp [ofValue?, toValue, Value.text?, ofText_text, Except.toOption]

end Version

namespace Config

/-! ## Reading the fields -/

theorem nodup_fields (config : Config) : (config.fields.map (·.1)).Nodup := by
  simp [fields]

/-- What is kept of the fields, in any order, is read as the configuration that they are from. -/
theorem ofValue?_of_perm_present {config : Config} {kept : Fields}
    (same : kept.Perm config.fields.present) : ofValue? (.table kept) = some config := by
  have get {α : Type} {name : String} {value : Value} (member : (name, value) ∈ config.fields)
      (read : Value → Option α) (default : α) :
      kept.get name read default = if value.isNull then some default else read value :=
    Fields.get_of_perm_present config.nodup_fields same member read default
  have bool {name : String} {value : Bool} (member : (name, .bool value) ∈ config.fields)
      (default : Bool) : kept.get name (·.bool?) default = some value :=
    get member _ default
  have text {name : String} {value : String} (member : (name, .text value) ∈ config.fields)
      (default : String) : kept.get name (·.text?) default = some value :=
    get member _ default
  have baseline (default : Version) :
      kept.get "baseline_version" Version.ofValue? default = some config.baselineVersion := by
    have member : ("baseline_version", config.baselineVersion.toValue) ∈ config.fields := by
      simp [fields]
    exact (get member _ default).trans config.baselineVersion.ofValue?_toValue
  have target : kept.get "target" (·.optional? Version.ofValue?) none = some config.target := by
    have member : ("target", (config.target.map Version.toValue).getD .null) ∈ config.fields := by
      simp [fields]
    exact Fields.get_optional config.nodup_fields same member (fun _ => rfl) fun version =>
      congrArg (Option.map some) version.ofValue?_toValue
  have timeout : kept.get "lock_timeout_secs" (·.optional? (·.uint64?)) none =
      some config.lockTimeout := by
    have member : ("lock_timeout_secs",
        (config.lockTimeout.map fun seconds => Value.int seconds.toNat).getD .null) ∈
          config.fields := by
      simp [fields]
    exact Fields.get_optional config.nodup_fields same member (fun _ => rfl) fun seconds =>
      congrArg (Option.map some) (Value.uint64?_toNat seconds)
  have outOfOrder : ("out_of_order", .bool config.outOfOrder) ∈ config.fields := by
    simp [fields]
  have validate : ("validate_on_migrate", .bool config.validateOnMigrate) ∈ config.fields := by
    simp [fields]
  have missing : ("ignore_missing", .bool config.ignoreMissing) ∈ config.fields := by
    simp [fields]
  have future : ("ignore_future", .bool config.ignoreFuture) ∈ config.fields := by
    simp [fields]
  have empty : ("baseline_on_migrate", .bool config.baselineOnMigrate) ∈ config.fields := by
    simp [fields]
  have description :
      ("baseline_description", .text config.baselineDescription) ∈ config.fields := by
    simp [fields]
  have installed : ("installed_by", .text config.installedBy) ∈ config.fields := by
    simp [fields]
  rw [ofValue?]
  simp only [Value.fields?, Option.bind_eq_bind, Option.bind_some, Option.pure_def, bool outOfOrder,
    target, bool validate, bool missing, bool future, bool empty, baseline, text description,
    text installed, timeout]

/-! ## Round trips -/

/-- The texts of a configuration stand for themselves between double quotes. -/
structure IsPlain (config : Config) : Prop where
  description : IsPlainText config.baselineDescription.toList
  installer : IsPlainText config.installedBy.toList

/-- The lock timeout, if there is one, is an integer of TOML. -/
def IsWritable (config : Config) : Prop :=
  ∀ seconds ∈ config.lockTimeout, seconds.toNat ≤ 9223372036854775807

instance (config : Config) : Decidable config.IsWritable :=
  decidable_of_iff (config.lockTimeout.all (·.toNat ≤ 9223372036854775807))
    (by simp [IsWritable, Option.all_eq_true])

variable {config : Config} {toml : Format}

theorem exists_spells (plain : config.IsPlain) (writable : config.IsWritable) :
    ∀ entry ∈ config.fields, entry.2.isNull = false → ∃ chars, Spells chars entry.2 := by
  have bool (value : Bool) : ∃ chars, Spells chars (.bool value) := by
    cases value with
    | false => exact ⟨_, .no⟩
    | true => exact ⟨_, .yes⟩
  have text {text : String} (plain : IsPlainText text.toList) :
      ∃ chars, Spells chars (.text text) := by
    have spells := Spells.text plain
    rw [String.ofList_toList] at spells
    exact ⟨_, spells⟩
  have version (version : Version) : ∃ chars, Spells chars version.toValue :=
    ⟨_, .text version.isPlainText_chars⟩
  have optional {α : Type} {given : Option α} {write : α → Value}
      (spells : ∀ content ∈ given, ∃ chars, Spells chars (write content))
      (nonnull : ((given.map write).getD .null).isNull = false) :
      ∃ chars, Spells chars ((given.map write).getD .null) := by
    cases given with
    | none => cases nonnull
    | some content => exact spells content rfl
  simp only [fields, List.forall_mem_cons]
  exact ⟨fun _ => bool _, optional fun limit _ => version limit, fun _ => bool _, fun _ => bool _,
    fun _ => bool _, fun _ => bool _, fun _ => version _, fun _ => text plain.description,
    fun _ => text plain.installer,
    optional fun seconds given => ⟨_, .int (writable seconds given)⟩,
    fun _ member => by cases member⟩

/-- What is written out is read back as the same configuration. -/
theorem exists_toToml (trusted : toml.IsToml) (plain : config.IsPlain)
    (writable : config.IsWritable) :
    ∃ text, config.toToml toml = .ok text ∧ ofToml toml text = .ok config := by
  have scalar : ∀ entry ∈ config.fields.present, ∃ line, IsLine line entry := by
    rintro ⟨name, value⟩ member
    obtain ⟨member, given⟩ := List.mem_filter.mp member
    have named : name ∈ fieldNames := List.mem_map_of_mem (f := (·.1)) member
    have bare : ∀ name ∈ fieldNames, name.toList.all isBare = true ∧ name.toList ≠ [] := by decide
    obtain ⟨chars, spells⟩ := exists_spells plain writable _ member (by simpa using given)
    exact ⟨_, ⟨List.all_eq_true.mp (bare name named).1, (bare name named).2⟩, chars, spells, rfl⟩
  obtain ⟨text, printed, lines⟩ := trusted.print config.nodup_fields scalar
  have distinct : (config.fields.present.map (·.1)).Nodup :=
    config.nodup_fields.sublist (List.filter_sublist.map _)
  obtain ⟨kept, parsed, same⟩ := trusted.parse distinct lines
  exact ⟨text, by rw [toToml, toValue, printed],
    by simp only [ofToml, parsed, ofValue?_of_perm_present same]⟩

theorem toToml_of_not_isWritable (trusted : toml.IsToml) (beyond : ¬config.IsWritable) :
    ∃ detail, config.toToml toml = .error (.config (.unserializable detail)) := by
  obtain ⟨seconds, given, large⟩ :
      ∃ seconds, config.lockTimeout = some seconds ∧ 9223372036854775807 < seconds.toNat := by
    simpa [IsWritable] using beyond
  have member : ("lock_timeout_secs", Value.int seconds.toNat) ∈ config.fields := by
    simp [fields, given]
  obtain ⟨detail, refused⟩ := trusted.refuse member (by exact_mod_cast large)
  exact ⟨detail, by rw [toToml, toValue, refused]⟩

example : ({ lockTimeout := some 30 } : Config).toToml Toml.format = .ok (
    "out_of_order = false\nvalidate_on_migrate = true\nignore_missing = false\n" ++
    "ignore_future = true\nbaseline_on_migrate = false\nbaseline_version = \"1\"\n" ++
    "baseline_description = \"<< Baseline >>\"\ninstalled_by = \"tidemark\"\n" ++
    "lock_timeout_secs = 30\n") := by cbv

end Config

end SchemaLedger
