import SchemaLedger.Config.Basic
import SchemaLedger.Row.Document

/-!
# Configurations in documents

A configuration is read from a table of its fields, or from a list of the first of them in order;
fields that are absent take their defaults, and only the target and the lock timeout can be null.
It is written as a table of all its fields.
-/

namespace SchemaLedger.Config

open Document

def fieldNames : List String :=
  ["out_of_order", "target", "validate_on_migrate", "ignore_missing", "ignore_future",
    "baseline_on_migrate", "baseline_version", "baseline_description", "installed_by",
    "lock_timeout_secs"]

def ofValue? (value : Value) : Option Config := do
  let fields : Fields ← value.fields? fieldNames
  let defaults : Config := {}
  return {
    outOfOrder := ← fields.get "out_of_order" (·.bool?) defaults.outOfOrder
    target := ← fields.get "target" (·.optional? Version.ofValue?) defaults.target
    validateOnMigrate := ←
      fields.get "validate_on_migrate" (·.bool?) defaults.validateOnMigrate
    ignoreMissing := ← fields.get "ignore_missing" (·.bool?) defaults.ignoreMissing
    ignoreFuture := ← fields.get "ignore_future" (·.bool?) defaults.ignoreFuture
    baselineOnMigrate := ←
      fields.get "baseline_on_migrate" (·.bool?) defaults.baselineOnMigrate
    baselineVersion := ←
      fields.get "baseline_version" Version.ofValue? defaults.baselineVersion
    baselineDescription := ←
      fields.get "baseline_description" (·.text?) defaults.baselineDescription
    installedBy := ← fields.get "installed_by" (·.text?) defaults.installedBy
    lockTimeout := ←
      fields.get "lock_timeout_secs" (·.optional? (·.uint64?)) defaults.lockTimeout }

/-- The fields with their values, in order. -/
def fields (config : Config) : Fields :=
  [("out_of_order", .bool config.outOfOrder),
    ("target", (config.target.map Version.toValue).getD .null),
    ("validate_on_migrate", .bool config.validateOnMigrate),
    ("ignore_missing", .bool config.ignoreMissing),
    ("ignore_future", .bool config.ignoreFuture),
    ("baseline_on_migrate", .bool config.baselineOnMigrate),
    ("baseline_version", config.baselineVersion.toValue),
    ("baseline_description", .text config.baselineDescription),
    ("installed_by", .text config.installedBy),
    ("lock_timeout_secs",
      (config.lockTimeout.map fun seconds => Value.int seconds.toNat).getD .null)]

def toValue (config : Config) : Value := .table config.fields

end SchemaLedger.Config
