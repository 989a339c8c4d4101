import SchemaLedger.Document.Value
import SchemaLedger.Info.Basic
import SchemaLedger.Instant.Text

/-!
# Rows in documents

How versions, kinds, statuses and ledger rows are written in documents, and read from them. A row
is a table of its fields, or a list of all ten in order; only the version and the checksum may be
absent from a table, or null.
-/

namespace SchemaLedger

open Document

def Version.ofValue? (value : Value) : Option Version :=
  value.text?.bind fun text => (Version.ofText text).toOption

def Version.toValue (version : Version) : Value := .text version.text

def Kind.ofValue? (value : Value) : Option Kind := value.tag?.bind Kind.ofTag?

def Status.ofValue? (value : Value) : Option Status := value.tag?.bind Status.ofTag?

namespace Row

def fieldNames : List String :=
  ["installed_rank", "version", "description", "migration_type", "script", "checksum",
    "execution_time_ms", "success", "installed_by", "installed_on"]

/-- The fields of a row; a list has to give all of them. -/
def fields? : Value → Option Fields
  | .list elements =>
      if elements.length = fieldNames.length then some (fieldNames.zip elements) else none
  | value => value.fields? fieldNames

def ofValue? (value : Value) : Option Row := do
  let fields ← fields? value
  let rank ← fields.require "installed_rank" (·.int? Int32.minValue.toInt Int32.maxValue.toInt)
  let version ← fields.get "version" (·.optional? Version.ofValue?) none
  let description ← fields.require "description" (·.text?)
  let kind ← fields.require "migration_type" Kind.ofValue?
  let script ← fields.require "script" (·.text?)
  let checksum ← fields.get "checksum" (·.optional? (·.int32?)) none
  let elapsed ←
    fields.require "execution_time_ms" (·.int? Int64.minValue.toInt Int64.maxValue.toInt)
  let success ← fields.require "success" (·.bool?)
  let installedBy ← fields.require "installed_by" (·.text?)
  let installedOn ← fields.require "installed_on" fun value => value.text?.bind Instant.ofText?
  return {
    rank, version, description, kind, script, checksum, elapsed, success, installedBy, installedOn }

def toValue (row : Row) : Value :=
  .table [
    ("installed_rank", .int row.rank),
    ("version", (row.version.map Version.toValue).getD .null),
    ("description", .text row.description),
    ("migration_type", .text row.kind.tag),
    ("script", .text row.script),
    ("checksum", (row.checksum.map fun checksum => .int checksum.toInt).getD .null),
    ("execution_time_ms", .int row.elapsed),
    ("success", .bool row.success),
    ("installed_by", .text row.installedBy),
    ("installed_on", .text row.installedOn.text)]

end Row

end SchemaLedger
