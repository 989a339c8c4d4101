/-!
# Log settings

How the settings of the environment decide what is logged, and in which form. Letters of any size
count alike, and a setting that is not understood counts as absent.
-/

namespace SchemaLedger

inductive LogFormat where
  /-- One object to an event. -/
  | json
  /-- Several lines to an event. -/
  | pretty
  /-- One line to an event. -/
  | compact
  deriving DecidableEq

/-- The least severe events that are logged. -/
inductive LogLevel where
  | trace
  | debug
  | info
  | warn
  | error
  deriving DecidableEq

namespace LogFormat

def text : LogFormat → String
  | json => "json"
  | pretty => "pretty"
  | compact => "compact"

/-- The format that a setting names, or else objects. -/
def ofSetting (setting : Option String) : LogFormat :=
  match setting.map String.toLower with
  | some "pretty" => pretty
  | some "compact" => compact
  | _ => json

end LogFormat

namespace LogLevel

def text : LogLevel → String
  | trace => "trace"
  | debug => "debug"
  | info => "info"
  | warn => "warn"
  | error => "error"

def all : List LogLevel := [trace, debug, info, warn, error]

def named? (setting : String) : Option LogLevel := all.find? (·.text == setting.toLower)

/-- The level that a setting names, or else the one that debugging asks for. -/
def ofSetting (debugging : Bool) (setting : Option String) : LogLevel :=
  (setting.bind named?).getD (if debugging then debug else warn)

end LogLevel

structure LogSettings where
  debug : Bool
  level : LogLevel
  format : LogFormat

namespace LogSettings

def isDebug (setting : Option String) : Bool :=
  setting.any fun setting => ["true", "1", "yes"].contains setting.toLower

def ofEnvironment (debug level format : Option String) : LogSettings where
  debug := isDebug debug
  level := .ofSetting (isDebug debug) level
  format := .ofSetting format

end LogSettings

end SchemaLedger
