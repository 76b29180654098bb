/-
Settings as TOML: reading them from a text, and the statements that
write them.
-/
import TracedTransfer.Config.Shape
import TracedTransfer.Toml.Printer

namespace TracedTransfer.Config

open Plugin

-- ============================================================== reading

/-- The one field of the map that a date or a time is read as. -/
def datetimeField : String := "$__toml_private_datetime"

mutual

/-- A TOML value as a structured value. -/
def shapeOf : Toml → Json
  | .string s => .str s
  | .integer n => .int n
  | .float x => .float x
  | .boolean b => .bool b
  | .datetime t => .obj [(datetimeField, .str t)]
  | .array vs => .arr (shapesOf vs)
  | .table es => .obj (membersOf es)

/-- TOML values as structured values. -/
def shapesOf : List Toml → List Json
  | [] => []
  | v :: rest => shapeOf v :: shapesOf rest

/-- The entries of a TOML table as members. -/
def membersOf : List (String × Toml) → List (String × Json)
  | [] => []
  | (k, v) :: rest => (k, shapeOf v) :: membersOf rest

end

/-- Why a text holds no settings. -/
inductive ReadError where
  /-- The text is not TOML. -/
  | notToml
  | shape (cause : ShapeError)

/-- The settings that a text holds. -/
def read (s : String) : Except ReadError Settings :=
  match Toml.parse s with
  | none => .error .notToml
  | some es =>
    match settings (membersOf es) with
    | .ok c => .ok c
    | .error e => .error (.shape e)

-- ============================================================== writing

/-- An entry of a whole number. -/
def numberEntry (key : String) (n : Nat) : Toml.Statement := .entry [] key (.integer n)

/-- An entry of a string. -/
def textEntry (key value : String) : Toml.Statement := .entry [] key (.string value)

/-- The statements of a repository. -/
def declarationStatements : Declaration → List Toml.Statement
  | .portal =>
    [.element ["plugin_management"] "repositories", textEntry "type" "plugin_portal"]
  | .maven name url =>
    [.element ["plugin_management"] "repositories", textEntry "type" "maven",
      textEntry "name" name, textEntry "url" url]

/-- The statements of the settings for plugins. The table of all of them has a header of its own
only if a value stands in it. -/
def PluginSettings.statements (s : PluginSettings) : List Toml.Statement :=
  (if s.repositories.isEmpty then
      [.table [] "plugin_management", .entry [] "repositories" (.array [])]
    else s.repositories.flatMap declarationStatements)
    ++ .table ["plugin_management"] "resolution" :: s.resolution.map fun p => textEntry p.1 p.2

/-- The statements of settings. -/
def Settings.statements (s : Settings) : List Toml.Statement :=
  [numberEntry "connect_timeout_secs" s.connectTimeoutSecs,
    numberEntry "timeout_secs" s.timeoutSecs,
    numberEntry "low_speed_limit_bytes" s.lowSpeedLimitBytes,
    numberEntry "low_speed_time_secs" s.lowSpeedTimeSecs,
    numberEntry "max_redirects" s.maxRedirects]
    ++ s.traceFile.toList.map (textEntry "trace_file")
    ++ s.plugins.toList.flatMap PluginSettings.statements

/-- The text of settings. -/
def Settings.text (s : Settings) : String :=
  String.ofList (Toml.printStatements s.statements)

/-- Whether the numbers of settings are whole numbers of TOML. -/
def Settings.isWritable (s : Settings) : Bool :=
  [s.connectTimeoutSecs, s.timeoutSecs, s.lowSpeedLimitBytes, s.lowSpeedTimeSecs,
    s.maxRedirects].all fun n => Toml.isWhole n

/-- The text of settings, unless it cannot be written. -/
def Settings.print? (s : Settings) : Option String := if s.isWritable then some s.text else none

end TracedTransfer.Config
