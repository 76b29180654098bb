/-
Reading settings from structured values. A value that does not have the
shape that is wanted is refused with what was found and what was wanted;
fields are read in the order in which they are written, fields that are
not known do not count, and fields that are missing are noticed last.

A structure may also be written as a list of its fields in order.
-/
import TracedTransfer.Config.Settings
import TracedTransfer.Json.Writer
import TracedTransfer.Text.Blank
import TracedTransfer.Toml.Reader

namespace TracedTransfer.Config

open Plugin Text

-- ================================================================ errors

/-- Why a structured value was refused. -/
inductive ShapeError where
  | invalidType (found : Json) (expected : String)
  | invalidValue (found : Int) (expected : String)
  | invalidLength (found : Nat) (expected : String)
  | missingField (name : String)
  | unknownVariant (name : String) (variants : List String)
deriving Repr

namespace ShapeError

/-- A character of a string that is shown between quotes. -/
def shownChar (c : Char) : List Char :=
  if c = '\t' then ['\\', 't']
  else if c = '\n' then ['\\', 'n']
  else if c = '\r' then ['\\', 'r']
  else if c = '\x00' then ['\\', '0']
  else if c = '"' || c = '\\' then ['\\', c]
  else if isControl c || (isBlank c && c ≠ ' ') then
    "\\u\x7b".toList ++ Nat.toDigits 16 c.toNat ++ ['\x7d']
  else [c]

/-- A string between quotes. -/
def shownString (s : String) : String :=
  String.ofList ('"' :: s.toList.flatMap shownChar ++ ['"'])

/-- The digits of a floating-point number without an exponent. -/
def positional (d : Binary64.Decimal) : List Char :=
  let ds := decimal d.digits
  let point : Int := ds.length + d.exponent
  if 0 ≤ d.exponent then ds ++ List.replicate d.exponent.toNat '0' ++ ['.', '0']
  else if 0 < point then ds.take point.toNat ++ '.' :: ds.drop point.toNat
  else ['0', '.'] ++ List.replicate (-point).toNat '0' ++ ds

/-- A floating-point number with a point, never with an exponent. -/
def shownFloat : Binary64 → List Char
  | .nan => "NaN".toList
  | .infinite negative => (if negative then ['-'] else []) ++ "inf".toList
  | .finite negative m q =>
    (if negative then ['-'] else [])
      ++ (if m = 0 then ['0', '.', '0'] else positional (Binary64.digits m q))

/-- What was found, in words. -/
def found : Json → String
  | .null => "null"
  | .bool b => "boolean \x60" ++ (if b then "true" else "false") ++ "\x60"
  | .int n => "integer \x60" ++ String.ofList (Json.intText n) ++ "\x60"
  | .float x => "floating point \x60" ++ String.ofList (shownFloat x) ++ "\x60"
  | .str s => "string " ++ shownString s
  | .arr _ => "sequence"
  | .obj _ => "map"

/-- Names between quotes, joined by `or`. -/
def alternatives (names : List String) : String :=
  " or ".intercalate (names.map fun n => "\x60" ++ n ++ "\x60")

/-- The text of a refusal. -/
def message : ShapeError → String
  | .invalidType f e => "invalid type: " ++ found f ++ ", expected " ++ e
  | .invalidValue n e => "invalid value: " ++ found (.int n) ++ ", expected " ++ e
  | .invalidLength n e => "invalid length " ++ Nat.repr n ++ ", expected " ++ e
  | .missingField n => "missing field \x60" ++ n ++ "\x60"
  | .unknownVariant n vs => "unknown variant \x60" ++ n ++ "\x60, expected " ++ alternatives vs

end ShapeError

/-- What a structured value is read to. -/
abbrev Shaped := Except ShapeError

-- ================================================================ scalars

/-- An unsigned number below a bound. -/
def unsignedNumber (bound : Nat) (name : String) : Json → Shaped Nat
  | .int n => if 0 ≤ n && n < bound then .ok n.toNat else .error (.invalidValue n name)
  | j => .error (.invalidType j name)

/-- An unsigned number of sixty-four bits. -/
def u64 : Json → Shaped Nat := unsignedNumber u64Bound "u64"

/-- An unsigned number of thirty-two bits. -/
def u32 : Json → Shaped Nat := unsignedNumber 4294967296 "u32"

/-- A string. `expected` is what it is wanted for. -/
def textFor (expected : String) : Json → Shaped String
  | .str s => .ok s
  | j => .error (.invalidType j expected)

/-- A string. -/
def plainText : Json → Shaped String := textFor "a string"

/-- A field that must be there. -/
def required {α : Type} (name : String) : Option α → Shaped α
  | some a => .ok a
  | none => .error (.missingField name)

-- ============================================================ repositories

/-- The kinds of repositories. -/
inductive Kind where
  | portal
  | maven
deriving DecidableEq, Repr

/-- The kind of a repository by its name. -/
def Kind.read (j : Json) : Shaped Kind := do
  match ← textFor "variant identifier" j with
  | "plugin_portal" => return .portal
  | "maven" => return .maven
  | name => throw (.unknownVariant name ["plugin_portal", "maven"])

/-- The kind among members, and the other members. -/
def splitKind : List (String × Json) → Shaped (Option Kind × List (String × Json))
  | [] => .ok (none, [])
  | (name, v) :: rest => do
    if name = "type" then
      let kind ← Kind.read v
      let (_, others) ← splitKind rest
      return (some kind, others)
    else
      let (kind, others) ← splitKind rest
      return (kind, (name, v) :: others)

/-- Name and URL of a repository as far as they are known. -/
structure MavenFields where
  name : Option String
  url : Option String

/-- The fields after one more member. -/
def MavenFields.add (f : MavenFields) (m : String × Json) : Shaped MavenFields :=
  match m.1 with
  | "name" => (plainText m.2).map fun s => { f with name := some s }
  | "url" => (plainText m.2).map fun s => { f with url := some s }
  | _ => .ok f

/-- A repository from its members but the kind. -/
def mavenOfMembers (ms : List (String × Json)) : Shaped Declaration := do
  let f ← ms.foldlM MavenFields.add ⟨none, none⟩
  return .maven (← required "name" f.name) (← required "url" f.url)

/-- A repository from its fields in order but the kind. -/
def mavenOfItems (items : List Json) : Shaped Declaration :=
  let wanted := "struct variant RepositoryConfig::Maven with 2 elements"
  match items with
  | [] => .error (.invalidLength 0 wanted)
  | [name] => do
    let _ ← plainText name
    throw (.invalidLength 1 wanted)
  | name :: url :: rest => do
    let d := Declaration.maven (← plainText name) (← plainText url)
    if rest.isEmpty then return d
    else throw (.invalidLength (2 + rest.length) "2 elements in sequence")

/-- A repository. -/
def declaration : Json → Shaped Declaration
  | .obj ms => do
    let (kind, others) ← splitKind ms
    match ← required "type" kind with
    | .portal => return .portal
    | .maven => mavenOfMembers others
  | .arr items => do
    match ← required "type" items.head? >>= Kind.read with
    | .portal => return .portal
    | .maven => mavenOfItems items.tail
  | j => .error (.invalidType j "internally tagged enum RepositoryConfig")

/-- A list of repositories. -/
def declarations : Json → Shaped (List Declaration)
  | .arr items => items.mapM declaration
  | j => .error (.invalidType j "a sequence")

-- ================================================================= pins

/-- Pins from the members of a map. -/
def pins : Json → Shaped Pins
  | .obj ms => do
    let ps ← ms.mapM fun (m : String × Json) => (plainText m.2).map fun s => (m.1, s)
    return Pins.ofList ps
  | j => .error (.invalidType j "a map")

/-- The settings for plugins after one more member. -/
def PluginSettings.add (s : PluginSettings) (m : String × Json) : Shaped PluginSettings :=
  match m.1 with
  | "repositories" => (declarations m.2).map fun rs => { s with repositories := rs }
  | "resolution" => (pins m.2).map fun ps => { s with resolution := ps }
  | _ => .ok s

/-- The settings for plugins. -/
def pluginSettings : Json → Shaped PluginSettings
  | .obj ms => ms.foldlM PluginSettings.add .empty
  | .arr items => (["repositories", "resolution"].zip items).foldlM PluginSettings.add .empty
  | j => .error (.invalidType j "struct PluginManagementConfig")

-- =============================================================== settings

/-- The settings as far as they are known. -/
structure Fields where
  connectTimeoutSecs : Option Nat
  timeoutSecs : Option Nat
  lowSpeedLimitBytes : Option Nat
  lowSpeedTimeSecs : Option Nat
  maxRedirects : Option Nat
  traceFile : Option String
  plugins : Option PluginSettings

namespace Fields

/-- Nothing is known. -/
def empty : Fields := ⟨none, none, none, none, none, none, none⟩

/-- The settings after one more member. -/
def add (f : Fields) (m : String × Json) : Shaped Fields :=
  match m.1 with
  | "connect_timeout_secs" => (u64 m.2).map fun n => { f with connectTimeoutSecs := some n }
  | "timeout_secs" => (u64 m.2).map fun n => { f with timeoutSecs := some n }
  | "low_speed_limit_bytes" => (u32 m.2).map fun n => { f with lowSpeedLimitBytes := some n }
  | "low_speed_time_secs" => (u64 m.2).map fun n => { f with lowSpeedTimeSecs := some n }
  | "max_redirects" => (u32 m.2).map fun n => { f with maxRedirects := some n }
  | "trace_file" => (textFor "path string" m.2).map fun s => { f with traceFile := some s }
  | "plugin_management" => (pluginSettings m.2).map fun s => { f with plugins := some s }
  | _ => .ok f

/-- The settings, unless a field is missing. -/
def settings (f : Fields) : Shaped Settings := do
  return {
    connectTimeoutSecs := ← required "connect_timeout_secs" f.connectTimeoutSecs
    timeoutSecs := ← required "timeout_secs" f.timeoutSecs
    lowSpeedLimitBytes := ← required "low_speed_limit_bytes" f.lowSpeedLimitBytes
    lowSpeedTimeSecs := ← required "low_speed_time_secs" f.lowSpeedTimeSecs
    maxRedirects := ← required "max_redirects" f.maxRedirects
    traceFile := f.traceFile
    plugins := f.plugins }

end Fields

/-- The settings from the members of a map. -/
def settings (ms : List (String × Json)) : Shaped Settings := do
  (← ms.foldlM Fields.add .empty).settings

end TracedTransfer.Config
