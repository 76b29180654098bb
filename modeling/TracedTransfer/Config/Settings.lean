/-
The settings of the program: the limits of transfers, where to trace
operations, and the management of plugins.
-/
import TracedTransfer.Http.Client
import TracedTransfer.Plugin.Management

namespace TracedTransfer.Config

open Plugin

/-- The settings for plugins. -/
structure PluginSettings where
  repositories : List Declaration
  resolution : Pins
deriving DecidableEq, Repr

namespace PluginSettings

/-- No repositories and no pins. -/
def empty : PluginSettings := ⟨[], []⟩

/-- The management that the settings describe. -/
def management (s : PluginSettings) : Except Io.Chain Management :=
  match (⟨[], s.resolution⟩ : Management).apply s.repositories with
  | (m, .ok ()) => .ok m
  | (_, .error e) => .error (.known "plugin_management.repositories" :: e.chain)

end PluginSettings

/-- The settings of the program. -/
structure Settings where
  connectTimeoutSecs : Nat
  timeoutSecs : Nat
  lowSpeedLimitBytes : Nat
  lowSpeedTimeSecs : Nat
  maxRedirects : Nat
  /-- The file that takes a line for each operation. -/
  traceFile : Option String
  plugins : Option PluginSettings
deriving DecidableEq, Repr

namespace Settings

/-- The settings of a program that has none. -/
def default : Settings := ⟨15, 3600, 1024, 60, 10, none, none⟩

/-- The limits of transfers. -/
def httpOptions (s : Settings) : Http.Options :=
  ⟨s.connectTimeoutSecs, s.timeoutSecs, s.lowSpeedLimitBytes, s.lowSpeedTimeSecs, s.maxRedirects⟩

end Settings

end TracedTransfer.Config
