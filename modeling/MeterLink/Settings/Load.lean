import MeterLink.Settings.File

/-!
# Where settings come from

First the file, then the environment, then the check. A file that a person pointed at must be
readable; one that was merely found is left aside with a warning when it is broken.
-/

namespace MeterLink

/-- A settings file, with its text or why it cannot be read. -/
structure SettingsFile where
  path : String
  /-- A person named the file. -/
  pointedAt : Bool
  content : Except String String

/-- Settings, and what came up while they were put together. -/
structure LoadedSettings where
  settings : Settings
  /-- The file that they come from. -/
  path : Option String
  warnings : List String
deriving DecidableEq, Repr

namespace Settings

/-- Reads the settings of a file. -/
def readFile (file : SettingsFile) : Except SettingsFault Settings :=
  match file.content with
  | .error message => .error (.unreadable file.path message)
  | .ok text => (ofFile text).mapError fun fault => .badFile (file.path ++ ": " ++ fault)

/-- The settings of a file, or the defaults. -/
def resolve : Option SettingsFile → Except SettingsFault LoadedSettings
  | none => .ok ⟨{}, none, []⟩
  | some file =>
    match readFile file with
    | .ok settings => .ok ⟨settings, some file.path, []⟩
    | .error fault =>
      if file.pointedAt then .error fault
      else .ok ⟨{}, none, [fault.message ++ ", using defaults"]⟩

/-- Replaces the host, unless the text is blank. -/
def overrideHost (text : Option String) (s : Settings) : Settings :=
  match text.map trimmed with
  | some host =>
    if host.isEmpty then s else { s with meter := { s.meter with host := some host } }
  | none => s

def overridePort (text : Option String) (s : Settings) : Except SettingsFault Settings :=
  match text with
  | none => .ok s
  | some text =>
    match boundedNumeral? 0xffff (trimBlank text.toList) with
    | some n => .ok { s with meter := { s.meter with port := UInt16.ofNat n } }
    | none => .error (.notPort "EMLITE_PORT" text)

/-- Replaces the time limits for connecting, sending and receiving. -/
def overrideTimeouts (text : Option String) (s : Settings) : Except SettingsFault Settings :=
  match text with
  | none => .ok s
  | some text =>
    match boundedNumeral? 0xffffffffffffffff (trimBlank text.toList) with
    | some n =>
      let seconds := UInt64.ofNat n
      .ok { s with
        transport := { s.transport with connectTimeout := seconds, ioTimeout := seconds } }
    | none => .error (.notSeconds "EMLITE_TIMEOUT_SECONDS" text)

/-- Replaces what the environment sets. -/
def override (environment : String → Option String) (s : Settings) :
    Except SettingsFault Settings := do
  let s := overrideHost (environment "EMLITE_HOST") s
  let s ← overridePort (environment "EMLITE_PORT") s
  overrideTimeouts (environment "EMLITE_TIMEOUT_SECONDS") s

/-- The settings of a file and the environment, once they have been checked. -/
def load (file : Option SettingsFile) (environment : String → Option String) :
    Except Failure LoadedSettings :=
  Except.mapError .settings do
    let loaded ← resolve file
    let settings ← loaded.settings.override environment
    settings.check
    return { loaded with settings }

end Settings

end MeterLink
