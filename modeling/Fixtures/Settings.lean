/-
Settings files: a TOML document says which options differ from their defaults.
-/
import Fixtures.FileSystem.Basic
import Fixtures.Options.Reader
import Fixtures.Toml.Reader

namespace Fixtures

/-- The reasons for which settings are refused. -/
inductive SettingsError where
  | file (e : FileError)
  /-- The text is no settings document. -/
  | decode
  | notFound (p : Path)
  deriving DecidableEq

namespace SettingsError

/-- Which file is missing. -/
def missing (p : Path) : String := "settings file not found: " ++ p.display

def message : SettingsError → String
  | file e => "io error: " ++ e.message
  | decode => "toml decode error"
  | notFound p => missing p

end SettingsError

namespace Settings

/-- The file that is read if no other is named. -/
def standardFile : Path := .ofText "fixturegen.toml"

/-- The options that a settings text gives. -/
def read? (cs : List Char) : Option Options := (Toml.read? cs).bind Options.ofDocument?

/-- The options that a settings file gives. -/
def ofFile (p : Path) (fs : FileSystem) : Except SettingsError Options :=
  match fs.readText p with
  | .error e => .error (.file e)
  | .ok s =>
    match read? s.toList with
    | some o => .ok o
    | none => .error .decode

/-- The options that the named file gives, which has to be there, or the standard file, or else the
defaults. -/
def load (named : Option Path) (fs : FileSystem) : Except SettingsError Options :=
  match named with
  | some p => if fs.exists? p then ofFile p fs else .error (.notFound p)
  | none => if fs.exists? standardFile then ofFile standardFile fs else .ok {}

end Settings

end Fixtures
