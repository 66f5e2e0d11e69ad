import MotionControl.Machine.Decoding
import MotionControl.Machine.Encoding
import MotionControl.Machine.TextCodec
import MotionControl.Machine.Validation

/-! Machine descriptions in files. The extension of the path selects the format. -/
namespace MotionControl

def FileFormat.ofPath? (path : String) : Option FileFormat :=
  match Path.extension? path with
  | some "json" => some .json
  | some "toml" => some .toml
  | _ => none

namespace TextCodecs

def ofFormat (codecs : TextCodecs) : FileFormat → TextCodec
  | .json => codecs.json
  | .toml => codecs.toml

/-- A machine description from text of a format, its values not checked. -/
def machine? (codecs : TextCodecs) (format : FileFormat) (content : String) :
    Option (MachineDescription Float) := do
  MachineDescription.ofDocument format (← (codecs.ofFormat format).read? content)

/-- A machine description from TOML text, its values checked. -/
def ofTomlText (codecs : TextCodecs) (content : String) :
    Except SettingsError (MachineDescription Float) :=
  match codecs.machine? .toml content with
  | none => .error .toml
  | some machine => machine.validate.map fun _ => machine

/-- A machine description from the content of the file at `path`. The file is read before its
extension is looked at. -/
def load (codecs : TextCodecs) (path : String) (file : Except FileProblem ByteArray) :
    Except SettingsError (MachineDescription Float) := do
  let bytes ← file.mapError (SettingsError.read path)
  let content ← match String.fromUTF8? bytes with
    | some content => .ok content
    | none => .error (.read path .notUtf8)
  let machine ← match FileFormat.ofPath? path with
    | some .json => (codecs.machine? .json content).elim (.error .json) .ok
    | some .toml => (codecs.machine? .toml content).elim (.error .toml) .ok
    | none => .error (.range (.unsupportedFormat path))
  machine.validate
  return machine

/-- The text that saving to `path` writes. -/
def save (codecs : TextCodecs) (machine : MachineDescription Float) (path : String) :
    Except SettingsError String := do
  machine.validate
  match FileFormat.ofPath? path with
  | some .json => (codecs.json.write? machine.toDocument).elim (.error .json) .ok
  | some .toml => (codecs.toml.write? machine.toDocument).elim (.error .tomlWriting) .ok
  | none => throw (.range (.unsupportedFormat path))

end TextCodecs

/-- Where the description of a user's machine is kept, below the directory for configuration. A
platform may have no such directory. -/
def MachineDescription.defaultPath (configuration : Option String) : Except SettingsError String :=
  match configuration with
  | some directory => .ok (Path.join (Path.join directory "motionkit") "machine.toml")
  | none => .error (.range (.unsupportedPlatform "linux"))

end MotionControl
