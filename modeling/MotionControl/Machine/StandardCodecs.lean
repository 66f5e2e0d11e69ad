import MotionControl.Json.Parser
import MotionControl.Json.Printer
import MotionControl.Machine.TextCodec
import MotionControl.Toml.Parser
import MotionControl.Toml.Printer

/-! The text of machine descriptions as JSON, indented, and as TOML 1.0. -/
namespace MotionControl

def Json.codec : TextCodec where
  write? document := some (pretty document)
  read? := parse?

/-- TOML text is that of a record. -/
def Toml.codec : TextCodec where
  write?
    | .record fields => some (print fields)
    | _ => none
  read? := parse?

def TextCodecs.standard : TextCodecs := ⟨Json.codec, Toml.codec⟩

end MotionControl
