import MotionControl.Machine.StandardCodecs
import MotionControl.Proofs.Json.Layouts
import MotionControl.Proofs.Toml.Tables

/-! What is relied on of the libraries for the text formats of machine descriptions, and that writing and
reading JSON and TOML as these formats say does as much. -/
namespace MotionControl

/-- A JSON library reads what it has written, unless that is nested too deep, and keeps all but the numbers as
they were. A number comes back as `number` says, null in place of one that is not finite. -/
structure TextCodec.IsJson (codec : TextCodec) (number : Float → Document) : Prop where
  read_write {d : Document} {text : String} (written : Json.Written d) (shallow : d.depth < 128)
    (h : codec.write? d = some text) : codec.read? text = some (d.reread number true)
  not_finite {x : Float} (h : x.isFinite = false) : number x = .null

/-- A TOML library reads what it has written of a record with its values before its tables, unless that is
nested too deep. Every number is kept as it was, and no field without a value is. -/
structure TextCodec.IsToml (codec : TextCodec) : Prop where
  read_write {fields : Fields} {text : String} (tabular : Toml.Tabular fields)
    (shallow : Document.depthOfFields fields < Toml.depthLimit) (h : codec.write? (.record fields) = some text) :
    codec.read? text = some (.record (Document.rereadFields .float false fields))

theorem Json.isJson_codec : Json.codec.IsJson Json.numberDocument where
  read_write written _ h := by
    obtain rfl := Option.some.inj h
    exact Json.parse?_pretty written
  not_finite := Json.numberDocument_of_not_finite

theorem Toml.isToml_codec : Toml.codec.IsToml where
  read_write tabular shallow h := by
    obtain rfl := Option.some.inj h
    exact Toml.parse?_print tabular shallow

end MotionControl
