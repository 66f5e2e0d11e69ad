import MotionControl.Document

/-! The text formats of machine descriptions. Writing and reading text is left to libraries, which
are taken as they come. -/
namespace MotionControl

/-- A library for a text format. It may have no text for a document, and no document for a text. -/
structure TextCodec where
  write? : Document → Option String
  read? : String → Option Document

/-- The libraries for the two formats. -/
structure TextCodecs where
  json : TextCodec
  toml : TextCodec

end MotionControl
