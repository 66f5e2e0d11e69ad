/-! Documents of settings, as their text formats hold them. -/
namespace MotionControl

/-- A value of a settings document. Fields keep their order and may repeat a name. -/
inductive Document where
  | null
  | bool (value : Bool)
  | integer (value : Int)
  | float (value : Float)
  | string (value : String)
  | list (items : List Document)
  | record (fields : List (String × Document))
  /-- A date or a time of day, which no setting is. In place of a record it has no known field. -/
  | timestamp
  /-- Well-formed text without a value: a number out of range or half a surrogate pair. It does
  no harm where nothing reads it. -/
  | unreadable
  deriving Inhabited

/-- Fields of a record or, in order, of a list. -/
abbrev Fields := List (String × Document)

/-- The setting of one name, read or else its default. -/
def Fields.get {β : Type} (fields : Fields) (name : String) (read : Document → Option β)
    (default : Option β) : Option β :=
  match fields.lookup name with
  | some document => read document
  | none => default

namespace Document

mutual

/-- How deep lists and records are nested. -/
def depth : Document → Nat
  | .list items => depthOfItems items + 1
  | .record fields => depthOfFields fields + 1
  | _ => 0

def depthOfItems : List Document → Nat
  | [] => 0
  | item :: rest => max item.depth (depthOfItems rest)

def depthOfFields : List (String × Document) → Nat
  | [] => 0
  | (_, value) :: rest => max value.depth (depthOfFields rest)

end

mutual

/-- Whether every part of the document has a value. -/
def isReadable : Document → Bool
  | .list items => itemsReadable items
  | .record fields => fieldsReadable fields
  | .unreadable => false
  | _ => true

def itemsReadable : List Document → Bool
  | [] => true
  | item :: rest => item.isReadable && itemsReadable rest

def fieldsReadable : List (String × Document) → Bool
  | [] => true
  | (_, value) :: rest => value.isReadable && fieldsReadable rest

end

/-- The fields of a document of known field names. A list gives them in order, without names,
and only where `surplus` is set may it hold more of them; a record gives each of them once. -/
def fields? (names : List String) (surplus : Bool) : Document → Option Fields
  | .record fields =>
    if names.all fun name => fields.countP (·.1 == name) ≤ 1 then some fields else none
  | .list items =>
    if surplus || items.length ≤ names.length then some (names.zip items) else none
  | .timestamp => some []
  | _ => none

def bool? : Document → Option Bool
  | .bool value => some value
  | _ => none

def string? : Document → Option String
  | .string value => some value
  | _ => none

/-- A natural number below a bound. -/
def nat? (bound : Nat) : Document → Option Nat
  | .integer (.ofNat n) => if n < bound then some n else none
  | _ => none

/-- A number, whole or not. -/
def float? : Document → Option Float
  | .integer n => some (Float.ofInt n)
  | .float x => some x
  | _ => none

end Document

end MotionControl
