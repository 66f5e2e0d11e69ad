/-! The formats of machine descriptions. -/
namespace MotionControl

inductive FileFormat where
  | json
  | toml
  deriving DecidableEq, Repr

namespace FileFormat

/-- Whether a list in place of a record may hold more than its fields. -/
def allowsSurplus : FileFormat → Bool
  | json => false
  | toml => true

/-- How deep kinematics may be nested. TOML has its own limits on every key and list instead. -/
def depthLimit : FileFormat → Option Nat
  | json => some 126
  | toml => none

end FileFormat

end MotionControl
