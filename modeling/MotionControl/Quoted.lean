import MotionControl.Visible

/-! Text shown between quotes for diagnosis, every character of it visible. -/
namespace MotionControl.Quoted

/-- A character that would be lost or change its neighbour is shown by its code. -/
def shown (c : Char) : String :=
  match c with
  | '\x00' => "\\0"
  | '\t' => "\\t"
  | '\n' => "\\n"
  | '\r' => "\\r"
  | '\\' => "\\\\"
  | '\x22' => "\\\""
  | c =>
    if isVisible c then c.toString
    else "\\u\x7b" ++ String.ofList (Nat.toDigits 16 c.toNat) ++ "\x7d"

def text (s : String) : String := "\"" ++ String.join (s.toList.map shown) ++ "\""

end MotionControl.Quoted
