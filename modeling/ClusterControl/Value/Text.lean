import ClusterControl.Decimal.Shortest
import ClusterControl.Text.Quoted
import ClusterControl.Value.Basic

/-!
How values are written in messages: a text as it is, anything else by its literal.
-/

namespace ClusterControl.Value

mutual
/-- Texts are quoted, and lists and objects written out. -/
def literal : Value → String
  | .null => "None"
  | .bool b => if b then "True" else "False"
  | .int n => toString n
  | .float x => Decimal.shortest x
  | .str s => Text.quoted s
  | .list items => "[" ++ ", ".intercalate (itemLiterals items) ++ "]"
  | .obj fields => "\x7b" ++ ", ".intercalate (fieldLiterals fields) ++ "\x7d"

def itemLiterals : List Value → List String
  | [] => []
  | v :: vs => literal v :: itemLiterals vs

def fieldLiterals : List (String × Value) → List String
  | [] => []
  | (k, v) :: fs => (Text.quoted k ++ ": " ++ literal v) :: fieldLiterals fs
end

def text : Value → String
  | .str s => s
  | v => v.literal

@[simp] theorem text_str (s : String) : text (.str s) = s := rfl

end ClusterControl.Value
