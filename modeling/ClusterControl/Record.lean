import ClusterControl.Decimal.Reader
import ClusterControl.Time.Basic
import ClusterControl.Value.Basic

/-!
Typed records read from named values. Every field is looked at, so a record that does not fit reports
all its issues and not only the first. Names that a record does not know are ignored.
-/

namespace ClusterControl

inductive Problem where
  | missing
  | notText
  | notNumber
  | unreadableNumber
  | notFlag
  | unreadableFlag
  | notList
  | notAbove
  | notAtLeast
  | frozen
  deriving Repr, DecidableEq

structure Issue where
  location : List String
  problem : Problem
  deriving Repr, DecidableEq

inductive Checked (α : Type) where
  | valid (a : α)
  | invalid (issues : List Issue)

namespace Checked

variable {α β : Type}

def map (f : α → β) : Checked α → Checked β
  | .valid a => .valid (f a)
  | .invalid issues => .invalid issues

/-- The issues of both sides are kept. -/
def both (f : Checked (α → β)) (x : Checked α) : Checked β :=
  match f, x with
  | .valid f, .valid a => .valid (f a)
  | .valid _, .invalid issues => .invalid issues
  | .invalid issues, .valid _ => .invalid issues
  | .invalid issues, .invalid more => .invalid (issues ++ more)

instance : Applicative Checked where
  map := map
  pure := valid
  seq f x := both f (x ())

def under (name : String) : Checked α → Checked α
  | .valid a => .valid a
  | .invalid issues => .invalid (issues.map fun i => { i with location := name :: i.location })

def problem (p : Problem) : Checked α := .invalid [⟨[], p⟩]

end Checked

namespace Record

abbrev Fields := List (String × Value)

abbrev Reader (α : Type) := Value → Checked α

variable {α : Type} {τ : Type} [Time τ]

/-- A field that must be written. -/
def required (fields : Fields) (name : String) (read : Reader α) : Checked α :=
  match fields.lookup name with
  | none => .invalid [⟨[name], .missing⟩]
  | some v => (read v).under name

def optional (fields : Fields) (name : String) (default : α) (read : Reader α) : Checked α :=
  match fields.lookup name with
  | none => .valid default
  | some v => (read v).under name

/-- A record cannot be changed once it is read. -/
def assign (name : String) : Checked α := .invalid [⟨[name], .frozen⟩]

/-! ## Readers -/

def text : Reader String
  | .str s => .valid s
  | _ => .problem .notText

def orNone (read : Reader α) : Reader (Option α)
  | .null => .valid none
  | v => (read v).map some

def flagWords : List (String × Bool) :=
  [("true", true), ("1", true), ("yes", true), ("on", true), ("t", true), ("y", true),
   ("false", false), ("0", false), ("no", false), ("off", false), ("f", false), ("n", false)]

def isWord (n : Int) : Bool := -0x8000000000000000 ≤ n && n < 0x8000000000000000

/-- The smallest word is not among the doubles that stand for one. -/
def isWholeWord (x : Float) : Bool :=
  x.floor == x && -9223372036854775808.0 < x && x < 9223372036854775808.0

/-- Words are matched in any case, but blanks around them are not dropped. Of the numbers one and zero
are flags; the others that fit into 64 bits are flags that cannot be read. -/
def flag : Reader Bool
  | .bool b => .valid b
  | .str s => match flagWords.lookup (s.map Char.toLower) with
    | some b => .valid b
    | none => .problem .unreadableFlag
  | .int n =>
    if n = 1 then .valid true
    else if n = 0 then .valid false
    else .problem (if isWord n then .unreadableFlag else .notFlag)
  | .float x =>
    if x == 1.0 then .valid true
    else if x == 0.0 then .valid false
    else .problem (if isWholeWord x then .unreadableFlag else .notFlag)
  | _ => .problem .notFlag

def number : Reader τ
  | .bool b => .valid (Time.ofInt (if b then 1 else 0))
  | .int n => if Time.inRange τ n then .valid (Time.ofInt n) else .problem .notNumber
  | .float x => .valid (Time.ofFloat x)
  | .str s => match Decimal.read? s with
    | some x => .valid (Time.ofFloat x)
    | none => .problem .unreadableNumber
  | _ => .problem .notNumber

def require (refused : α → Bool) (p : Problem) (read : Reader α) : Reader α := fun v =>
  match read v with
  | .valid a => if refused a then .problem p else .valid a
  | bad => bad

/-- A duration above zero. What cannot be compared with zero is not above it. -/
def interval : Reader τ := require (fun t => decide (¬ 0 < t)) .notAbove number

/-- A duration of zero or more. -/
def timeout : Reader τ := require (fun t => decide (¬ 0 ≤ t)) .notAtLeast number

/-- Each item that does not fit is located by its index. -/
def itemsFrom (read : Reader α) : Nat → List Value → Checked (List α)
  | _, [] => .valid []
  | i, v :: vs =>
    Checked.both (((read v).under (toString i)).map List.cons) (itemsFrom read (i + 1) vs)

def items (read : Reader α) : Reader (List α)
  | .list vs => itemsFrom read 0 vs
  | _ => .problem .notList

end Record

end ClusterControl
