import ClusterControl.Decimal.Exact

/-!
Values as the cluster sends and receives them: manifests, stored objects, names read from manifests.
Nothing is known about their shape until it is looked at, so every look can fail.
-/

namespace ClusterControl

/-- The fields of an object stand in the order in which they were written, each name once. -/
inductive Value where
  | null
  | bool (b : Bool)
  | int (n : Int)
  | float (x : Float)
  | str (s : String)
  | list (items : List Value)
  | obj (fields : List (String × Value))
  deriving Inhabited

/-- A look at a value that its shape does not allow. -/
inductive Malformed where
  /-- A field of something that has no fields. -/
  | field
  /-- An operation on something of the wrong sort, such as the items of a number. -/
  | sort
  deriving Repr, DecidableEq, Inhabited

namespace Value

instance : Coe String Value := ⟨.str⟩

def ofOption : Option String → Value
  | none => .null
  | some s => .str s

def isNull : Value → Bool
  | .null => true
  | _ => false

/-- Absent, empty and zero values count as no. -/
def truthy : Value → Bool
  | .null => false
  | .bool b => b
  | .int n => n != 0
  | .float x => !(x == 0)
  | .str s => s != ""
  | .list items => !items.isEmpty
  | .obj fields => !fields.isEmpty

/-! ## Fields -/

/-- A field of an object; one that was not written has no value. -/
def field (v : Value) (name : String) : Except Malformed Value :=
  match v with
  | .obj fields => .ok ((fields.lookup name).getD .null)
  | _ => .error .field

/-- A field of an object, or `default` if it was not written. -/
def fieldOr (v : Value) (name : String) (default : Value) : Except Malformed Value :=
  match v with
  | .obj fields => .ok ((fields.lookup name).getD default)
  | _ => .error .field

/-- A field that is asked for even of things that have none. -/
def field? (v : Value) (name : String) : Value :=
  match v with
  | .obj fields => (fields.lookup name).getD .null
  | _ => .null

@[simp] theorem field_obj (fields : List (String × Value)) (name : String) :
    (obj fields).field name = .ok ((fields.lookup name).getD .null) := rfl

theorem field_eq_ok_field? {v w : Value} {name : String} (h : v.field name = .ok w) :
    v.field? name = w := by
  cases v <;> simp_all [field, field?]

mutual
/-- Leaves out the fields that have no value, of every object inside. The items of a list all stay. -/
def pruned : Value → Value
  | .list items => .list (prunedItems items)
  | .obj fields => .obj (prunedFields fields)
  | v => v

def prunedItems : List Value → List Value
  | [] => []
  | v :: vs => pruned v :: prunedItems vs

def prunedFields : List (String × Value) → List (String × Value)
  | [] => []
  | (_, .null) :: fs => prunedFields fs
  | (k, v) :: fs => (k, pruned v) :: prunedFields fs
end

/-! ## Items -/

/-- The items of a list, or the characters of a text. -/
def items : Value → Except Malformed (List Value)
  | .list vs => .ok vs
  | .str s => .ok (s.toList.map fun c => .str (String.singleton c))
  | _ => .error .sort

/-- The items of a list that may be absent. An object in its place is never taken for absent. -/
def itemsOrNone (v : Value) : Except Malformed (List Value) :=
  match v with
  | .obj _ => .error .sort
  | v => if v.truthy then v.items else .ok []

def count (v : Value) : Except Malformed Nat := v.items.map List.length

/-! ## Equality -/

def number? : Value → Option Decimal.Exact
  | .bool b => some (.ofInt (if b then 1 else 0))
  | .int n => some (.ofInt n)
  | .float x => some (.ofFloat x)
  | _ => none

end Value

/-- The two zeros are one number, and what is not a number equals nothing. -/
def Decimal.Exact.same : Decimal.Exact → Decimal.Exact → Bool
  | .finite s a b, .finite t c d => a * d == c * b && (s == t || a == 0)
  | .infinite s, .infinite t => s == t
  | _, _ => false

namespace Value

mutual
/-- Numbers are equal as numbers, and objects whatever the order of their fields. -/
def same : Value → Value → Bool
  | .null, .null => true
  | .str s, .str t => s == t
  | .list vs, .list ws => sameItems vs ws
  | .obj fs, .obj gs => fs.length == gs.length && sameFields fs gs
  | .bool b, w => sameNumber (.bool b) w
  | .int n, w => sameNumber (.int n) w
  | .float x, w => sameNumber (.float x) w
  | _, _ => false

def sameItems : List Value → List Value → Bool
  | [], [] => true
  | v :: vs, w :: ws => same v w && sameItems vs ws
  | _, _ => false

def sameFields : List (String × Value) → List (String × Value) → Bool
  | [], _ => true
  | (k, v) :: fs, gs =>
    (match gs.lookup k with
      | some w => same v w
      | none => false) && sameFields fs gs

def sameNumber (v w : Value) : Bool :=
  match v.number?, w.number? with
  | some a, some b => a.same b
  | _, _ => false
end

@[simp] theorem same_str (s t : String) : same (.str s) (.str t) = (s == t) := by simp [same]

end Value

end ClusterControl
