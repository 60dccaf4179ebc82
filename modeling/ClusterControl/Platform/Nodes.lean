import ClusterControl.Resource.Access

/-!
What the nodes of a cluster tell about it: their labels, the machines they run on, their addresses.
-/

namespace ClusterControl.Node

variable {τ : Type} [Time τ]

def all (c : Connection) : Op τ (List Value) := do
  Op.look (← Resource.list c .node .null .null).items

/-- A node without labels has an empty set of them. -/
def labels (node : Value) : Except Malformed Value := do
  let labels := (← node.field "metadata").field? "labels"
  pure (if labels.truthy then labels else .obj [])

def label (node : Value) (name : String) : Except Malformed Value := do
  (← labels node).field name

/-- The part stands somewhere in the text. -/
def hasPart (part : List Char) : List Char → Bool
  | [] => part.isEmpty
  | c :: cs => part.isPrefixOf (c :: cs) || hasPart part cs

/-- The label is there, whatever its value. In a list the labels are the items, in a text its parts. -/
def hasLabel (node : Value) (name : String) : Except Malformed Bool := do
  match ← labels node with
  | .obj fields => pure (fields.any fun f => f.1 == name)
  | .list items => pure (items.any fun v => v.same name)
  | .str s => pure (hasPart name.toList s.toList)
  | _ => .error .sort

/-- The machine that a node runs on, as its provider writes it, begins with the name of the provider. -/
def providedBy (node : Value) (provider : String) : Except Malformed Bool :=
  match (node.field? "spec").field? "provider_id" with
  | .str s => .ok ((provider ++ "://").toList.isPrefixOf s.toList)
  | .obj _ => .error .sort
  | v => if v.truthy then .error .field else .ok false

/-! ## Addresses -/

def addressesOf (type : String) (node : Value) : Except Malformed (List Value) := do
  let entries ← ((node.field? "status").field? "addresses").itemsOrNone
  let found ← entries.mapM fun entry => do
    if (← entry.field "type").same type then pure [← entry.field "address"] else pure []
  pure found.flatten

def insertNew (seen : List Value) (v : Value) : List Value :=
  if seen.any fun w => w.same v then seen else seen ++ [v]

/-- Each value where it stands first. -/
def distinct (vs : List Value) : List Value := vs.foldl insertNew []

/-- The addresses of one type, in the order of the nodes. -/
def addresses (nodes : List Value) (type : String) : Except Malformed (List Value) := do
  pure (distinct (← nodes.mapM (addressesOf type)).flatten)

end ClusterControl.Node
