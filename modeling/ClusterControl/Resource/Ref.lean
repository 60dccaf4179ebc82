import ClusterControl.Resource.Kind

/-!
References to a resource by name, or to several by a selector.
-/

namespace ClusterControl

structure Ref where
  kind : String
  name : Option String
  ns : Option String
  selector : Option String
  deriving Repr, DecidableEq

namespace Ref

open Record

def ofFields (fields : Fields) : Checked Ref :=
  Ref.mk <$> required fields "kind" Record.text
    <*> optional fields "name" none (orNone Record.text)
    <*> optional fields "namespace" none (orNone Record.text)
    <*> optional fields "selector" none (orNone Record.text)

def named (k : Kind) (ns name : Value) : Checked Ref :=
  ofFields [("kind", k.label), ("namespace", ns), ("name", name)]

def selected (k : Kind) (ns selector : Value) : Checked Ref :=
  ofFields [("kind", k.label), ("namespace", ns), ("selector", selector)]

/-- Empty parts count as absent. -/
def nonempty? (s : Option String) : Option String := s.filter (· != "")

def text (r : Ref) : String :=
  let target := (nonempty? r.name).getD ("[" ++ (nonempty? r.selector).getD "all" ++ "]")
  r.kind ++ " " ++ match nonempty? r.ns with
    | some ns => ns ++ "/" ++ target
    | none => target

end Ref

end ClusterControl
