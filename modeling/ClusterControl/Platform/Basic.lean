import ClusterControl.Record

/-!
What kind of cluster a connection leads to.
-/

namespace ClusterControl

structure Platform where
  name : String
  description : String
  /-- Addresses at which the cluster is reached from outside. -/
  externalIps : List String := []
  deriving Repr, DecidableEq, Inhabited

namespace Platform

/-- A cluster of which nothing more is known. -/
def generic : Platform := ⟨"generic", "Generic Kubernetes", []⟩

open Record

def ofFields (fields : Fields) : Checked Platform :=
  Platform.mk <$> required fields "name" text
    <*> required fields "description" text
    <*> optional fields "external_ips" [] (items text)

end Platform

end ClusterControl
