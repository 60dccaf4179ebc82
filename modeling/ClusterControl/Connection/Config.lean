import ClusterControl.Record

/-!
Where a connection leads: inside the cluster, through credentials given as text, or through a file of
credentials.
-/

namespace ClusterControl

structure Config where
  name : String := "default"
  kubeconfigPath : Option String := none
  /-- Base64; used in place of the path unless it is empty. -/
  kubeconfigData : Option String := none
  context : Option String := none
  inCluster : Bool := false
  deriving Repr, DecidableEq, Inhabited

namespace Config

open Record

def ofFields (fields : Fields) : Checked Config :=
  Config.mk <$> optional fields "name" "default" text
    <*> optional fields "kubeconfig_path" none (orNone text)
    <*> optional fields "kubeconfig_data" none (orNone text)
    <*> optional fields "context" none (orNone text)
    <*> optional fields "in_cluster" false flag

end Config

/-- A connection is the same one as long as its number is. -/
structure Connection where
  id : Nat
  config : Config
  deriving Repr, DecidableEq, Inhabited

end ClusterControl
