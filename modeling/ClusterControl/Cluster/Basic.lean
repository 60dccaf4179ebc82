import ClusterControl.Connection.Config
import ClusterControl.Platform.Basic

/-!
The handle on a cluster.
-/

namespace ClusterControl

structure Cluster (τ : Type) where
  /-- Two handles are the same one exactly when their numbers are. -/
  id : Nat
  connection : Connection
  platform : Platform
  interval : Seconds τ
  timeout : Seconds τ
  deriving Inhabited

/-- A handle on the first connection, which looks every second and gives up after a minute. -/
def Cluster.watchful : Cluster Rat := ⟨0, ⟨0, {}⟩, Platform.generic, .real 1, .real 60⟩

end ClusterControl
