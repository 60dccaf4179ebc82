import ClusterControl.Platform.Detection

/-!
Handles on clusters: on a connection that is there, on a new one, and the one that a process shares.
-/

namespace ClusterControl.Cluster

variable {τ : Type} [Time τ]

/-- An interval of zero counts as not given, a timeout of zero does not. The settings are asked only for
what is not given. -/
def onConnection (c : Connection) (p : Platform) (interval timeout : Option (Seconds τ)) :
    Op τ (Cluster τ) := do
  let interval ← match interval.filter fun s => !s.isZero with
    | some s => pure s
    | none => do pure (.real (← Op.settings).pollInterval)
  let timeout ← match timeout with
    | some s => pure s
    | none => do pure (.real (← Op.settings).defaultTimeout)
  let id ← Op.fresh
  pure { id, connection := c, platform := p, interval, timeout }

/-- A connection whose platform cannot be told is closed again. -/
def connect (config : Config) (strategies : List (Strategy τ)) (interval timeout : Option (Seconds τ)) :
    Op τ (Cluster τ) := do
  let c ← Connection.connect config
  let p ← (Platform.detect c strategies).orElse fun e => do
    c.close
    Op.fail (.connecting ("Failed to load cluster platform: " ++ e.message) (some e))
  onConnection c p interval timeout

def connectFromSettings : Op τ (Cluster τ) := do
  let s ← Op.settings
  connect s.config Strategy.known (some (.real s.pollInterval)) (some (.real s.defaultTimeout))

/-! ## The shared handle -/

/-- The handle that the process shares, built on first use. -/
def shared (build : Op τ (Cluster τ)) : Op τ (Cluster τ) :=
  Op.kept World.shared (fun c w => { w with shared := some c }) build

/-- As many callers at once: one after the other gets its turn. -/
def sharedBy (build : Op τ (Cluster τ)) : Nat → Op τ (List (Except (Failure τ) (Cluster τ)))
  | 0 => pure []
  | n + 1 => do
    let first ← (shared build).attempt
    pure (first :: (← sharedBy build n))

/-- The next use builds anew. -/
def dropShared : Op τ Unit := Op.update fun w => { w with shared := none }

end ClusterControl.Cluster
