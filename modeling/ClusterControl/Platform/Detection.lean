import ClusterControl.Platform.Strategy

/-!
Detection: the first strategy that recognizes the cluster describes it. A probe that does not find what
it looks for recognizes nothing; any other failure of a probe ends the detection.
-/

namespace ClusterControl.Platform

variable {τ : Type} [Time τ]

def matched (s : Strategy τ) (c : Connection) : Op τ Bool :=
  (s.detect c).onNotFound (pure false)

def select (c : Connection) : List (Strategy τ) → Op τ (Strategy τ)
  | [] => do
    Op.log .info "No known platform detected, using generic"
    pure .generic
  | s :: rest => do
    if ← matched s c then pure s else select c rest

def detect (c : Connection) (strategies : List (Strategy τ)) : Op τ Platform := do
  let platform ← (← select c strategies).load c
  Op.log .info ("Detected platform " ++ platform.name ++ ": " ++ platform.description)
  pure platform

end ClusterControl.Platform
