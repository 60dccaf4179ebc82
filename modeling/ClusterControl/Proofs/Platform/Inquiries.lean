import ClusterControl.Platform.Detection
import ClusterControl.Proofs.Wait.TwoPhases
import ClusterControl.Proofs.Cluster.Answers

/-!
# What a strategy asks

Each use of a strategy that is known is one request: for the nodes, or for the namespace that tells the one provider.
-/

namespace ClusterControl

open Op

variable {τ α : Type}

theorem World.probes_record (w : World τ) (e : Event τ) :
    (w.record e).probes = w.probes ++ (match e with | .probe p platform => [(p, platform)] | _ => []) := by
  cases e <;> simp [probes]

variable [Time τ]

theorem World.probes_exchange (w : World τ) (r : Request) : (w.exchange r).2.probes = w.probes := by
  simp [exchange, probes, record, events]

theorem Op.Inquires.probes {c : Connection} {r : Request} {answer : Except (Failure τ) Value → Except (Failure τ) α}
    {x : Op τ α} (h : x.Inquires c r answer) (w : World τ) : (x w).2.probes = w.probes := by
  rw [h w]
  split
  · exact w.probes_exchange r
  · rfl

/-! ## Nodes -/

namespace Resource

theorem inquires_list (c : Connection) (k : Kind) (ns selector : Value) :
    (list c k ns selector : Op τ Value).Inquires c (listRequest k ns selector) fun o =>
      o.bind fun v => (v.field "items").mapError .malformed :=
  (c.inquires_send _).bind fun _ => rfl

end Resource

namespace Node

/-- The request for all nodes. -/
def nodesRequest : Request := Resource.listRequest .node .null .null

/-- The nodes that an answer to the request lists. -/
def listed (o : Except (Failure τ) Value) : Except (Failure τ) (List Value) :=
  (o.bind fun v => (v.field "items").mapError .malformed).bind fun v => v.items.mapError .malformed

theorem inquires_all (c : Connection) : (all c : Op τ (List Value)).Inquires c nodesRequest listed :=
  (Resource.inquires_list c .node .null .null).bind fun _ => rfl

end Node

/-! ## Strategies -/

namespace Strategy

open Node

/-- The request for the namespace that only one provider has. -/
def providerRequest : Request := Resource.readRequest .namespaceKind .null "ibm-system"

theorem inquires_someNode (passes : Value → Except Malformed Bool) (c : Connection) :
    (someNode passes c : Op τ Bool).Inquires c nodesRequest fun o =>
      (listed o).bind fun nodes => (nodes.anyM passes).mapError .malformed :=
  (inquires_all c).bind fun _ => rfl

theorem inquires_nodeIps (type : String) (c : Connection) :
    (nodeIps type c : Op τ (List Value)).Inquires c nodesRequest fun o =>
      (listed o).bind fun nodes => (addresses nodes type).mapError .malformed :=
  (inquires_all c).bind fun _ => rfl

theorem inquires_ibm (c : Connection) :
    ((ibm : Strategy τ).detect c).Inquires c providerRequest fun o =>
      (Resource.found o).bind fun found => .ok found.isSome :=
  (Condition.inquires_get c .namespaceKind .null "ibm-system").bind fun _ => rfl

theorem inquires_describe {c : Connection} {r : Request}
    {answer : Except (Failure τ) Value → Except (Failure τ) (List Value)} {ips : Connection → Op τ (List Value)}
    (h : (ips c).Inquires c r answer) (name description : String) :
    (describe name description ips c).Inquires c r fun o => (answer o).bind fun ips =>
      (Platform.ofFields [("name", name), ("description", description), ("external_ips", .list ips)]).outcome :=
  h.bind fun _ => rfl

/-- The strategy writes none of its uses down. -/
structure Silent (s : Strategy τ) : Prop where
  detect : ∀ c w, (s.detect c w).2.probes = w.probes
  load : ∀ c w, (s.load c w).2.probes = w.probes

theorem silent_known : ∀ s ∈ (known : List (Strategy τ)), s.Silent := by
  have hload (name description type : String) (c : Connection) (w : World τ) :
      (describe name description (nodeIps type) c w).2.probes = w.probes :=
    (inquires_describe (inquires_nodeIps type c) name description).probes w
  intro s hs
  simp only [known, List.mem_cons, List.not_mem_nil, or_false] at hs
  rcases hs with rfl | rfl | rfl | rfl
  · exact ⟨fun c => (inquires_someNode _ c).probes, hload _ _ _⟩
  · exact ⟨fun c => (inquires_someNode _ c).probes, hload _ _ _⟩
  · exact ⟨fun c => (inquires_ibm c).probes, hload _ _ _⟩
  · exact ⟨fun c => (inquires_someNode _ c).probes, hload _ _ _⟩

end Strategy

end ClusterControl
