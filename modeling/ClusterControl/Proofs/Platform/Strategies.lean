import ClusterControl.Platform.Detection
import ClusterControl.Proofs.Op.Orderly

/-!
# Detection leaves the connection alone

A strategy reads what the cluster stores and does nothing to the connection through which it reads. This
holds of the strategies that are known, and so of a detection that tries them.
-/

namespace ClusterControl

open Op

variable {τ : Type} [Time τ]

/-! ## Reading -/

theorem Connection.orderly_send (c : Connection) {r : Request} (hr : r.endpoint ≠ closing) :
    (c.send r : Op τ Value).Orderly := by
  refine Orderly.bind (fun w _ => ?_) fun _ => orderly_request hr
  rw [require]
  split
  · exact ⟨.refl w, fun _ h => by cases h⟩
  · exact ⟨.refl w, fun _ h => by cases h⟩

theorem Kind.endpoint_ne_closing (k : Kind) (v : Verb) (ns : Value) : k.endpoint v ns ≠ closing := by
  intro h
  have hgroup : k.group = .transport := congrArg Endpoint.group h
  cases k <;> cases hgroup

theorem Resource.orderly_get (c : Connection) (k : Kind) (ns name : Value) :
    (get c k ns name : Op τ (Option Value)).Orderly := by
  have hsend : (c.send (readRequest k ns name) : Op τ Value).Orderly :=
    c.orderly_send (k.endpoint_ne_closing .read ns)
  exact (hsend.onNotFound (orderly_pure .null)).bind fun found => orderly_pure _

theorem Resource.orderly_list (c : Connection) (k : Kind) (ns selector : Value) :
    (list c k ns selector : Op τ Value).Orderly := by
  have hsend : (c.send (listRequest k ns selector) : Op τ Value).Orderly :=
    c.orderly_send (k.endpoint_ne_closing .list ns)
  exact hsend.bind fun v => orderly_look (v.field "items")

/-! ## Strategies -/

/-- Both uses of a strategy are orderly. -/
structure Strategy.Orderly (s : Strategy τ) : Prop where
  detect : ∀ c, (s.detect c).Orderly
  load : ∀ c, (s.load c).Orderly

namespace Strategy

theorem orderly_nodes (c : Connection) : (Node.all c : Op τ (List Value)).Orderly :=
  (Resource.orderly_list c .node .null .null).bind fun v => orderly_look v.items

omit [Time τ] in
theorem orderly_ofProbe (name description : String) {externalIps : Connection → Op τ (List Value)}
    {detect : Connection → Op τ Bool} (hi : ∀ c, (externalIps c).Orderly) (hd : ∀ c, (detect c).Orderly) :
    (ofProbe name description externalIps detect).Orderly where
  detect := hd
  load c := (hi c).bind fun _ => orderly_ofChecked _

theorem orderly_nodeIps (type : String) (c : Connection) : (nodeIps type c : Op τ (List Value)).Orderly :=
  (orderly_nodes c).bind fun nodes => orderly_look (Node.addresses nodes type)

theorem orderly_someNode (passes : Value → Except Malformed Bool) (c : Connection) :
    (someNode passes c : Op τ Bool).Orderly :=
  (orderly_nodes c).bind fun nodes => orderly_look (nodes.anyM passes)

omit [Time τ] in
theorem orderly_generic : (generic : Strategy τ).Orderly :=
  orderly_ofProbe _ _ (fun _ => orderly_pure []) fun _ => orderly_pure true

theorem orderly_known : ∀ s ∈ (known : List (Strategy τ)), s.Orderly := by
  intro s hs
  simp only [known, List.mem_cons, List.not_mem_nil, or_false] at hs
  rcases hs with rfl | rfl | rfl | rfl
  · exact orderly_ofProbe _ _ (orderly_nodeIps _) (orderly_someNode _)
  · exact orderly_ofProbe _ _ (orderly_nodeIps _) (orderly_someNode _)
  · exact orderly_ofProbe _ _ (orderly_nodeIps _) fun c =>
      (Resource.orderly_get c .namespaceKind .null "ibm-system").bind fun a => orderly_pure a.isSome
  · exact orderly_ofProbe _ _ (orderly_nodeIps _) (orderly_someNode _)

end Strategy

/-! ## Detection -/

namespace Platform

omit [Time τ]

theorem orderly_select (c : Connection) {strategies : List (Strategy τ)}
    (h : ∀ s ∈ strategies, s.Orderly) : (select c strategies).Orderly := by
  induction strategies with
  | nil => exact (orderly_log _ _).bind fun _ => orderly_pure Strategy.generic
  | cons s rest ih =>
      have hdetect := ((h s List.mem_cons_self).detect c).onNotFound (orderly_pure false)
      apply Orderly.bind hdetect
      intro found
      cases found with
      | true => exact orderly_pure s
      | false => exact ih fun s' hs => h s' (List.mem_cons_of_mem s hs)

theorem orderly_of_select (c : Connection) {strategies : List (Strategy τ)}
    (h : ∀ s ∈ strategies, s.Orderly) {w : World τ} {s : Strategy τ}
    (hs : (select c strategies w).1 = .ok s) : s.Orderly := by
  -- The strategy that is selected is one of those that are tried, or the one for any cluster.
  induction strategies generalizing w with
  | nil =>
      obtain rfl : Strategy.generic = s := Except.ok.inj hs
      exact Strategy.orderly_generic
  | cons s' rest ih =>
      rw [select, bind_run] at hs
      rcases hm : matched s' c w with ⟨e | found, v⟩
      · rw [hm] at hs
        cases hs
      · rw [hm] at hs
        cases found with
        | true =>
            obtain rfl : s' = s := Except.ok.inj hs
            exact h s' List.mem_cons_self
        | false => exact ih (fun t ht => h t (List.mem_cons_of_mem s' ht)) hs

theorem orderly_detect (c : Connection) {strategies : List (Strategy τ)}
    (h : ∀ s ∈ strategies, s.Orderly) : (detect c strategies).Orderly :=
  (orderly_select c h).bind_of (fun _ _ hs => orderly_of_select c h hs) fun _ hs =>
    (hs.load c).bind fun p => (orderly_log _ _).bind fun _ => orderly_pure p

end Platform

end ClusterControl
