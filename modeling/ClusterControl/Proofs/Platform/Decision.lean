import ClusterControl.Proofs.Platform.FirstMatch
import ClusterControl.Proofs.Platform.Nodes

/-!
# What detection decides

The strategies that are known judge a cluster by all of its nodes and by one namespace. What they decide together does
not depend on the order of the nodes.
-/

namespace ClusterControl

open Op

variable {τ : Type}

/-! ## Clusters that do not change -/

/-- Whatever is asked before, the request has the same outcome. -/
def Script.Always [Zero τ] (s : Script τ) (r : Request) (o : Except (Failure τ) Value) : Prop :=
  ∀ qs : List Request, ((qs.foldl (fun t q => (t.answer q).2) s).answer r).1.outcome = o

namespace Script

variable [Zero τ] {s : Script τ} {r : Request} {o : Except (Failure τ) Value}

theorem Always.answer (h : s.Always r o) (q : Request) : (s.answer q).2.Always r o := fun qs => h (q :: qs)

theorem Always.outcome_eq (h : s.Always r o) : (s.answer r).1.outcome = o := h []

/-- The queue does not run out: its last response is given again and again. -/
theorem queue_answer_ne_nil {e : Endpoint} (h : s.queue e ≠ []) (q : Request) : (s.answer q).2.queue e ≠ [] := by
  unfold Script.answer
  split
  · exact h
  · exact h
  · rename_i hrest _
    rw [queue_put]
    split
    · exact hrest
    · exact h

theorem always_of_queue (hne : s.queue r.endpoint ≠ []) (h : ∀ a ∈ s.queue r.endpoint, a.outcome = o) :
    s.Always r o := by
  intro qs
  induction qs generalizing s with
  | nil =>
      rw [List.foldl_nil, Script.answer]
      split
      · rename_i hq
        exact absurd hq hne
      · rename_i hq
        exact h _ (hq ▸ List.mem_singleton_self _)
      · rename_i hq
        exact h _ (hq ▸ List.mem_cons_self)
  | cons q qs ih => exact ih (queue_answer_ne_nil hne q) fun a ha => h a (mem_queue_of_answer ha)

theorem always_of_singleton {a : Response τ} (h : s.queue r.endpoint = [a]) : s.Always r a.outcome := by
  refine always_of_queue ?_ ?_ <;> rw [h]
  · exact List.cons_ne_nil a []
  · exact List.forall_mem_singleton.2 rfl

end Script

open Strategy Node

variable [Time τ]

/-- Through the connection the cluster shows the same nodes again and again, and always or never the namespace that
only one provider has. -/
structure World.Presents (w : World τ) (c : Connection) (nodes : List Value) (system : Bool) : Prop where
  isOpen : c.isOpen w = true
  listing : ∃ o, w.script.Always nodesRequest o ∧ listed o = .ok nodes
  provider : ∃ o answer, w.script.Always providerRequest o ∧ Resource.found o = .ok answer ∧
    answer.isSome = system

theorem World.Presents.exchange {w : World τ} {c : Connection} {nodes : List Value} {system : Bool}
    (h : w.Presents c nodes system) (r : Request) : (w.exchange r).2.Presents c nodes system where
  isOpen := h.isOpen
  listing := by
    obtain ⟨o, ho, hnodes⟩ := h.listing
    exact ⟨o, ho.answer r, hnodes⟩
  provider := by
    obtain ⟨o, found, ho, hfound⟩ := h.provider
    exact ⟨o, found, ho.answer r, hfound⟩

/-! ## Verdicts -/

namespace Platform

/-- What a cluster is taken for, and the type of the addresses at which it is reached. -/
structure Verdict where
  name : String
  description : String
  addressType : Option String
  deriving Repr, DecidableEq

/-- All nodes are looked at for one platform before any is looked at for the next one. -/
def verdict (nodes : List Value) (system : Bool) : Verdict :=
  if ∃ node ∈ nodes, ProvidedBy node "kind" then ⟨"kind", "Kind (Kubernetes in Docker)", some "InternalIP"⟩
  else if ∃ node ∈ nodes, LabelIs node "node.kubernetes.io/instance-type" "k3s" ∨ ProvidedBy node "k3s" then
    ⟨"k3s", "K3s lightweight Kubernetes", some "InternalIP"⟩
  else if system then ⟨"ibm", "IBM Cloud Kubernetes Service", some "ExternalIP"⟩
  else if ∃ node ∈ nodes, HasLabel node "minikube.k8s.io/name" then ⟨"minikube", "Minikube", some "InternalIP"⟩
  else ⟨"generic", "Generic Kubernetes", none⟩

theorem verdict_perm {nodes nodes' : List Value} (h : nodes.Perm nodes') (system : Bool) :
    verdict nodes system = verdict nodes' system := by
  simp only [verdict, h.mem_iff]

/-- The platform is what the verdict says, and has exactly the addresses of the type, each once. -/
structure Bears (p : Platform) (v : Verdict) (nodes : List Value) : Prop where
  name_eq : p.name = v.name
  description_eq : p.description = v.description
  nodup : p.externalIps.Nodup
  mem_iff : ∀ ip, ip ∈ p.externalIps ↔ ∃ type, v.addressType = some type ∧
    ∃ node ∈ nodes, (type, ip) ∈ addressPairs node

/-- The platform with the addresses of one type. -/
def reachedBy (name description : String) (nodes : List Value) (type : String) : Platform :=
  ⟨name, description, (addressesOfType nodes type).eraseDups⟩

theorem bears_reachedBy (name description : String) (nodes : List Value) (type : String) :
    (reachedBy name description nodes type).Bears ⟨name, description, some type⟩ nodes where
  name_eq := rfl
  description_eq := rfl
  nodup := nodup_eraseDups _
  mem_iff ip := by
    rw [reachedBy, List.mem_eraseDups, mem_addressesOfType]
    simp

theorem bears_generic (nodes : List Value) : generic.Bears ⟨"generic", "Generic Kubernetes", none⟩ nodes where
  name_eq := rfl
  description_eq := rfl
  nodup := List.nodup_nil
  mem_iff ip := by simp [generic]

end Platform

/-! ## Strategies -/

namespace Record

theorem itemsFrom_text (i : Nat) (xs : List String) : itemsFrom text i (xs.map .str) = .valid xs := by
  induction xs generalizing i with
  | nil => rfl
  | cons x xs ih =>
      rw [List.map_cons, itemsFrom, ih]
      rfl

end Record

theorem Platform.ofFields_texts (name description : String) (ips : List String) :
    ofFields [("name", name), ("description", description), ("external_ips", .list (ips.map .str))] =
      .valid ⟨name, description, ips⟩ := by
  have hips : Record.items Record.text (.list (ips.map .str)) = .valid ips := Record.itemsFrom_text 0 ips
  show Checked.both (.valid (Platform.mk name description))
    ((Record.items Record.text (.list (ips.map .str))).under "external_ips") = _
  rw [hips]
  rfl

namespace Strategy

/-- Wherever a cluster presents the nodes, the strategy finds out whether it recognizes them, and describes the
platform by the addresses of one type. -/
structure Judges (s : Strategy τ) (c : Connection) (nodes : List Value) (system : Bool) (recognizes : Prop)
    [Decidable recognizes] (type : String) : Prop where
  detect : ∀ w : World τ, w.Presents c nodes system → ∃ r, s.detect c w = (.ok (decide recognizes), (w.exchange r).2)
  load : ∀ w : World τ, w.Presents c nodes system →
    (s.load c w).1 = .ok (Platform.reachedBy s.name s.description nodes type)

section

variable {c : Connection} {nodes : List Value} {system : Bool} {w : World τ}

theorem run_of_listing {α : Type} {x : Op τ α} {answer : Except (Failure τ) Value → Except (Failure τ) α}
    (hx : x.Inquires c nodesRequest answer) (hw : w.Presents c nodes system) :
    ∃ o, listed o = .ok nodes ∧ x w = (answer o, (w.exchange nodesRequest).2) := by
  obtain ⟨o, ho, hnodes⟩ := hw.listing
  have houtcome : (w.exchange nodesRequest).1 = o := ho.outcome_eq
  exact ⟨o, hnodes, by rw [hx w, if_pos (Connection.serves_of_isOpen hw.isOpen _), houtcome]⟩

theorem load_run (hnodes : ∀ node ∈ nodes, Shaped node) (hw : w.Presents c nodes system)
    (name description type : String) :
    (describe name description (nodeIps type) c w).1 = .ok (Platform.reachedBy name description nodes type) := by
  obtain ⟨o, ho, hrun⟩ := run_of_listing (inquires_describe (inquires_nodeIps type c) name description) hw
  rw [hrun]
  simp only [ho, Except.bind, addresses_eq hnodes type, Except.mapError, Platform.ofFields_texts]
  rfl

theorem judges_someNode (hnodes : ∀ node ∈ nodes, Shaped node) (name description : String)
    {passes : Value → Except Malformed Bool} {P : Value → Prop} [DecidablePred P]
    (hpasses : ∀ node, Shaped node → passes node = .ok (decide (P node))) :
    (ofProbe name description internalIps (someNode passes) : Strategy τ).Judges c nodes system
      (∃ node ∈ nodes, P node) "InternalIP" where
  detect w hw := by
    obtain ⟨o, ho, hrun⟩ := run_of_listing (inquires_someNode passes c) hw
    have hany : (nodes.any fun node => decide (P node)) = decide (∃ node ∈ nodes, P node) :=
      Bool.eq_iff_iff.2 (by simp)
    have hpass : nodes.anyM passes = .ok (decide (∃ node ∈ nodes, P node)) := by
      rw [← hany]
      exact anyM_eq_ok_any fun node hn => hpasses node (hnodes node hn)
    refine ⟨nodesRequest, hrun.trans ?_⟩
    rw [ho]
    simp only [Except.bind, hpass, Except.mapError]
  load w hw := load_run hnodes hw name description "InternalIP"

theorem judges_kind (hnodes : ∀ node ∈ nodes, Shaped node) :
    (kind : Strategy τ).Judges c nodes system (∃ node ∈ nodes, ProvidedBy node "kind") "InternalIP" :=
  judges_someNode hnodes _ _ fun _ hn => hn.providedBy_eq "kind"

theorem judges_k3s (hnodes : ∀ node ∈ nodes, Shaped node) :
    (k3s : Strategy τ).Judges c nodes system
      (∃ node ∈ nodes, LabelIs node "node.kubernetes.io/instance-type" "k3s" ∨ ProvidedBy node "k3s") "InternalIP" := by
  refine judges_someNode hnodes _ _ fun node hn => ?_
  rw [hn.label_eq]
  simp only [bind, Except.bind, label_same_iff, hn.providedBy_eq]
  by_cases hlabel : LabelIs node "node.kubernetes.io/instance-type" "k3s"
  · simp [hlabel, pure, Except.pure]
  · simp [hlabel]

theorem judges_ibm (hnodes : ∀ node ∈ nodes, Shaped node) :
    (ibm : Strategy τ).Judges c nodes system (system = true) "ExternalIP" where
  detect w hw := by
    obtain ⟨o, answer, ho, hanswer, hsystem⟩ := hw.provider
    have houtcome : (w.exchange providerRequest).1 = o := ho.outcome_eq
    refine ⟨providerRequest, ?_⟩
    rw [inquires_ibm c w, if_pos (Connection.serves_of_isOpen hw.isOpen _), houtcome]
    simp only [hanswer, Except.bind, hsystem, Bool.decide_eq_true]
  load w hw := load_run hnodes hw "ibm" "IBM Cloud Kubernetes Service" "ExternalIP"

theorem judges_minikube (hnodes : ∀ node ∈ nodes, Shaped node) :
    (minikube : Strategy τ).Judges c nodes system (∃ node ∈ nodes, HasLabel node "minikube.k8s.io/name") "InternalIP" :=
  judges_someNode hnodes _ _ fun _ hn => hn.hasLabel_eq "minikube.k8s.io/name"

end

end Strategy

/-! ## Detection -/

namespace Platform

section

variable {c : Connection} {nodes : List Value} {system : Bool} {w : World τ}

/-- Detection asks a strategy and goes on with the rest only if it does not recognize the cluster. -/
theorem detect_of_judges {s : Strategy τ} {recognizes : Prop} [Decidable recognizes] {type : String}
    (hs : s.Judges c nodes system recognizes type) (hw : w.Presents c nodes system) (rest : List (Strategy τ)) :
    ∃ u : World τ, u.Presents c nodes system ∧ (detect c (s :: rest) w).1 =
      if recognizes then .ok (reachedBy s.name s.description nodes type) else (detect c rest u).1 := by
  obtain ⟨r, hdetect⟩ := hs.detect w hw
  refine ⟨(w.exchange r).2, hw.exchange r, ?_⟩
  by_cases h : recognizes
  · have hfound : (s.detect c w).1 = .ok true := by rw [hdetect, decide_eq_true h]
    have hload := hs.load (w.exchange r).2 (hw.exchange r)
    rw [if_pos h, detect_of_match hfound, hdetect]
    rcases hrun : s.load c (w.exchange r).2 with ⟨o, v⟩
    rw [hrun] at hload
    obtain rfl : o = .ok (reachedBy s.name s.description nodes type) := hload
    rfl
  · have hmiss : s.Misses c w := .inl (by rw [hdetect, decide_eq_false h])
    rw [if_neg h, detect_of_miss hmiss, hdetect]

theorem bears_detect_known (hnodes : ∀ node ∈ nodes, Shaped node) (hw : w.Presents c nodes system) :
    ∃ p, (detect c known w).1 = .ok p ∧ p.Bears (verdict nodes system) nodes := by
  obtain ⟨w₁, hw₁, hkind⟩ := detect_of_judges (judges_kind hnodes) hw [k3s, ibm, minikube]
  obtain ⟨w₂, hw₂, hk3s⟩ := detect_of_judges (judges_k3s hnodes) hw₁ [ibm, minikube]
  obtain ⟨w₃, hw₃, hibm⟩ := detect_of_judges (judges_ibm hnodes) hw₂ [minikube]
  obtain ⟨w₄, hw₄, hminikube⟩ := detect_of_judges (judges_minikube hnodes) hw₃ []
  rw [known, hkind, hk3s, hibm, hminikube, verdict]
  split
  · exact ⟨_, rfl, bears_reachedBy _ _ _ _⟩
  split
  · exact ⟨_, rfl, bears_reachedBy _ _ _ _⟩
  split
  · exact ⟨_, rfl, bears_reachedBy _ _ _ _⟩
  split
  · exact ⟨_, rfl, bears_reachedBy _ _ _ _⟩
  · exact ⟨_, rfl, bears_generic nodes⟩

/-! ### Requests -/

/-- The requests that the known strategies make. -/
def Looks (r : Request) : Prop := r = nodesRequest ∨ r = providerRequest

variable {P : Request → Prop} {ss : List (Strategy τ)}

omit [Time τ] in
theorem only_matched {s : Strategy τ} (h : (s.detect c).Emits (.only P)) : (matched s c).Emits (.only P) := by
  refine h.only_onFailure fun e => ?_
  cases e with
  | rejected r =>
      show Emits (if r.isNotFound then pure false else fail (.rejected r)) _
      split
      · exact (emits_pure false).mono fun _ _ => Trace.only_silent
      · exact (emits_fail _).mono fun _ _ => Trace.only_silent
  | _ => exact (emits_fail _).mono fun _ _ => Trace.only_silent

omit [Time τ] in
theorem only_select_bind {α : Type} {f : Strategy τ → Op τ α} (hdetect : ∀ s ∈ ss, (s.detect c).Emits (.only P))
    (hf : ∀ s ∈ ss, (f s).Emits (.only P)) (hgeneric : (f .generic).Emits (.only P)) :
    (select c ss >>= f).Emits (.only P) := by
  induction ss with
  | nil =>
      rw [select, bind_assoc]
      exact ((emits_log _ _).mono fun _ _ => Trace.only_silent).only_bind fun _ => hgeneric
  | cons s rest ih =>
      rw [select, bind_assoc]
      refine (only_matched (hdetect s List.mem_cons_self)).only_bind fun found => ?_
      cases found with
      | true => exact hf s List.mem_cons_self
      | false =>
          exact ih (fun t ht => hdetect t (List.mem_cons_of_mem s ht)) fun t ht => hf t (List.mem_cons_of_mem s ht)

theorem only_known (c : Connection) : ∀ s ∈ (known : List (Strategy τ)),
    (s.detect c).Emits (.only Looks) ∧ (s.load c).Emits (.only Looks) := by
  have hnodes {α : Type} {x : Op τ α} {answer : Except (Failure τ) Value → Except (Failure τ) α}
      (hx : x.Inquires c nodesRequest answer) : x.Emits (.only Looks) :=
    hx.emits.mono fun _ _ h => h.only (.inl rfl)
  have hload (name description type : String) : (describe name description (nodeIps type) c : Op τ Platform).Emits
      (.only Looks) := hnodes (inquires_describe (inquires_nodeIps type c) name description)
  intro s hs
  simp only [known, List.mem_cons, List.not_mem_nil, or_false] at hs
  rcases hs with rfl | rfl | rfl | rfl
  · exact ⟨hnodes (inquires_someNode _ c), hload _ _ _⟩
  · exact ⟨hnodes (inquires_someNode _ c), hload _ _ _⟩
  · exact ⟨(inquires_ibm c).emits.mono fun _ _ h => h.only (.inr rfl), hload _ _ _⟩
  · exact ⟨hnodes (inquires_someNode _ c), hload _ _ _⟩

theorem only_detect_known (c : Connection) : (detect c known : Op τ Platform).Emits (.only Looks) := by
  have htold (p : Platform) : (do log .info (announcement p); pure p : Op τ Platform).Emits (.only Looks) :=
    ((emits_log _ _).mono fun _ _ => Trace.only_silent).only_bind fun _ =>
      (emits_pure p).mono fun _ _ => Trace.only_silent
  refine only_select_bind (fun s hs => (only_known c s hs).1) (fun s hs => (only_known c s hs).2.only_bind htold) ?_
  have hgeneric : (Strategy.generic : Strategy τ).load c = pure generic := rfl
  rw [hgeneric, pure_bind]
  exact htold generic

/-- Of a cluster that does not change, detection by the known strategies tells one of five platforms, and the addresses
at which this one is reached. The order of the nodes does not matter. -/
theorem detect_known_bears (c : Connection) {nodes : List Value} {system : Bool} {w : World τ}
    (hnodes : ∀ node ∈ nodes, Shaped node) (hw : w.Presents c nodes system) :
    ∃ p xs, (detect c known w).1 = .ok p ∧ p.Bears (verdict nodes system) nodes ∧
      (detect c known w).2.exchanges = w.exchanges ++ xs ∧ (∀ x ∈ xs, Looks x.request) ∧
      ∀ (nodes' : List Value) (w' : World τ), nodes.Perm nodes' → w'.Presents c nodes' system →
        ∃ p', (detect c known w').1 = .ok p' ∧ p'.name = p.name ∧ p'.description = p.description ∧
          ∀ ip, ip ∈ p'.externalIps ↔ ip ∈ p.externalIps := by
  obtain ⟨p, hrun, hp⟩ := bears_detect_known hnodes hw
  obtain ⟨xs, hxs, honly⟩ := only_detect_known c w
  refine ⟨p, xs, hrun, hp, hxs, honly, fun nodes' w' hperm hw' => ?_⟩
  obtain ⟨p', hrun', hp'⟩ := bears_detect_known (fun node hn => hnodes node (hperm.mem_iff.2 hn)) hw'
  rw [← verdict_perm hperm] at hp'
  refine ⟨p', hrun', hp'.name_eq.trans hp.name_eq.symm, hp'.description_eq.trans hp.description_eq.symm, fun ip => ?_⟩
  rw [hp'.mem_iff, hp.mem_iff]
  simp only [hperm.mem_iff]

end

/-- A node with a label of one platform, and one that the provider of another platform has made. -/
def mixedNodes : List Value :=
  [.obj [("metadata", .obj [("labels", .obj [("node.kubernetes.io/instance-type", "k3s")])]),
     ("status", .obj [("addresses", .list [.obj [("type", "InternalIP"), ("address", "10.0.0.5")],
       .obj [("type", "ExternalIP"), ("address", "1.2.3.4")]])])],
   .obj [("metadata", .null), ("spec", .obj [("provider_id", "kind://docker/kind/worker")]),
     ("status", .obj [("addresses", .list [.obj [("type", "InternalIP"), ("address", "10.0.0.5")]])])]]

/-- A cluster with these nodes, in which nothing else is found. -/
def mixed : World Rat :=
  (World.initial [(Kind.node.endpoint .list .null, [⟨.ok (.obj [("items", .list mixedNodes)]), 1⟩]),
      (Kind.namespaceKind.endpoint .read .null, [⟨.error (.rejected ⟨.int 404, "Not Found", .null⟩), 1⟩])] []).connected

theorem shaped_mixedNodes : ∀ node ∈ mixedNodes, Shaped node := by
  intro node hn
  simp only [mixedNodes, List.mem_cons, List.not_mem_nil, or_false] at hn
  rcases hn with rfl | rfl
  · exact ⟨⟨_, rfl⟩, .inr ⟨_, rfl⟩, .inl rfl, .inr ⟨_, rfl, by simp [Value.field?, List.lookup_cons]⟩⟩
  · exact ⟨⟨_, rfl⟩, .inl rfl, .inr ⟨_, rfl⟩, .inr ⟨_, rfl, by simp [Value.field?, List.lookup_cons]⟩⟩

theorem presents_mixed : mixed.Presents Cluster.watchful.connection mixedNodes false where
  isOpen := rfl
  listing := ⟨_, Script.always_of_singleton rfl, rfl⟩
  provider := ⟨_, none, Script.always_of_singleton rfl, rfl, rfl⟩

/-- The provider of one node goes before the label of the other one. -/
theorem detect_known_bears_of_mixed :
    ∃ p, (detect Cluster.watchful.connection known mixed).1 = .ok p ∧ p.name = "kind" ∧
      (∀ ip, ip ∈ p.externalIps ↔ ip = "10.0.0.5") := by
  obtain ⟨p, xs, hrun, hp, _⟩ := detect_known_bears Cluster.watchful.connection shaped_mixedNodes presents_mixed
  have hverdict : verdict mixedNodes false = ⟨"kind", "Kind (Kubernetes in Docker)", some "InternalIP"⟩ := by
    decide +kernel
  rw [hverdict] at hp
  refine ⟨p, hrun, hp.name_eq, fun ip => ?_⟩
  rw [hp.mem_iff]
  simp [mixedNodes, addressPairs, pairOf, Value.field?, List.lookup_cons]

end Platform

end ClusterControl
