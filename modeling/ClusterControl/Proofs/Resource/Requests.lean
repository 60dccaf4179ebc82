import ClusterControl.Proofs.Cluster.Rejections
import ClusterControl.Proofs.Platform.Inquiries

/-!
# A request tells the access that made it

Every access to resources makes one request. The method of the request tells the verb and the kind, and its arguments
tell the rest, but for the namespace of a kind that has none: there it has no effect at all.
-/

namespace ClusterControl

variable {τ : Type} [Time τ]

/-- The same method is asked for with the same arguments, in whatever order they are given. -/
def Request.SameCall (r r' : Request) : Prop :=
  r.endpoint = r'.endpoint ∧ ∀ name, r.args.lookup name = r'.args.lookup name

theorem Value.eq_null_of_isNull {v : Value} (h : v.isNull = true) : v = .null := by
  cases v with
  | null => rfl
  | _ => cases h

namespace Resource

/-! ## Accesses -/

inductive Deed where
  | get (name : Value)
  | list (selector : Value)
  | create (body : Value)
  | delete (name policy : Value)

structure Call where
  kind : Kind
  ns : Value
  deed : Deed

inductive Reply where
  | found (object : Option Value)
  | items (items : Value)
  | created (object : Value)
  | deleted (existed : Bool)

def Deed.verb : Deed → Verb
  | .get _ => .read
  | .list _ => .list
  | .create _ => .create
  | .delete _ _ => .delete

/-- The arguments that do not depend on the kind. -/
def Deed.args : Deed → List (String × Value)
  | .get name => [("name", name)]
  | .list selector => optionalArg "label_selector" selector
  | .create body => [("body", body)]
  | .delete name policy => ("name", name) :: optionalArg "propagation_policy" policy

def Call.request (a : Call) : Request :=
  match a.deed with
  | .get name => readRequest a.kind a.ns name
  | .list selector => listRequest a.kind a.ns selector
  | .create body => createRequest a.kind a.ns body
  | .delete name policy => deleteRequest a.kind a.ns name policy

def perform (c : Connection) (a : Call) : Op τ Reply :=
  match a.deed with
  | .get name => do pure (.found (← get c a.kind a.ns name))
  | .list selector => do pure (.items (← list c a.kind a.ns selector))
  | .create body => do pure (.created (← create c a.kind a.ns body))
  | .delete name policy => do pure (.deleted (← delete c a.kind a.ns name policy))

/-- The same argument, or none in both cases: what is empty is left out. -/
def SameOption (v v' : Value) : Prop := v = v' ∨ v.truthy = false ∧ v'.truthy = false

/-- The same verb with the same name or body and the same selector or policy. -/
inductive Deed.Same : Deed → Deed → Prop where
  | get (name : Value) : Same (.get name) (.get name)
  | list {selector selector' : Value} : SameOption selector selector' → Same (.list selector) (.list selector')
  | create (body : Value) : Same (.create body) (.create body)
  | delete (name : Value) {policy policy' : Value} : SameOption policy policy' →
      Same (.delete name policy) (.delete name policy')

/-- The same is done with the same kind, and in the same namespace if the kind has one. -/
structure Call.Same (a b : Call) : Prop where
  kind : a.kind = b.kind
  deed : a.deed.Same b.deed
  ns : a.kind.clusterScoped = false → a.ns = b.ns

/-! ## Methods -/

/-- A namespace matters for a method only in whether there is one. -/
def spot (given : Bool) : Value := if given then .str "" else .null

theorem endpoint_spot (k : Kind) (v : Verb) (ns : Value) : k.endpoint v ns = k.endpoint v (spot !ns.isNull) := by
  cases ns <;> rfl

theorem methods_differ : ∀ v ∈ [Verb.read, .list, .create, .delete], ∀ k ∈ Kind.all, ∀ k' ∈ Kind.all,
    ∀ given given' : Bool, (k.endpoint v (spot given)).method = (k'.endpoint v (spot given')).method →
      k = k' ∧ (v = .list → k.clusterScoped = false → given = given') := by
  decide +kernel

theorem endpoint_injective {k k' : Kind} {v v' : Verb} {ns ns' : Value} (h : k.endpoint v ns = k'.endpoint v' ns') :
    v = v' ∧ k = k' ∧ (v = .list → k.clusterScoped = false → ns.isNull = ns'.isNull) := by
  have hverb := does_endpoint k v v ns
  rw [h, does_endpoint, decide_eq_decide] at hverb
  obtain rfl : v = v' := hverb.2 rfl
  rw [endpoint_spot k, endpoint_spot k'] at h
  have hv : v ∈ [Verb.read, .list, .create, .delete] := by cases v <;> decide
  obtain ⟨hk, hns⟩ := methods_differ v hv k k.mem_all k' k'.mem_all _ _ (congrArg Endpoint.method h)
  exact ⟨rfl, hk, fun hlist hscoped => Bool.not_inj (hns hlist hscoped)⟩

theorem Call.endpoint_request (a : Call) : a.request.endpoint = a.kind.endpoint a.deed.verb a.ns := by
  obtain ⟨k, ns, deed⟩ := a
  cases deed <;> rfl

/-! ## Arguments -/

theorem lookup_singleton_of_ne {x name : String} (h : x ≠ name) (v : Value) : [(name, v)].lookup x = none := by
  rw [List.lookup_cons, beq_eq_false_iff_ne.2 h]
  rfl

theorem lookup_optionalArg_of_ne {x name : String} (h : x ≠ name) (v : Value) :
    (optionalArg name v).lookup x = none := by
  unfold optionalArg
  split
  · exact lookup_singleton_of_ne h v
  · rfl

theorem lookup_optionalArg (name : String) (v : Value) :
    (optionalArg name v).lookup name = if v.truthy then some v else none := by
  unfold optionalArg
  split
  · exact List.lookup_cons_self
  · rfl

theorem SameOption.optionalArg_eq {v v' : Value} (h : SameOption v v') (name : String) :
    optionalArg name v = optionalArg name v' := by
  rcases h with rfl | ⟨hv, hv'⟩
  · rfl
  · simp only [optionalArg, hv, hv', Bool.false_eq_true, if_false]

theorem sameOption_of_lookup {v v' : Value} {name : String}
    (h : (optionalArg name v).lookup name = (optionalArg name v').lookup name) : SameOption v v' := by
  rw [lookup_optionalArg, lookup_optionalArg] at h
  cases hv : v.truthy <;> cases hv' : v'.truthy <;> simp only [hv, hv', if_true, Bool.false_eq_true, if_false] at h
  · exact .inr ⟨hv, hv'⟩
  · cases h
  · cases h
  · exact .inl (Option.some.inj h)

theorem lookup_scope (k : Kind) (ns : Value) :
    (k.scopeArgs ns).lookup "namespace" = if k.clusterScoped then none else some ns := by
  unfold Kind.scopeArgs
  split
  · rfl
  · exact List.lookup_cons_self

theorem Call.lookup_namespace (a : Call) :
    a.request.args.lookup "namespace" =
      if a.kind.clusterScoped || (a.deed.verb = .list && a.ns.isNull) then none else some a.ns := by
  obtain ⟨k, ns, deed⟩ := a
  have hscope := lookup_scope k ns
  have hselector (v : Value) := lookup_optionalArg_of_ne (show "namespace" ≠ "label_selector" by decide) v
  have hpolicy (v : Value) := lookup_optionalArg_of_ne (show "namespace" ≠ "propagation_policy" by decide) v
  cases deed with
  | get name => simp [request, readRequest, Deed.verb, List.lookup_cons, hscope]
  | list selector =>
      cases hn : ns.isNull <;>
        simp [request, listRequest, Deed.verb, List.lookup_append, hselector, hscope, hn]
  | create body => simp [request, createRequest, Deed.verb, List.lookup_cons, hscope]
  | delete name policy =>
      simp [request, deleteRequest, Deed.verb, List.lookup_cons, List.lookup_append, hpolicy, hscope]

theorem lookup_scopeArgs {name : String} (h : name ≠ "namespace") (k : Kind) (ns : Value) :
    (k.scopeArgs ns).lookup name = none := by
  unfold Kind.scopeArgs
  split
  · rfl
  · exact lookup_singleton_of_ne h ns

theorem Call.lookup_of_ne (a : Call) {name : String} (h : name ≠ "namespace") :
    a.request.args.lookup name = a.deed.args.lookup name := by
  obtain ⟨k, ns, deed⟩ := a
  have hscope := lookup_scopeArgs h k ns
  cases deed with
  | get name' => simp [request, readRequest, Deed.args, List.lookup_cons, hscope]
  | list selector =>
      cases hn : ns.isNull <;> simp [request, listRequest, Deed.args, List.lookup_append, hn, hscope]
  | create body => simp [request, createRequest, Deed.args, List.lookup_cons, hscope]
  | delete name' policy =>
      simp only [request, deleteRequest, Deed.args, List.cons_append, List.lookup_cons, List.lookup_append, hscope,
        Option.none_or]

theorem Deed.same_of_lookup {d d' : Deed} (hverb : d.verb = d'.verb)
    (h : ∀ name, name ≠ "namespace" → d.args.lookup name = d'.args.lookup name) : d.Same d' := by
  cases d with
  | get name =>
      cases d' with
      | get name' =>
          obtain rfl : name = name' := Option.some.inj (h "name" (by decide))
          exact .get name
      | _ => cases hverb
  | list selector =>
      cases d' with
      | list selector' => exact .list (sameOption_of_lookup (h "label_selector" (by decide)))
      | _ => cases hverb
  | create body =>
      cases d' with
      | create body' =>
          obtain rfl : body = body' := Option.some.inj (h "body" (by decide))
          exact .create body
      | _ => cases hverb
  | delete name policy =>
      cases d' with
      | delete name' policy' =>
          obtain rfl : name = name' := Option.some.inj (h "name" (by decide))
          exact .delete name (sameOption_of_lookup (h "propagation_policy" (by decide)))
      | _ => cases hverb

/-! ## Requests and accesses -/

theorem Call.same_of_sameCall {a b : Call} (h : a.request.SameCall b.request) : a.Same b := by
  obtain ⟨hendpoint, hargs⟩ := h
  rw [a.endpoint_request, b.endpoint_request] at hendpoint
  obtain ⟨hverb, hkind, hnull⟩ := endpoint_injective hendpoint
  refine ⟨hkind, Deed.same_of_lookup hverb fun name hname => ?_, fun hscoped => ?_⟩
  · rw [← a.lookup_of_ne hname, ← b.lookup_of_ne hname, hargs name]
  · have hspace := hargs "namespace"
    rw [a.lookup_namespace, b.lookup_namespace, ← hkind, ← hverb, hscoped, Bool.false_or, Bool.false_or] at hspace
    by_cases hlist : a.deed.verb = .list
    · -- A list over all namespaces has no such argument, and its method says so.
      have hnull := hnull hlist hscoped
      cases ha : a.ns.isNull with
      | true =>
          have hb : b.ns.isNull = true := hnull ▸ ha
          rw [Value.eq_null_of_isNull ha, Value.eq_null_of_isNull hb]
      | false => simpa [hlist, ha, hnull ▸ ha] using hspace
    · simpa [hlist] using hspace

theorem Deed.same_refl (d : Deed) : d.Same d := by
  cases d with
  | get name => exact .get name
  | list selector => exact .list (.inl rfl)
  | create body => exact .create body
  | delete name policy => exact .delete name (.inl rfl)

theorem Deed.Same.verb_eq {d d' : Deed} (h : d.Same d') : d.verb = d'.verb := by cases h <;> rfl

theorem Deed.Same.request_eq {d d' : Deed} (h : d.Same d') (k : Kind) (ns : Value) :
    (Call.mk k ns d).request = (Call.mk k ns d').request := by
  cases h with
  | get name => rfl
  | list h => simp only [Call.request, listRequest, h.optionalArg_eq]
  | create body => rfl
  | delete name h => simp only [Call.request, deleteRequest, h.optionalArg_eq]

theorem Call.request_of_clusterScoped {k : Kind} (h : k.clusterScoped = true) (ns ns' : Value) (d : Deed) :
    (Call.mk k ns d).request = (Call.mk k ns' d).request := by
  have hendpoint (v : Verb) : k.endpoint v ns = k.endpoint v ns' := by simp only [Kind.endpoint, h, if_true]
  have hscope (ns : Value) : k.scopeArgs ns = [] := by rw [Kind.scopeArgs, if_pos h]
  cases d with
  | get name => simp only [request, readRequest, hendpoint, hscope]
  | list selector => simp only [request, listRequest, hendpoint, hscope, ite_self]
  | create body => simp only [request, createRequest, hendpoint, hscope]
  | delete name policy => simp only [request, deleteRequest, hendpoint, hscope]

theorem Call.Same.request_eq {a b : Call} (h : a.Same b) : a.request = b.request := by
  obtain ⟨k, ns, d⟩ := a
  obtain ⟨k', ns', d'⟩ := b
  obtain ⟨hkind, hdeed, hns⟩ := h
  simp only at hkind hdeed hns
  subst hkind
  rw [hdeed.request_eq]
  cases hscoped : k.clusterScoped with
  | false => rw [hns hscoped]
  | true => exact request_of_clusterScoped hscoped ns ns' d'

/-! ## Outcomes -/

def replied : Verb → Except (Failure τ) Value → Except (Failure τ) Reply
  | .read, o => (found o).bind fun object => .ok (.found object)
  | .list, o => (o.bind fun v => (v.field "items").mapError .malformed).bind fun items => .ok (.items items)
  | .create, o => o.bind fun object => .ok (.created object)
  | .delete, o => (deleted o).bind fun existed => .ok (.deleted existed)

theorem inquires_deleted (c : Connection) (k : Kind) (ns name policy : Value) :
    (delete c k ns name policy : Op τ Bool).Inquires c (deleteRequest k ns name policy) deleted := by
  intro w
  rw [inquires_delete c k ns name policy w]
  cases (w.exchange (deleteRequest k ns name policy)).1 with
  | ok v => rfl
  | error e => cases e with | _ => rfl

theorem inquires_perform (c : Connection) (a : Call) :
    (perform c a : Op τ Reply).Inquires c a.request (replied a.deed.verb) := by
  obtain ⟨k, ns, d⟩ := a
  cases d with
  | get name => exact (Condition.inquires_get c k ns name).bind fun _ => rfl
  | list selector => exact (inquires_list c k ns selector).bind fun _ => rfl
  | create body => exact (inquires_create c k ns body).bind fun _ => rfl
  | delete name policy => exact (inquires_deleted c k ns name policy).bind fun _ => rfl

theorem Call.Same.perform_eq {a b : Call} (h : a.Same b) (c : Connection) :
    (perform c a : Op τ Reply) = perform c b := by
  funext w
  rw [inquires_perform c a w, inquires_perform c b w, h.request_eq, h.deed.verb_eq]

/-- What an access sends tells what it is. -/
structure Call.Told (a : Call) (c : Connection) (w : World τ) : Prop where
  exchanges : (perform c a w).2.exchanges = w.exchanges ++ [⟨a.request, w.now, (w.exchange a.request).1⟩]
  same_iff : ∀ b : Call, a.request.SameCall b.request ↔ a.Same b
  outcome : ∀ b : Call, a.Same b → (perform c a : Op τ Reply) = perform c b
  /-- A namespace has no effect on a kind of the whole cluster. -/
  nowhere : a.kind.clusterScoped = true → ∀ ns, ({ a with ns } : Call).request = a.request ∧
    (perform c { a with ns } : Op τ Reply) = perform c a

/-- Through an open connection each access makes one request, and two accesses make the same request exactly if they
are the same. -/
theorem request_tells_access {c : Connection} (a : Call) {w : World τ} (hw : c.isOpen w = true) : a.Told c w := by
  refine ⟨?_, fun b => ⟨Call.same_of_sameCall, fun h => ?_⟩, fun b h => h.perform_eq c, fun hscoped ns => ?_⟩
  · rw [inquires_perform c a w, if_pos (Connection.serves_of_isOpen hw _)]
    exact w.exchanges_exchange a.request
  · rw [h.request_eq]
    exact ⟨rfl, fun _ => rfl⟩
  · have hsame : Call.Same { a with ns } a := ⟨rfl, a.deed.same_refl, fun h => by cases hscoped.symm.trans h⟩
    exact ⟨hsame.request_eq, hsame.perform_eq c⟩

/-- A deletion within a namespace that its kind does not have, and with a policy that says nothing. -/
theorem request_tells_access_of_cluster_role :
    (Call.mk .clusterRole "prod" (.delete "admin" "")).Told ⟨0, {}⟩ (World.initial [] [] : World Rat).connected ∧
      (Call.mk .clusterRole "prod" (.delete "admin" "")).request.SameCall
        (Call.mk .clusterRole .null (.delete "admin" .null)).request := by
  have h := request_tells_access (c := ⟨0, {}⟩) (Call.mk .clusterRole "prod" (.delete "admin" ""))
    (w := (World.initial [] [] : World Rat).connected) rfl
  exact ⟨h, (h.same_iff _).2 ⟨rfl, .delete _ (.inr ⟨rfl, rfl⟩), fun hscoped => by cases hscoped⟩⟩

end Resource

end ClusterControl
