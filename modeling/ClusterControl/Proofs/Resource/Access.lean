import ClusterControl.Proofs.Op.Trace
import ClusterControl.Resource.Access

/-!
# Access to resources is one request

Reading, creating and deleting a resource sends a single request, whose answer decides the outcome. Through
a closed connection nothing is sent.
-/

namespace ClusterControl

variable {τ α β : Type}

/-- What becomes of a request through a closed connection. -/
def Connection.closed : Failure τ := .runtime "Cluster connection not initialized"

/-! ## Questions -/

namespace Op

/-- One exchange, whose answer decides the outcome. -/
inductive Trace.asks (r : Request) (answer : Except (Failure τ) Value → Except (Failure τ) α) : Trace τ α where
  | unasked : Trace.asks r answer [] (.error Connection.closed)
  | asked {x : Exchange τ} {o : Except (Failure τ) α} :
      x.request = r → o = answer x.outcome → Trace.asks r answer [x] o

/-- One exchange, and what follows if its answer is as it should be. -/
inductive Trace.asksThen (r : Request) (answer : Except (Failure τ) Value → Except (Failure τ) α)
    (U : α → Trace τ β) : Trace τ β where
  | unasked : Trace.asksThen r answer U [] (.error Connection.closed)
  | stopped {x : Exchange τ} {e : Failure τ} :
      x.request = r → answer x.outcome = .error e → Trace.asksThen r answer U [x] (.error e)
  | onward {x : Exchange τ} {a : α} {ys : List (Exchange τ)} {o : Except (Failure τ) β} :
      x.request = r → answer x.outcome = .ok a → U a ys o → Trace.asksThen r answer U (x :: ys) o

variable {r : Request} {answer : Except (Failure τ) Value → Except (Failure τ) α}

theorem Trace.asks.follows (hr : r.mutates = true) {xs : List (Exchange τ)} {o : Except (Failure τ) α}
    (h : Trace.asks r answer xs o) : Trace.follows [r] xs o := by
  cases h with
  | unasked => exact ⟨List.nil_prefix, fun a ha => by cases ha⟩
  | asked hx _ =>
      subst hx
      rw [Trace.follows, mutationsOf_cons, if_pos hr]
      exact ⟨List.prefix_rfl, fun _ _ => rfl⟩

theorem Trace.asks.only {P : Request → Prop} (hr : P r) {xs : List (Exchange τ)} {o : Except (Failure τ) α}
    (h : Trace.asks r answer xs o) : Trace.only P xs o := by
  cases h with
  | unasked => exact List.forall_mem_nil _
  | asked hx _ => exact List.forall_mem_singleton.2 (hx ▸ hr)

theorem Emits.asks_congr {x : Op τ α} {answer' : Except (Failure τ) Value → Except (Failure τ) α}
    (hx : x.Emits (.asks r answer)) (h : ∀ o, answer o = answer' o) : x.Emits (.asks r answer') := by
  obtain rfl : answer = answer' := funext h
  exact hx

theorem Emits.asks_bind {x : Op τ α} {f : α → Op τ β} {next : α → Except (Failure τ) β}
    (hx : x.Emits (.asks r answer)) (hf : ∀ a, (f a).Emits (.silent (next a))) :
    (x >>= f).Emits (.asks r fun o => (answer o).bind next) := by
  refine (hx.bind_silent hf).mono ?_
  rintro xs _ ⟨o, h, rfl⟩
  cases h with
  | unasked => exact .unasked
  | asked hr ho => exact .asked hr (congrArg (Except.bind · next) ho)

theorem Emits.asks_andThen {x : Op τ α} {f : α → Op τ β} {U : α → Trace τ β} (hx : x.Emits (.asks r answer))
    (hf : ∀ a, (f a).Emits (U a)) : (x >>= f).Emits (.asksThen r answer U) := by
  refine (hx.bind hf).mono fun xs o h => ?_
  cases h with
  | stopped h =>
      cases h with
      | unasked => exact .unasked
      | asked hr ho => exact .stopped hr ho.symm
  | onward h hu =>
      cases h with
      | asked hr ho => exact .onward hr ho.symm hu

theorem Emits.asks_onFailure {x : Op τ α} {handle : Failure τ → Op τ α}
    {next : Failure τ → Except (Failure τ) α} (hx : x.Emits (.asks r answer))
    (hh : ∀ e, (handle e).Emits (.silent (next e)))
    (hc : next Connection.closed = .error Connection.closed) :
    (x.onFailure handle).Emits (.asks r fun o => recovered next (answer o)) := by
  refine (hx.onFailure_silent hh).mono ?_
  rintro xs _ ⟨o, h, rfl⟩
  cases h with
  | unasked =>
      rw [recovered, hc]
      exact .unasked
  | asked hr ho => exact .asked hr (congrArg (recovered next) ho)

/-- Handling a rejection without a further request. -/
def rejectedOr (next : Rejection → Except (Failure τ) α) : Failure τ → Except (Failure τ) α
  | .rejected e => next e
  | e => .error e

theorem Emits.asks_onRejection {x : Op τ α} {handle : Rejection → Op τ α}
    {next : Rejection → Except (Failure τ) α} (hx : x.Emits (.asks r answer))
    (hh : ∀ e, (handle e).Emits (.silent (next e))) :
    (x.onRejection handle).Emits (.asks r fun o => recovered (rejectedOr next) (answer o)) := by
  refine hx.asks_onFailure (fun e => ?_) rfl
  cases e with
  | rejected e => exact hh e
  | _ => exact emits_fail _

theorem Emits.asks_onNotFound {x otherwise : Op τ α} {o' : Except (Failure τ) α}
    (hx : x.Emits (.asks r answer)) (ho : otherwise.Emits (.silent o')) :
    (x.onNotFound otherwise).Emits (.asks r fun o =>
      recovered (rejectedOr fun e => if e.isNotFound then o' else .error (.rejected e)) (answer o)) := by
  apply hx.asks_onRejection
  intro e
  split
  · exact ho
  · exact emits_fail _

end Op

/-- The answer to a read says that nothing is there. -/
def Exchange.absent (x : Exchange τ) : Bool :=
  match x.outcome with
  | .ok v => v.isNull
  | .error e => e.isNotFound

open Op

variable [Time τ]

theorem Connection.send_run (c : Connection) (r : Request) (w : World τ) :
    c.send r w = if c.serves r w then w.exchange r else (.error closed, w) := by
  cases hg : c.has r.endpoint.group w with
  | true => simp [send, bind_run, require, serves, hg, request]
  | false => simp [send, bind_run, require, serves, hg, closed]

theorem Connection.emits_send (c : Connection) (r : Request) :
    (c.send r : Op τ Value).Emits (.asks r fun o => o) := by
  intro w
  rw [send_run]
  cases c.serves r w with
  | false => exact ⟨[], (List.append_nil _).symm, .unasked⟩
  | true => exact ⟨_, World.exchanges_exchange w r, .asked rfl rfl⟩

/-- The request deletes something. -/
def Request.deletes (r : Request) : Bool := r.endpoint.does Verb.delete.label

theorem Request.deletes_of_mutates {r : Request} (h : r.mutates = false) : r.deletes = false :=
  (Bool.or_eq_false_iff.1 h).2

namespace Resource

/-! ## Answers -/

/-- What an answer to a read says is there. -/
def found : Except (Failure τ) Value → Except (Failure τ) (Option Value)
  | .ok v => .ok (if v.isNull then none else some v)
  | .error e => if e.isNotFound then .ok none else .error e

/-- However it is said: the object that was asked for is not there. -/
def SaysAbsent (o : Except (Failure τ) Value) : Prop := found o = .ok none

/-- Whether an answer to a deletion says that there was something to delete. -/
def deleted : Except (Failure τ) Value → Except (Failure τ) Bool
  | .ok _ => .ok true
  | .error e => if e.isNotFound then .ok false else .error e

omit [Time τ] in
theorem found_eq_none_iff {x : Exchange τ} : found x.outcome = .ok none ↔ x.absent = true := by
  unfold found Exchange.absent
  cases x.outcome with
  | ok v => cases v.isNull <;> simp
  | error e => cases e.isNotFound <;> simp

theorem emits_get (c : Connection) (k : Kind) (ns name : Value) :
    (get c k ns name : Op τ (Option Value)).Emits (.asks (readRequest k ns name) found) := by
  have h := ((c.emits_send (τ := τ) (readRequest k ns name)).asks_onNotFound (emits_pure .null)).asks_bind
    fun v => emits_pure (if v.isNull then none else some v)
  apply h.asks_congr
  intro o
  cases o with
  | ok v => rfl
  | error e =>
      cases e with
      | rejected e =>
          by_cases hn : e.isNotFound = true
          · simp [recovered, rejectedOr, found, Failure.isNotFound, hn, Except.bind, Value.isNull]
          · simp [recovered, rejectedOr, found, Failure.isNotFound, hn, Except.bind]
      | _ => rfl

theorem emits_create (c : Connection) (k : Kind) (ns body : Value) :
    (create c k ns body : Op τ Value).Emits (.asks (createRequest k ns body) fun o => o) :=
  c.emits_send _

theorem emits_delete (c : Connection) (k : Kind) (ns name policy : Value) :
    (delete c k ns name policy : Op τ Bool).Emits (.asks (deleteRequest k ns name policy) deleted) := by
  have h := ((c.emits_send (τ := τ) (deleteRequest k ns name policy)).asks_bind
    fun _ => emits_pure true).asks_onNotFound (emits_pure false)
  apply h.asks_congr
  intro o
  cases o with
  | ok v => rfl
  | error e =>
      cases e with
      | _ => rfl

/-! ## Which requests change what is stored -/

theorem method_endpoint (k : Kind) (v : Verb) (ns : Value) :
    ∃ rest, (k.endpoint v ns).method = v.label ++ "_" ++ rest := by
  simp only [Kind.endpoint]
  split
  · exact ⟨_, rfl⟩
  · split
    · rename_i h
      obtain rfl : v = .list := by simp_all
      exact ⟨k.methodName ++ "_for_all_namespaces", by simp [Verb.label, ← String.append_assoc]⟩
    · refine ⟨"namespaced_" ++ k.methodName, ?_⟩
      have hsplit : "_namespaced_" = "_" ++ "namespaced_" := rfl
      simp only [hsplit, String.append_assoc]

/-- The method that serves a verb does what the verb says, and nothing else. -/
theorem does_endpoint (k : Kind) (u v : Verb) (ns : Value) :
    (k.endpoint v ns).does u.label = decide (u = v) := by
  obtain ⟨rest, h⟩ := method_endpoint k v ns
  rw [Endpoint.does, h]
  cases u <;> cases v <;> simp [Verb.label, List.isPrefixOf]

theorem mutates_readRequest (k : Kind) (ns name : Value) : (readRequest k ns name).mutates = false := by
  have hc := does_endpoint k .create .read ns
  have hd := does_endpoint k .delete .read ns
  simp_all [Request.mutates, readRequest, Verb.label]

theorem mutates_createRequest (k : Kind) (ns body : Value) : (createRequest k ns body).mutates = true := by
  have hc := does_endpoint k .create .create ns
  simp_all [Request.mutates, createRequest, Verb.label]

theorem mutates_deleteRequest (k : Kind) (ns name policy : Value) :
    (deleteRequest k ns name policy).mutates = true := by
  have hd := does_endpoint k .delete .delete ns
  simp_all [Request.mutates, deleteRequest, Verb.label]

theorem deletes_createRequest (k : Kind) (ns body : Value) : (createRequest k ns body).deletes = false :=
  does_endpoint k .delete .create ns

theorem deletes_deleteRequest (k : Kind) (ns name policy : Value) :
    (deleteRequest k ns name policy).deletes = true :=
  does_endpoint k .delete .delete ns

theorem policy_deleteRequest (k : Kind) (ns name policy : Value) :
    (deleteRequest k ns name policy).arg "propagation_policy" = if policy.truthy then policy else .null := by
  cases hk : k.clusterScoped <;> cases hp : policy.truthy <;>
    simp [deleteRequest, optionalArg, Request.arg, Kind.scopeArgs, hk, hp, List.lookup_cons]

end Resource

end ClusterControl
