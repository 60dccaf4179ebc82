import ClusterControl.Proofs.Op.Twins
import ClusterControl.Proofs.Wait.Refusals

/-!
# Work taken apart into steps

Whatever is done through a connection is put together from a few sorts of steps: an exchange, a read of one
object that may not be there, a note in the history, a poll. What no step can tell apart, no work can.
-/

namespace ClusterControl

variable {τ α β : Type}

open Op

/-! ## Steps -/

/-- The method reads one object, which may not be there. -/
def Endpoint.readsOne (e : Endpoint) : Bool := e.does "read" || e.method == "get_namespaced_custom_object"

def Event.IsNote (e : Event τ) : Prop := ∀ x, e ≠ .exchange x

def Event.IsLog (e : Event τ) : Prop := ∃ level message, e = .log level message

theorem Event.IsLog.isNote {e : Event τ} (h : e.IsLog) : e.IsNote := by
  obtain ⟨level, message, rfl⟩ := h
  exact fun _ hx => by cases hx

namespace Connection

variable [Time τ]

/-- Reads one object. That it is not there is a result, however the cluster says so. -/
def find (c : Connection) (r : Request) : Op τ (Option Value) := do
  let found ← (c.send r).onNotFound (pure .null)
  pure (if found.isNull then none else some found)

theorem find_run (c : Connection) (r : Request) (w : World τ) :
    c.find r w =
      if c.serves r w then (Resource.found (w.exchange r).1, (w.exchange r).2) else (.error closed, w) := by
  cases ho : c.serves r w with
  | false => simp [find, send_run, bind_run, onNotFound, onRejection, onFailure, ho, closed]
  | true =>
      simp only [find, send_run, bind_run, onNotFound, onRejection, onFailure, ho, if_true]
      rcases w.exchange r with ⟨e | a, v⟩
      · cases e with
        | rejected e =>
            cases he : e.isNotFound with
            | true => simp [Resource.found, Failure.isNotFound, he, Value.isNull]
            | false => simp [Resource.found, Failure.isNotFound, he]
        | _ => rfl
      · rfl

/-- Put together from single steps through the connection. Of the notes it takes each is of the sort `P`. -/
inductive Steps (c : Connection) (P : Event τ → Prop) : {α : Type} → Op τ α → Prop where
  | ofExcept {α : Type} (o : Except (Failure τ) α) : Steps c P (ofExcept o)
  | note {e : Event τ} : P e → Steps c P (update (·.record e))
  | require (g : Group) : Steps c P (c.require g)
  | request {r : Request} : r.endpoint.readsOne = false → Steps c P (request r)
  | find {r : Request} : r.endpoint.readsOne = true → Steps c P (c.find r)
  | close : Steps c P c.close
  | bind {α β : Type} {x : Op τ α} {f : α → Op τ β} :
      Steps c P x → (∀ a, Steps c P (f a)) → Steps c P (x >>= f)
  | onFailure {α : Type} {x : Op τ α} {handle : Failure τ → Op τ α} :
      Steps c P x → (∀ e, Steps c P (handle e)) → Steps c P (x.onFailure handle)
  | attempt {α : Type} {x : Op τ α} : Steps c P x → Steps c P x.attempt
  | poll {α : Type} {check : Op τ (Option α)} (p : Poll τ) : Steps c P check → Steps c P (p.run check)

/-! ## What no step can tell apart -/

/-- A relation between worlds that no single step through the connection can tell apart. -/
structure Blind (c : Connection) (P : Event τ → Prop) (R : World τ → World τ → Prop) : Prop
    extends World.Clocked R where
  has_eq : ∀ w v, R w v → ∀ g, c.has g w = c.has g v
  hasFile_eq : ∀ w v, R w v → c.hasFile w = c.hasFile v
  noting : ∀ w v, R w v → ∀ e, P e → R (w.record e) (v.record e)
  exchange : ∀ w v, R w v → ∀ r : Request, r.endpoint.readsOne = false →
    (w.exchange r).1 = (v.exchange r).1 ∧ R (w.exchange r).2 (v.exchange r).2
  finding : ∀ w v, R w v → ∀ r : Request, r.endpoint.readsOne = true →
    Resource.found (w.exchange r).1 = Resource.found (v.exchange r).1 ∧ R (w.exchange r).2 (v.exchange r).2
  releasing : ∀ w v, R w v → ∀ g, R (w.dropApi c.id g) (v.dropApi c.id g)
  removing : ∀ w v, R w v → R ((w.dropFile c.id).forgetPath c.id) ((v.dropFile c.id).forgetPath c.id)

variable {c : Connection} {P Q : Event τ → Prop} {R : World τ → World τ → Prop}

namespace Blind

variable (hR : c.Blind P R)

include hR

theorem twins_require (g : Group) : Twins R (c.require g) (c.require g) := by
  intro w v h
  simp only [Connection.require, hR.has_eq w v h]
  split
  · exact ⟨rfl, h⟩
  · exact ⟨rfl, h⟩

theorem twins_find {r : Request} (hr : r.endpoint.readsOne = true) : Twins R (c.find r) (c.find r) := by
  intro w v h
  rw [find_run, find_run, serves, hR.has_eq w v h, ← serves]
  split
  · exact hR.finding w v h r hr
  · exact ⟨rfl, h⟩

theorem twins_forM_release (gs : List Group) : Twins R (gs.forM c.release) (gs.forM c.release) := by
  induction gs with
  | nil => exact twins_pure ()
  | cons g gs ih => exact Twins.bind (twins_update fun w v h => hR.releasing w v h g) fun _ => ih

theorem twins_removeFile : Twins R (c.removeFile : Op τ Unit) c.removeFile := by
  intro w v h
  rw [removeFile_run, removeFile_run]
  refine ⟨rfl, ?_⟩
  rw [withoutFile, withoutFile, hR.hasFile_eq w v h]
  split
  · exact hR.removing w v h
  · exact h

theorem twins_close : Twins R (c.close : Op τ Unit) c.close := by
  have hread : Twins R (read (c.has .transport)) (read (c.has .transport)) := fun w v h =>
    ⟨congrArg Except.ok (hR.has_eq w v h .transport), h⟩
  have hrest : Twins R (do c.removeFile; requestGroups.forM c.release)
      (do c.removeFile; requestGroups.forM c.release) :=
    hR.twins_removeFile.bind fun _ => hR.twins_forM_release requestGroups
  refine hread.bind fun isOpen => ?_
  cases isOpen with
  | false => exact hrest
  | true =>
      have hrequest : Twins R (request ⟨⟨.transport, "close"⟩, []⟩) (request ⟨⟨.transport, "close"⟩, []⟩) :=
        fun w v h => hR.exchange w v h _ (by decide)
      exact hrequest.bind fun _ => Twins.bind (twins_update fun w v h => hR.releasing w v h .transport) fun _ => hrest

end Blind

/-- The induction is on the way in which the work is put together; each sort of step has its own law in
`Blind`. -/
theorem Steps.twins {x : Op τ α} (h : c.Steps P x) (hR : c.Blind P R) : Twins R x x := by
  induction h with
  | ofExcept o => exact twins_ofExcept o
  | note he => exact twins_update fun w v h => hR.noting w v h _ he
  | require g => exact hR.twins_require g
  | request hr => exact fun w v h => hR.exchange w v h _ hr
  | find hr => exact hR.twins_find hr
  | close => exact hR.twins_close
  | bind _ _ hx hf => exact hx.bind hf
  | onFailure _ _ hx hh => exact hx.onFailure hh
  | attempt _ hx => exact hx.attempt
  | poll p _ hcheck => exact Poll.twins_run hR.toClocked hcheck p

theorem Steps.mono {x : Op τ α} (h : c.Steps P x) (hPQ : ∀ e, P e → Q e) : c.Steps Q x := by
  induction h with
  | ofExcept o => exact .ofExcept o
  | note he => exact .note (hPQ _ he)
  | require g => exact .require g
  | request hr => exact .request hr
  | find hr => exact .find hr
  | close => exact .close
  | bind _ _ hx hf => exact .bind hx hf
  | onFailure _ _ hx hh => exact .onFailure hx hh
  | attempt _ hx => exact .attempt hx
  | poll p _ hcheck => exact .poll p hcheck

/-! ## Requests -/

theorem steps_pure (a : α) : c.Steps P (pure a : Op τ α) := .ofExcept (.ok a)

theorem steps_fail (e : Failure τ) : c.Steps P (fail e : Op τ α) := .ofExcept (.error e)

theorem steps_look (o : Except Malformed α) : c.Steps P (look o : Op τ α) :=
  .ofExcept (o.mapError .malformed)

theorem steps_send {r : Request} (hr : r.endpoint.readsOne = false) :
    c.Steps P (c.send r : Op τ Value) :=
  .bind (.require _) fun _ => .request hr

theorem Steps.onRejection {x : Op τ α} {handle : Rejection → Op τ α} (hx : c.Steps P x)
    (hh : ∀ e, c.Steps P (handle e)) : c.Steps P (x.onRejection handle) := by
  refine hx.onFailure fun e => ?_
  cases e with
  | rejected e => exact hh e
  | _ => exact steps_fail _

theorem Steps.onNotFound {x otherwise : Op τ α} (hx : c.Steps P x) (ho : c.Steps P otherwise) :
    c.Steps P (x.onNotFound otherwise) := by
  refine hx.onRejection fun e => ?_
  split
  · exact ho
  · exact steps_fail _

theorem Steps.orElse {x : Op τ α} {handle : Failure τ → Op τ α} (hx : c.Steps P x)
    (hh : ∀ e, c.Steps P (handle e)) : c.Steps P (x.orElse handle) := by
  refine hx.onFailure fun e => ?_
  split
  · exact steps_fail e
  · exact hh e

theorem Steps.onCluster {x : Op τ α} {handle : Failure τ → Op τ α} (hx : c.Steps P x)
    (hh : ∀ e, c.Steps P (handle e)) : c.Steps P (x.onCluster handle) := by
  refine hx.onFailure fun e => ?_
  split
  · exact hh e
  · exact steps_fail e

theorem steps_version (c : Connection) : c.Steps P (c.version : Op τ Value) :=
  (steps_send (by decide)).bind fun v => steps_look (v.field "git_version")

end Connection

open Connection

variable [Time τ] {c : Connection} {P : Event τ → Prop}

/-! ## Resources -/

namespace Kind

theorem endpoint_ne_custom (k : Kind) (v : Verb) (ns : Value) :
    (k.endpoint v ns).method ≠ "get_namespaced_custom_object" := by
  obtain ⟨rest, h⟩ := Resource.method_endpoint k v ns
  intro hm
  rw [hm] at h
  have hc := congrArg (fun s : String => s.toList.head?) h
  cases v <;> simp [Verb.label] at hc

theorem readsOne_endpoint (k : Kind) (v : Verb) (ns : Value) :
    (k.endpoint v ns).readsOne = decide (v = .read) := by
  have hread := Resource.does_endpoint k .read v ns
  have hcustom : ((k.endpoint v ns).method == "get_namespaced_custom_object") = false :=
    beq_eq_false_iff_ne.2 (k.endpoint_ne_custom v ns)
  have hlabel : Verb.read.label = "read" := rfl
  rw [hlabel] at hread
  rw [Endpoint.readsOne, hread, hcustom, Bool.or_false]
  cases v <;> rfl

end Kind

namespace Resource

theorem steps_get (c : Connection) (k : Kind) (ns name : Value) :
    c.Steps P (get c k ns name : Op τ (Option Value)) :=
  .find (r := readRequest k ns name) (k.readsOne_endpoint .read ns)

theorem steps_list (c : Connection) (k : Kind) (ns selector : Value) :
    c.Steps P (list c k ns selector : Op τ Value) :=
  (steps_send (r := listRequest k ns selector) (k.readsOne_endpoint .list ns)).bind fun v =>
    steps_look (v.field "items")

theorem steps_create (c : Connection) (k : Kind) (ns body : Value) :
    c.Steps P (create c k ns body : Op τ Value) :=
  steps_send (r := createRequest k ns body) (k.readsOne_endpoint .create ns)

theorem steps_delete (c : Connection) (k : Kind) (ns name policy : Value) :
    c.Steps P (delete c k ns name policy : Op τ Bool) :=
  ((steps_send (r := deleteRequest k ns name policy) (k.readsOne_endpoint .delete ns)).bind fun _ =>
    steps_pure true).onNotFound (steps_pure false)

end Resource

namespace CustomResource

omit [Time τ] in
theorem readsOne_request (r : CustomResource) {method : String} {b : Bool}
    (h : Endpoint.readsOne ⟨.custom, method⟩ = b) (args : List (String × Value)) :
    (r.request method args).endpoint.readsOne = b :=
  h

theorem steps_get (r : CustomResource) (ns name : Value) :
    r.connection.Steps P (r.get ns name : Op τ (Option Value)) :=
  .find (r := r.request "get_namespaced_custom_object" _) (r.readsOne_request (by decide) _)

theorem steps_list (r : CustomResource) (ns selector : Value) :
    r.connection.Steps P (r.list ns selector : Op τ Value) := by
  refine Steps.bind ?_ fun v => steps_look (v.fieldOr "items" (.list []))
  split
  · exact steps_send (r := r.request "list_cluster_custom_object" _) (r.readsOne_request (by decide) _)
  · exact steps_send (r := r.request "list_namespaced_custom_object" _) (r.readsOne_request (by decide) _)

theorem steps_create (r : CustomResource) (ns body : Value) :
    r.connection.Steps P (r.create ns body : Op τ Value) :=
  steps_send (r := r.request "create_namespaced_custom_object" _) (r.readsOne_request (by decide) _)

theorem steps_delete (r : CustomResource) (ns name : Value) :
    r.connection.Steps P (r.delete ns name : Op τ Bool) := by
  have hsend : r.connection.Steps P (r.connection.send
      (r.request "delete_namespaced_custom_object" [("namespace", ns), ("name", name)]) : Op τ Value) :=
    steps_send (r.readsOne_request (by decide) _)
  exact (hsend.bind fun _ => steps_pure true).onNotFound (steps_pure false)

end CustomResource

/-! ## Waits -/

theorem steps_log (level : Level) (message : String) :
    c.Steps Event.IsLog (log level message : Op τ Unit) :=
  .note ⟨level, message, rfl⟩

theorem steps_note_log (level : Level) (message : String) :
    c.Steps Event.IsNote (log level message : Op τ Unit) :=
  (steps_log level message).mono fun _ h => h.isNote

namespace Condition

theorem steps_existing (c : Connection) (k : Kind) (ref : Ref) :
    c.Steps P (existing c k ref : Op τ Value) := by
  refine (Resource.steps_get c k _ _).bind fun found => ?_
  cases found with
  | none => exact steps_fail _
  | some object => exact steps_pure object

theorem steps_holds {x : Op τ Bool} (hx : c.Steps P x) : c.Steps P (holds x) :=
  hx.bind fun b => steps_pure (if b then some Value.null else none)

/-- What a look at the cluster notes goes into the log. -/
theorem Built.steps {k : Condition τ} (h : k.Built c) : c.Steps Event.IsLog k.check := by
  cases h with
  | reports kind types what ns name h =>
      obtain ⟨ref, rfl⟩ := Checked.map_eq_valid h
      exact steps_holds ((steps_existing c kind ref).bind fun v => steps_look (hasCondition v types))
  | namespaceAbsent name h =>
      obtain ⟨ref, rfl⟩ := Checked.map_eq_valid h
      exact steps_holds ((Resource.steps_get c .namespaceKind .null name).bind fun a => steps_pure a.isNone)
  | podAbsent ns selector tolerant h =>
      obtain ⟨ref, rfl⟩ := Checked.map_eq_valid h
      refine steps_holds (Steps.bind (Steps.onRejection ?_ fun e => ?_) fun listed => ?_)
      · exact (Resource.steps_list c .pod ns selector).bind fun pods => steps_pure (some pods)
      · split
        · exact (steps_log _ _).bind fun _ => steps_pure none
        · exact steps_fail _
      · cases listed with
        | none => exact steps_pure true
        | some pods => exact (steps_look pods.count).bind fun n => steps_pure (n == 0)
  | secretPresent ns name h =>
      obtain ⟨ref, rfl⟩ := Checked.map_eq_valid h
      exact Resource.steps_get c .secret ns name
  | definitionExists name h =>
      subst h
      exact steps_holds ((Resource.steps_get c .definition Value.null name).bind fun a => steps_pure a.isSome)

theorem Built.steps_poll {k : Condition τ} (h : k.Built c) (interval timeout : Seconds τ)
    (cancel : Option τ) : c.Steps Event.IsLog (k.poll interval timeout cancel) :=
  .poll _ h.steps

end Condition

namespace DefinitionWait

theorem steps_poll {d : DefinitionWait τ} {k : Condition τ} (h : k.Built c) (timeout : Seconds τ)
    (cancel : Option τ) : c.Steps Event.IsLog (d.poll k timeout cancel) :=
  ((h.steps_poll d.interval timeout cancel).bind fun _ => steps_pure ()).orElse fun _ => steps_fail _

theorem steps_established (d : DefinitionWait τ) (timeout : Seconds τ) (cancel : Option τ) :
    d.connection.Steps Event.IsLog (d.established timeout cancel) := by
  unfold established
  cases hk : (Condition.definitionEstablished d.connection d.name : Checked (Condition τ)) with
  | invalid issues => exact steps_fail (.invalid issues)
  | valid k => exact steps_poll (.reports .definition ["Established"] _ Value.null d.name hk) timeout cancel

theorem steps_finish (d : DefinitionWait τ) (timeout : Seconds τ) (cancel : Option τ) :
    d.connection.Steps Event.IsLog (d.finish timeout cancel) :=
  (steps_established d timeout cancel).bind fun _ => steps_log _ _

theorem steps_run (d : DefinitionWait τ) (timeout : Seconds τ) (establishedTimeout : Option (Seconds τ))
    (cancel : Option τ) : d.connection.Steps Event.IsLog (d.run timeout establishedTimeout cancel) := by
  refine (steps_poll (.definitionExists d.name rfl) timeout cancel).attempt.bind fun o => ?_
  cases o with
  | error e => exact steps_pure (Except.error e, d)
  | ok _ =>
      refine (steps_finish (d.inPhase .awaitingEstablished) _ cancel).attempt.bind fun o => ?_
      cases o with
      | error e => exact steps_pure _
      | ok _ => exact steps_pure _

theorem steps_wait (d : DefinitionWait τ) (timeout : Seconds τ) (establishedTimeout : Option (Seconds τ))
    (cancel : Option τ) : d.connection.Steps Event.IsLog (d.wait timeout establishedTimeout cancel) :=
  (d.steps_run timeout establishedTimeout cancel).bind fun o => .ofExcept o.1

end DefinitionWait

/-! ## Reports -/

namespace Sink

theorem steps_report (s : Sink τ) (stage : Stage) (message : String) :
    c.Steps Event.IsNote (s.report stage message) := by
  refine Steps.orElse ?_ fun e => steps_note_log .warning _
  cases s with
  | logger => cases stage <;> exact steps_note_log _ _
  | relay refuses =>
      refine Steps.bind (.note fun _ h => by cases h) fun _ => ?_
      split
      · exact steps_pure ()
      · exact steps_fail _

theorem steps_around (s : Sink τ) (message : String) {body : Op τ α} (h : c.Steps Event.IsNote body) :
    c.Steps Event.IsNote (s.around message body) := by
  have hfailure (e : Failure τ) : c.Steps Event.IsNote (do
      s.report .failure (message ++ " failed: " ++ e.message)
      fail e : Op τ α) :=
    (s.steps_report .failure _).bind fun _ => steps_fail e
  exact (s.steps_report .start message).bind fun _ => (h.orElse hfailure).bind fun a =>
    (s.steps_report .success message).bind fun _ => steps_pure a

end Sink

theorem steps_withProgress (sink : Option (Sink τ)) (message : String) {body : Op τ α}
    (h : c.Steps Event.IsNote body) : c.Steps Event.IsNote (withProgress sink message body) := by
  cases sink with
  | none => exact h
  | some s => exact s.steps_around message h

end ClusterControl
