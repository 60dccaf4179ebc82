import ClusterControl.Proofs.Connection.Holdings
import ClusterControl.Proofs.Resource.Access
import ClusterControl.Resource.Custom

/-!
# Closed connections

Through a closed connection nothing can be asked. An operation that needs an answer fails at once, and no
operation changes more of the world than the notes in its history.
-/

namespace ClusterControl

variable {τ α β : Type} {c : Connection}

/-! ## Worlds that differ in notes -/

/-- The history of the second world goes on with notes, and all else is the same. -/
def World.Noted (w v : World τ) : Prop :=
  ∃ notes, v = { w with history := notes ++ w.history } ∧ ∀ e ∈ notes, ∀ x, e ≠ .exchange x

namespace World

variable {w v u : World τ}

theorem Noted.refl (w : World τ) : w.Noted w := ⟨[], rfl, fun _ he => absurd he List.not_mem_nil⟩

theorem Noted.trans (h : w.Noted v) (h' : v.Noted u) : w.Noted u := by
  obtain ⟨notes, rfl, hnotes⟩ := h
  obtain ⟨more, rfl, hmore⟩ := h'
  refine ⟨more ++ notes, by simp, fun e he => ?_⟩
  exact (List.mem_append.1 he).elim (hmore e) (hnotes e)

theorem noted_record {e : Event τ} (he : ∀ x, e ≠ .exchange x) (w : World τ) : w.Noted (w.record e) :=
  ⟨[e], rfl, fun e' he' => by rwa [List.mem_singleton.1 he']⟩

theorem Noted.exchanges (h : w.Noted v) : v.exchanges = w.exchanges := by
  obtain ⟨notes, rfl, hnotes⟩ := h
  induction notes with
  | nil => rfl
  | cons e notes ih =>
      have hrest := ih fun e' he' => hnotes e' (List.mem_cons_of_mem e he')
      rw [← hrest]
      have hnote := hnotes e List.mem_cons_self
      change World.exchanges (World.record { w with history := notes ++ w.history } e) = _
      rw [exchanges_record]
      cases e with
      | exchange x => exact absurd rfl (hnote x)
      | _ => exact List.append_nil _

theorem Noted.now_eq (h : w.Noted v) : v.now = w.now := by
  obtain ⟨notes, rfl, _⟩ := h
  rfl

theorem Noted.apis_eq (h : w.Noted v) : v.apis = w.apis := by
  obtain ⟨notes, rfl, _⟩ := h
  rfl

theorem Noted.has_eq (h : w.Noted v) (c : Connection) (g : Group) : c.has g v = c.has g w :=
  Connection.has_congr h.apis_eq c g

theorem Noted.isOpen_eq (h : w.Noted v) (c : Connection) : c.isOpen v = c.isOpen w :=
  Connection.isOpen_congr h.apis_eq c

theorem Noted.resting (h : w.Noted v) : w.Resting v := ⟨h.exchanges, h.now_eq, h.apis_eq⟩

end World

/-! ## Operations that are refused, and operations that do nothing -/

namespace Op

/-- Without the API of the group the operation fails at once, and the world stays as it is. -/
def Refused (c : Connection) (g : Group) (x : Op τ α) : Prop :=
  ∀ w, c.has g w = false → x w = (.error Connection.closed, w)

/-- While the connection is closed the operation asks nothing, takes no time and opens nothing. -/
def Idle (c : Connection) (x : Op τ α) : Prop := ∀ w, c.isClosed w = true → w.Resting (x w).2

variable {g : Group}

theorem Refused.idle {x : Op τ α} (hx : x.Refused c g) : x.Idle c := fun w hw => by
  rw [hx w (Connection.has_of_isClosed hw g)]
  exact .refl w

theorem Refused.bind {x : Op τ α} (hx : x.Refused c g) (f : α → Op τ β) : (x >>= f).Refused c g :=
  fun w hw => by rw [bind_run, hx w hw]

/-- A handling that lets the failure pass does not help. -/
theorem Refused.onFailure {x : Op τ α} {handle : Failure τ → Op τ α} (hx : x.Refused c g)
    (hh : handle Connection.closed = fail Connection.closed) : (x.onFailure handle).Refused c g := by
  intro w hw
  rw [Op.onFailure, hx w hw]
  exact congrFun hh w

theorem Refused.onRejection {x : Op τ α} (hx : x.Refused c g) (handle : Rejection → Op τ α) :
    (x.onRejection handle).Refused c g :=
  hx.onFailure rfl

theorem Refused.onNotFound {x : Op τ α} (hx : x.Refused c g) (otherwise : Op τ α) :
    (x.onNotFound otherwise).Refused c g :=
  hx.onRejection _

theorem idle_ofExcept (o : Except (Failure τ) α) : (ofExcept o).Idle c := fun w _ => .refl w

theorem idle_pure (a : α) : (pure a : Op τ α).Idle c := idle_ofExcept (.ok a)

theorem idle_fail (e : Failure τ) : (fail e : Op τ α).Idle c := idle_ofExcept (.error e)

theorem idle_log (level : Level) (message : String) : (log level message : Op τ Unit).Idle c :=
  fun w _ => (w.noted_record fun _ h => by cases h).resting

theorem Idle.bind {x : Op τ α} {f : α → Op τ β} (hx : x.Idle c) (hf : ∀ a, (f a).Idle c) :
    (x >>= f).Idle c := by
  intro w hw
  have hv := hx w hw
  rw [bind_run]
  rcases hr : x w with ⟨e | a, v⟩
  · rw [hr] at hv
    exact hv
  · rw [hr] at hv
    exact hv.trans (hf a v ((Connection.isClosed_congr hv.apis c).trans hw))

theorem Idle.onFailure {x : Op τ α} {handle : Failure τ → Op τ α} (hx : x.Idle c)
    (hh : ∀ e, (handle e).Idle c) : (x.onFailure handle).Idle c := by
  intro w hw
  have hv := hx w hw
  rw [Op.onFailure]
  rcases hr : x w with ⟨e | a, v⟩
  · rw [hr] at hv
    exact hv.trans (hh e v ((Connection.isClosed_congr hv.apis c).trans hw))
  · rw [hr] at hv
    exact hv

end Op

/-! ## Use of a connection -/

open Op

variable [Time τ]

namespace Connection

theorem refused_send (c : Connection) (r : Request) : (c.send r : Op τ Value).Refused c r.endpoint.group := by
  intro w hw
  have hserves : c.serves r w = false := hw
  rw [send_run, hserves]
  rfl

theorem refused_version (c : Connection) : (c.version : Op τ Value).Refused c .version :=
  (c.refused_send ⟨⟨.version, "get_code"⟩, []⟩).bind _

omit [Time τ] in
theorem idle_access (c : Connection) (label : String) : (c.access label : Op τ Group).Idle c := by
  unfold access
  split
  · exact idle_fail _
  · rename_i g _
    have hrequire : (c.require g : Op τ Unit).Refused c g := fun w hw => by
      rw [require, hw]
      rfl
    exact (hrequire.bind _).idle

/-- What is closed already need not be closed. -/
theorem idle_close (c : Connection) : (c.close : Op τ Unit).Idle c := by
  intro w hw
  rw [close_eq, has_of_isClosed hw, if_neg Bool.false_ne_true]
  rw [shed_of_isClosed hw]
  exact c.resting_withoutFile w

end Connection

namespace Resource

theorem refused_get (c : Connection) (k : Kind) (ns name : Value) :
    (get c k ns name : Op τ (Option Value)).Refused c k.group :=
  ((c.refused_send (readRequest k ns name)).onNotFound _).bind _

theorem refused_list (c : Connection) (k : Kind) (ns selector : Value) :
    (list c k ns selector : Op τ Value).Refused c k.group :=
  (c.refused_send (listRequest k ns selector)).bind _

theorem refused_create (c : Connection) (k : Kind) (ns body : Value) :
    (create c k ns body : Op τ Value).Refused c k.group :=
  c.refused_send (createRequest k ns body)

theorem refused_delete (c : Connection) (k : Kind) (ns name policy : Value) :
    (delete c k ns name policy : Op τ Bool).Refused c k.group :=
  ((c.refused_send (deleteRequest k ns name policy)).bind _).onNotFound _

end Resource

namespace CustomResource

variable (r : CustomResource)

theorem refused_send (method : String) (args : List (String × Value)) :
    (r.connection.send (r.request method args) : Op τ Value).Refused r.connection .custom :=
  r.connection.refused_send (r.request method args)

theorem refused_get (ns name : Value) : (r.get ns name : Op τ (Option Value)).Refused r.connection .custom :=
  ((r.refused_send _ _).onNotFound _).bind _

theorem refused_list (ns selector : Value) : (r.list ns selector : Op τ Value).Refused r.connection .custom := by
  refine Refused.bind ?_ _
  split
  · exact r.refused_send _ _
  · exact r.refused_send _ _

theorem refused_create (ns body : Value) : (r.create ns body : Op τ Value).Refused r.connection .custom :=
  r.refused_send _ _

theorem refused_delete (ns name : Value) : (r.delete ns name : Op τ Bool).Refused r.connection .custom :=
  ((r.refused_send _ _).bind _).onNotFound _

end CustomResource

end ClusterControl
