import ClusterControl.Proofs.Connection.Operations
import ClusterControl.Proofs.Op.Orderly
import Mathlib.Data.List.Forall2

/-!
# Not found is one signal

A cluster can reject the reading of an object as not found, or answer it with nothing. Clusters that differ only
in this are told apart by no work: it takes the same course with both.
-/

namespace ClusterControl

variable {τ α : Type}

open Resource

/-! ## Responses -/

/-- Responses that mean the same. Only where one object is read may they differ, and then both say that it is
not there, at the same cost. -/
inductive Response.Alike (e : Endpoint) : Response τ → Response τ → Prop where
  | same (a : Response τ) : Alike e a a
  | absent {a b : Response τ} : e.readsOne = true → SaysAbsent a.outcome → SaysAbsent b.outcome →
      a.cost = b.cost → Alike e a b

namespace Response.Alike

variable {e : Endpoint} {a b : Response τ}

theorem cost_eq (h : Alike e a b) : a.cost = b.cost := by
  cases h with
  | same => rfl
  | absent _ _ _ hcost => exact hcost

theorem found_eq (h : Alike e a b) : found a.outcome = found b.outcome := by
  cases h with
  | same => rfl
  | absent _ ha hb _ => exact ha.trans hb.symm

theorem outcome_eq (h : Alike e a b) (he : e.readsOne = false) : a.outcome = b.outcome := by
  cases h with
  | same => rfl
  | absent hreads => rw [he] at hreads; cases hreads

end Response.Alike

/-! ## Scripts -/

/-- From every queue the same number of responses comes, and they are alike one by one. -/
def Script.Alike (s t : Script τ) : Prop := ∀ e, List.Forall₂ (Response.Alike e) (s.queue e) (t.queue e)

namespace Script

theorem Alike.refl (s : Script τ) : s.Alike s := fun _ => List.forall₂_same.2 fun a _ => .same a

theorem Alike.put {s t : Script τ} {e : Endpoint} {as bs : List (Response τ)} (h : s.Alike t)
    (hq : List.Forall₂ (Response.Alike e) as bs) : (s.put e as).Alike (t.put e bs) := by
  intro f
  rw [queue_put, queue_put]
  split
  · rename_i hf
    exact hf ▸ hq
  · exact h f

variable [Zero τ]

theorem Alike.answer {s t : Script τ} (h : s.Alike t) (r : Request) :
    Response.Alike r.endpoint (s.answer r).1 (t.answer r).1 ∧ (s.answer r).2.Alike (t.answer r).2 := by
  have hq := h r.endpoint
  generalize hs : s.queue r.endpoint = as at hq
  generalize ht : t.queue r.endpoint = bs at hq
  simp only [Script.answer, hs, ht]
  cases hq with
  | nil => exact ⟨.same _, h⟩
  | cons hab hrest =>
      cases hrest with
      | nil => exact ⟨hab, h⟩
      | cons hab' hrest' => exact ⟨hab, h.put (.cons hab' hrest')⟩

end Script

/-! ## Worlds -/

/-- The same event, up to how an answer says that an object is not there. -/
inductive Event.Alike : Event τ → Event τ → Prop where
  | same (e : Event τ) : Alike e e
  | exchange (r : Request) (start : τ) {o o' : Except (Failure τ) Value} :
      SaysAbsent o → SaysAbsent o' → Alike (.exchange ⟨r, start, o⟩) (.exchange ⟨r, start, o'⟩)

theorem Event.Alike.of_response {a b : Response τ} {r : Request} (h : Response.Alike r.endpoint a b) (start : τ) :
    Alike (.exchange ⟨r, start, a.outcome⟩) (.exchange ⟨r, start, b.outcome⟩) := by
  cases h with
  | same => exact .same _
  | absent _ ha hb _ => exact .exchange r start ha hb

/-- The clusters mean the same, and so does what they answered so far. All else is the same. -/
def World.Alike (w v : World τ) : Prop :=
  ∃ t history, v = { w with script := t, history } ∧ w.script.Alike t ∧
    List.Forall₂ Event.Alike w.history history

/-- What was asked, and when. -/
def World.calls (w : World τ) : List (Request × τ) := w.exchanges.map fun x => (x.request, x.start)

namespace World.Alike

variable {w v : World τ}

theorem of_scripts {s t : Script τ} (h : s.Alike t) (w : World τ) :
    Alike { w with script := s } { w with script := t } :=
  ⟨t, w.history, rfl, h, List.forall₂_same.2 fun e _ => .same e⟩

theorem now_eq (h : w.Alike v) : w.now = v.now := by
  obtain ⟨t, history, rfl, _⟩ := h
  rfl

/-- A view that does not look at answers is the same. -/
theorem view_eq {β : Type} (h : w.Alike v) {view : Event τ → Option β}
    (hview : ∀ e e', Event.Alike e e' → view e = view e') :
    w.events.filterMap view = v.events.filterMap view := by
  have hevents {es fs : List (Event τ)} (h : List.Forall₂ Event.Alike es fs) :
      es.filterMap view = fs.filterMap view := by
    induction h with
    | nil => rfl
    | cons he _ ih => rw [List.filterMap_cons, List.filterMap_cons, hview _ _ he, ih]
  obtain ⟨t, history, rfl, _, hhistory⟩ := h
  rw [events, events, List.filterMap_reverse, List.filterMap_reverse, hevents hhistory]

theorem calls_eq (h : w.Alike v) : w.calls = v.calls := by
  rw [calls, calls, exchanges, exchanges, List.map_filterMap, List.map_filterMap]
  refine h.view_eq fun e e' he => ?_
  cases he with
  | same => rfl
  | exchange => rfl

theorem progress_eq (h : w.Alike v) : w.progress = v.progress := by
  refine h.view_eq fun e e' he => ?_
  cases he with
  | same => rfl
  | exchange => rfl

theorem logs_eq (h : w.Alike v) : w.logs = v.logs := by
  refine h.view_eq fun e e' he => ?_
  cases he with
  | same => rfl
  | exchange => rfl

variable [Time τ]

theorem exchange (h : w.Alike v) (r : Request) :
    Response.Alike r.endpoint (w.script.answer r).1 (v.script.answer r).1 ∧
      (w.exchange r).2.Alike (v.exchange r).2 := by
  obtain ⟨t, history, rfl, hscript, hhistory⟩ := h
  obtain ⟨hanswer, hrest⟩ := hscript.answer r
  refine ⟨hanswer, _, _, ?_, hrest, .cons (.of_response hanswer w.now) hhistory⟩
  simp only [World.exchange, World.record, hanswer.cost_eq]

end World.Alike

/-! ## Courses -/

/-- A run as its caller sees it: how it ended, what it asked, what it reported and noted, and how long it
took. -/
structure SameCourse (run run' : Except (Failure τ) α × World τ) : Prop where
  outcome : run.1 = run'.1
  calls : run.2.calls = run'.2.calls
  progress : run.2.progress = run'.2.progress
  logs : run.2.logs = run'.2.logs
  now : run.2.now = run'.2.now

open Op

variable [Time τ] {c : Connection}

omit [Time τ] in
theorem Op.Twins.sameCourse {x y : Op τ α} (hxy : Twins World.Alike x y) {w v : World τ} (h : w.Alike v) :
    SameCourse (x w) (y v) := by
  obtain ⟨ho, hr⟩ := hxy w v h
  exact ⟨ho, hr.calls_eq, hr.progress_eq, hr.logs_eq, hr.now_eq⟩

/-- No step can tell how a cluster says that an object is not there. -/
theorem Connection.blind_alike (P : Event τ → Prop) : c.Blind P World.Alike where
  now_eq _ _ h := h.now_eq
  waiting w v h t := by
    obtain ⟨u, history, rfl, hscript, hhistory⟩ := h
    exact ⟨u, history, rfl, hscript, hhistory⟩
  has_eq w v h g := by
    obtain ⟨u, history, rfl, _⟩ := h
    rfl
  hasFile_eq w v h := by
    obtain ⟨u, history, rfl, _⟩ := h
    rfl
  noting w v h e _ := by
    obtain ⟨u, history, rfl, hscript, hhistory⟩ := h
    exact ⟨u, e :: history, rfl, hscript, .cons (.same e) hhistory⟩
  exchange w v h r hr := ⟨(h.exchange r).1.outcome_eq hr, (h.exchange r).2⟩
  finding w v h r _ := ⟨(h.exchange r).1.found_eq, (h.exchange r).2⟩
  releasing w v h g := by
    obtain ⟨u, history, rfl, hscript, hhistory⟩ := h
    exact ⟨u, history, rfl, hscript, hhistory⟩
  removing w v h := by
    obtain ⟨u, history, rfl, hscript, hhistory⟩ := h
    exact ⟨u, history, rfl, hscript, hhistory⟩

namespace Resource

/-- On clusters that differ only in how they say that an object is not there, all work takes the same course, and
so does the detection of a platform by strategies that are known. -/
theorem notFound_is_one_signal {s t : Script τ} (h : s.Alike t) (w : World τ) :
    (∀ (c : Connection) {α : Type} {x : Op τ α}, c.Works x →
      SameCourse (x { w with script := s }) (x { w with script := t })) ∧
    ∀ (c : Connection) (strategies : List (Strategy τ)),
      (∀ p ∈ strategies, p ∈ Strategy.known ∨ p = Strategy.generic) →
      SameCourse (Platform.detect c strategies { w with script := s })
        (Platform.detect c strategies { w with script := t }) := by
  have hworlds := World.Alike.of_scripts h w
  refine ⟨fun c _ x hx => ?_, fun c strategies hknown => ?_⟩
  · exact (hx.steps.twins (c.blind_alike _)).sameCourse hworlds
  · have hsteps := Platform.steps_detect fun p hp => (hknown p hp).elim (Strategy.stepwise_known c p)
      fun hgeneric => hgeneric ▸ Strategy.stepwise_generic c
    exact (hsteps.twins (c.blind_alike _)).sameCourse hworlds

/-- A wait for a secret that is not there at first. -/
theorem notFound_is_one_signal_of_secret :
    let endpoint := Kind.secret.endpoint .read "jobs"
    let rejecting : Response Rat := ⟨.error (.rejected ⟨.int 404, "Not Found", .null⟩), 1⟩
    let silent : Response Rat := ⟨.ok .null, 1⟩
    let showing : Response Rat := ⟨.ok (.obj [("data", .obj [])]), 0⟩
    let s : Script Rat := Script.put [] endpoint [rejecting, silent, showing]
    let t : Script Rat := Script.put [] endpoint [silent, silent, showing]
    let w : World Rat := (World.initial [] []).connected
    let wait := Cluster.watchful.await {} (.secret "jobs" "token")
    s.Alike t ∧ (wait { w with script := s }).1.isOk = true ∧
      SameCourse (wait { w with script := s }) (wait { w with script := t }) := by
  intro endpoint rejecting silent showing s t w wait
  have habsent : Response.Alike endpoint rejecting silent := .absent (by decide +kernel) rfl rfl rfl
  have halike : s.Alike t := (Script.Alike.refl []).put (.cons habsent (.cons (.same _) (.cons (.same _) .nil)))
  obtain ⟨hwork, _⟩ := notFound_is_one_signal halike w
  exact ⟨halike, by decide +kernel, hwork ⟨0, {}⟩ (.await Cluster.watchful {} (.secret "jobs" "token") rfl)⟩

end Resource

end ClusterControl
