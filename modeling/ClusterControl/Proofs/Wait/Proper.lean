import ClusterControl.Proofs.Wait.Answers

/-!
# Clusters that answer properly

A cluster answers properly that rejects what it does not do, and shows namespaces and jobs of the shape that they
have. Through an open connection to one, the exchanges of a run and its outcome fit.
-/

namespace ClusterControl

open Op

variable {τ α β : Type}

/-! ## Objects of their shape -/

namespace Value

/-- Nothing at all, or an object with metadata, of which the labels are an object if there are any. -/
def ShapedAsNamespace (v : Value) : Prop :=
  v = .null ∨ ∃ metadata, v.field? "metadata" = .obj metadata ∧
    ((metadata.lookup "labels").getD .null = .null ∨ ∃ labels, (metadata.lookup "labels").getD .null = .obj labels)

/-- The conditions of the status are a list of objects, if there are any. -/
def ShapedAsJob (v : Value) : Prop :=
  (v.field? "status").field? "conditions" = .null ∨
    ∃ conditions, (v.field? "status").field? "conditions" = .list conditions ∧
      ∀ c ∈ conditions, ∃ fields, c = .obj fields

end Value

theorem anyM_fulfils {conditions : List Value} (h : ∀ c ∈ conditions, ∃ fields, c = .obj fields)
    (types : List String) : ∃ b, conditions.anyM (fulfils types) = .ok b := by
  induction conditions with
  | nil => exact ⟨false, rfl⟩
  | cons c conditions ih =>
      obtain ⟨fields, rfl⟩ := h c List.mem_cons_self
      obtain ⟨rest, hrest⟩ := ih fun c hc => h c (List.mem_cons_of_mem _ hc)
      rw [List.anyM_cons]
      cases hb : fulfils types (.obj fields) with
      | error m => cases hb
      | ok b =>
          cases b with
          | true => exact ⟨true, rfl⟩
          | false => exact ⟨rest, hrest⟩

theorem hasCondition_of_shaped {v : Value} (h : v.ShapedAsJob) (types : List String) :
    ∃ b, hasCondition v types = .ok b := by
  have heq : hasCondition v types =
      ((v.field? "status").field? "conditions").itemsOrNone.bind (·.anyM (fulfils types)) := rfl
  rw [heq]
  rcases h with hnone | ⟨conditions, hlist, hobjects⟩
  · rw [hnone]
    exact ⟨false, rfl⟩
  · rw [hlist, itemsOrNone_list]
    exact anyM_fulfils hobjects types

/-! ## Scripts -/

/-- A proper answer of the endpoint. -/
def Endpoint.Answers (e : Endpoint) : Except (Failure τ) Value → Prop
  | .error f => ∃ r, f = .rejected r
  | .ok v => (e = ⟨.core, "read_namespace"⟩ → v.ShapedAsNamespace) ∧
      (e = ⟨.batch, "read_namespaced_job"⟩ → v.ShapedAsJob)

def Script.Proper (s : Script τ) : Prop := ∀ e, ∀ a ∈ s.queue e, e.Answers a.outcome

namespace Script

theorem answers_unscripted (r : Request) : r.endpoint.Answers (unscripted r : Except (Failure τ) Value) := by
  have hread {e : Endpoint} (he : r.endpoint = e) (h : e.does "read" = true) :
      r.endpoint.Answers (unscripted r : Except (Failure τ) Value) := by
    rw [unscripted, he, h]
    exact ⟨_, rfl⟩
  by_cases hn : r.endpoint = ⟨.core, "read_namespace"⟩
  · exact hread hn (by decide)
  · by_cases hj : r.endpoint = ⟨.batch, "read_namespaced_job"⟩
    · exact hread hj (by decide)
    · cases hu : (unscripted r : Except (Failure τ) Value) with
      | ok v => exact ⟨fun h => absurd h hn, fun h => absurd h hj⟩
      | error e =>
          unfold unscripted at hu
          split at hu
          · obtain rfl := Except.error.inj hu
            exact ⟨_, rfl⟩
          · repeat' split at hu
            all_goals cases hu

variable [Zero τ] {s : Script τ}

theorem Proper.answers (h : s.Proper) (r : Request) : r.endpoint.Answers (s.answer r).1.outcome := by
  rcases answer_fst s r with hmem | hu
  · exact h r.endpoint _ hmem
  · rw [hu]
    exact answers_unscripted r

theorem Proper.answer (h : s.Proper) (r : Request) : (s.answer r).2.Proper :=
  fun e a ha => h e a (mem_queue_of_answer ha)

end Script

/-! ## Runs on a cluster that answers properly -/

/-- The connection is open, and the cluster answers properly. -/
structure Connection.Ready (c : Connection) (w : World τ) : Prop where
  isOpen : c.isOpen w = true
  proper : w.script.Proper

namespace Connection.Ready

variable {c : Connection} {w v : World τ}

theorem exchange [Time τ] (h : c.Ready w) (r : Request) : c.Ready (w.exchange r).2 := ⟨h.isOpen, h.proper.answer r⟩

theorem noted (h : c.Ready w) (hv : w.Noted v) : c.Ready v := by
  refine ⟨(hv.isOpen_eq c).trans h.isOpen, ?_⟩
  obtain ⟨notes, rfl, _⟩ := hv
  exact h.proper

end Connection.Ready

namespace Op

/-- A run that begins ready ends ready, and its exchanges and its outcome fit. -/
def Proceeds (c : Connection) (x : Op τ α) (T : Trace τ α) : Prop :=
  ∀ w, c.Ready w → c.Ready (x w).2 ∧ ∃ xs, (x w).2.exchanges = w.exchanges ++ xs ∧ T xs (x w).1

variable {c : Connection} {T U : Trace τ α}

theorem Proceeds.mono {x : Op τ α} (h : x.Proceeds c T) (hT : ∀ xs o, T xs o → U xs o) : x.Proceeds c U := by
  intro w hw
  obtain ⟨hready, xs, hxs, ht⟩ := h w hw
  exact ⟨hready, xs, hxs, hT xs _ ht⟩

theorem Proceeds.bind {x : Op τ α} {f : α → Op τ β} {V : α → Trace τ β} (hx : x.Proceeds c T)
    (hf : ∀ a, (f a).Proceeds c (V a)) : (x >>= f).Proceeds c (T.andThen V) := by
  intro w hw
  obtain ⟨hready, xs, hxs, ht⟩ := hx w hw
  rw [bind_run]
  rcases hr : x w with ⟨e | a, v⟩
  · rw [hr] at hready hxs ht
    exact ⟨hready, xs, hxs, .stopped ht⟩
  · rw [hr] at hready hxs ht
    obtain ⟨hready', ys, hys, hv⟩ := hf a v hready
    refine ⟨hready', xs ++ ys, ?_, .onward ht hv⟩
    rw [hys, hxs, List.append_assoc]

theorem Proceeds.onFailure_fail {x : Op τ α} (h : x.Proceeds c T) (f : Failure τ → Failure τ) :
    (x.onFailure fun e => fail (f e)).Proceeds c fun xs o => ∃ r, T xs r ∧ o = r.mapError f := by
  intro w hw
  obtain ⟨hready, xs, hxs, ht⟩ := h w hw
  rw [onFailure]
  rcases hr : x w with ⟨e | a, v⟩
  · rw [hr] at hready hxs ht
    exact ⟨hready, xs, hxs, _, ht, rfl⟩
  · rw [hr] at hready hxs ht
    exact ⟨hready, xs, hxs, _, ht, rfl⟩

theorem Remarks.proceeds {x : Op τ α} {o : Except (Failure τ) α} (h : x.Remarks o) (c : Connection) :
    x.Proceeds c (.silent o) := by
  intro w hw
  obtain ⟨ho, hv⟩ := h w
  exact ⟨hw.noted hv, [], by rw [hv.exchanges, List.append_nil], rfl, ho⟩

variable [Time τ]

theorem Consults.proceeds {x : Op τ α} {r : Request} {answer : Except (Failure τ) Value → Except (Failure τ) α}
    (h : x.Consults c r answer) : x.Proceeds c fun xs o =>
      ∃ y, xs = [y] ∧ y.request = r ∧ r.endpoint.Answers y.outcome ∧ o = answer y.outcome := by
  intro w hw
  obtain ⟨ho, hv⟩ := h w (Connection.serves_of_isOpen hw.isOpen r)
  refine ⟨(hw.exchange r).noted hv, [⟨r, w.now, (w.exchange r).1⟩], ?_, _, rfl, rfl, hw.proper.answers r, ho⟩
  rw [hv.exchanges, World.exchanges_exchange]

end Op

/-! ## Waits -/

variable [Time τ]

namespace Poll.Course

variable {p : Poll τ} {r : Request} {started : τ} {left : Nat} {w : World τ} {xs : List (Exchange τ)}
  {answer : Except (Failure τ) Value → Except (Failure τ) (Option α)} {run : Except (Failure τ) α × World τ}

theorem ready {c : Connection} (h : p.Course r answer started left w xs run) (hw : c.Ready w) :
    c.Ready run.2 ∧ ∀ x ∈ xs, x.request = r ∧ r.endpoint.Answers x.outcome := by
  have hread {w : World τ} (hw : c.Ready w) : r.endpoint.Answers (w.exchange r).1 := hw.proper.answers r
  induction h with
  | unasked => exact ⟨hw, List.forall_mem_nil _⟩
  | decided _ hv => exact ⟨(hw.exchange r).noted hv, List.forall_mem_singleton.2 ⟨rfl, hread hw⟩⟩
  | spent _ hv => exact ⟨(hw.exchange r).noted hv, List.forall_mem_singleton.2 ⟨rfl, hread hw⟩⟩
  | later _ hv _ _ ih =>
      have hv := (hw.exchange r).noted hv
      obtain ⟨hready, hrest⟩ := ih ⟨hv.isOpen, hv.proper⟩
      exact ⟨hready, List.forall_mem_cons.2 ⟨⟨rfl, hread hw⟩, hrest⟩⟩

/-- A wait ends in vain, or as its last answer decides. -/
theorem ends (h : p.Course r answer started left w xs run) :
    run.1 = .error (p.ending started run.2) ∨
      ∃ front x, xs = front ++ [x] ∧ answer x.outcome = run.1.map some := by
  rcases List.eq_nil_or_concat' xs with rfl | ⟨front, x, rfl⟩
  · exact .inl h.of_nil
  · obtain ⟨_, _, hat⟩ := h.atRead rfl
    cases hat with
    | decided _ ha _ => exact .inr ⟨front, x, rfl, ha⟩
    | missed _ hend => exact .inl (hend rfl)

end Poll.Course

/-- A wait with an interval and a timeout that are in order asks one thing, and ends in vain or as the last answer
decides. -/
theorem Condition.proceeds_poll {c : Connection} {r : Request} {k : Condition τ} {interval timeout : Seconds τ}
    {answer : Except (Failure τ) Value → Except (Failure τ) (Option Value)} (h : k.check.Consults c r answer)
    (hi : ¬ interval.amount ≤ 0) (ht : ¬ timeout.amount < 0)
    (hr : timeout.inRange = true ∧ interval.inRange = true) (cancel : Option τ) :
    (k.poll interval timeout cancel).Proceeds c fun xs o =>
      (∀ x ∈ xs, x.request = r ∧ r.endpoint.Answers x.outcome) ∧
        ((∃ (p : Poll τ) (started : τ) (v : World τ), o = .error (p.ending started v)) ∨
          ∃ front x, xs = front ++ [x] ∧ answer x.outcome = o.map some) := by
  intro w hw
  have hp : Poll.obstacle? ⟨k.description, interval, timeout, cancel⟩ = none := by
    simp [Poll.obstacle?, Poll.argumentProblem, hi, ht, hr]
  rcases Poll.run_course (p := ⟨k.description, interval, timeout, cancel⟩) h
      (Connection.serves_of_isOpen hw.isOpen r) with
    ⟨e, he, _⟩ | ⟨_, xs, hcourse⟩
  · cases he.symm.trans hp
  · obtain ⟨hready, hxs⟩ := hcourse.ready hw
    refine ⟨hready, xs, hcourse.exchanges, hxs, hcourse.ends.imp_left fun hend => ?_⟩
    exact ⟨_, _, _, hend⟩

theorem proceeds_withProgress {c : Connection} {body : Op τ α} {T : Trace τ α} (h : body.Proceeds c T)
    (sink : Option (Sink τ)) (message : String) :
    (withProgress sink message body).Proceeds c fun xs o =>
      T xs o ∨ (∃ e, o = .error e ∧ ∃ s ∈ sink, s.Breaks e) ∧ (xs = [] ∨ ∃ o', T xs o') := by
  intro w hw
  rcases withProgress_cases sink message body w with ⟨e, v, hrun, hv, hbreaks⟩ | ⟨u, v, o, hrun, hu, hv, ho⟩
  · rw [hrun]
    exact ⟨hw.noted hv, [], by rw [hv.exchanges, List.append_nil], .inr ⟨⟨e, rfl, hbreaks⟩, .inl rfl⟩⟩
  · rw [hrun]
    obtain ⟨hready, xs, hxs, ht⟩ := h u (hw.noted hu)
    refine ⟨hready.noted hv, xs, by rw [hv.exchanges, hxs, hu.exchanges], ?_⟩
    rcases ho with rfl | ⟨e, rfl, hbreaks⟩
    · exact .inl ht
    · exact .inr ⟨⟨e, rfl, hbreaks⟩, .inr ⟨_, ht⟩⟩

end ClusterControl
