import ClusterControl.Op
import ClusterControl.Proofs.Lists

/-!
# What an operation exchanges with the cluster

An operation is described by the exchanges that a run adds to the history together with the outcome of
the run, whatever the world is in which it runs.
-/

namespace ClusterControl

variable {τ α β : Type}

/-! ## Exchanges of a world -/

namespace World

theorem exchanges_record (w : World τ) (e : Event τ) :
    (w.record e).exchanges = w.exchanges ++ (match e with | .exchange x => [x] | _ => []) := by
  cases e <;> simp [exchanges]

theorem exchanges_exchange [Time τ] (w : World τ) (r : Request) :
    (w.exchange r).2.exchanges = w.exchanges ++ [⟨r, w.now, (w.exchange r).1⟩] := by
  simp [exchange, exchanges, record, events]

theorem exchanges_pause [Time τ] (w : World τ) (d : τ) (cancel : Option τ) :
    (w.pause d cancel).exchanges = w.exchanges := by
  simp [exchanges]

end World

/-- The requests that can have changed what the cluster stores. -/
def mutationsOf (xs : List (Exchange τ)) : List Request :=
  (xs.map Exchange.request).filter Request.mutates

@[simp] theorem mutationsOf_append (xs ys : List (Exchange τ)) :
    mutationsOf (xs ++ ys) = mutationsOf xs ++ mutationsOf ys := by
  simp [mutationsOf]

theorem mutationsOf_cons (x : Exchange τ) (xs : List (Exchange τ)) :
    mutationsOf (x :: xs) = if x.request.mutates then x.request :: mutationsOf xs else mutationsOf xs := by
  simp only [mutationsOf, List.map_cons, List.filter_cons]

theorem mutationsOf_eq_nil {xs : List (Exchange τ)} (h : ∀ x ∈ xs, x.request.mutates = false) :
    mutationsOf xs = [] := by
  simpa [mutationsOf] using h

/-! ## Traces -/

namespace Op

/-- Exchanges together with the outcome of the run that made them. -/
abbrev Trace (τ α : Type) := List (Exchange τ) → Except (Failure τ) α → Prop

/-- Whatever the world, the exchanges of a run and its outcome fit. -/
def Emits (x : Op τ α) (T : Trace τ α) : Prop :=
  ∀ w, ∃ xs, (x w).2.exchanges = w.exchanges ++ xs ∧ T xs (x w).1

/-- Nothing is exchanged. -/
def Trace.silent (o : Except (Failure τ) α) : Trace τ α := fun xs o' => xs = [] ∧ o' = o

/-- The first part fails, or the second part follows it. -/
inductive Trace.andThen (T : Trace τ α) (U : α → Trace τ β) : Trace τ β where
  | stopped {xs : List (Exchange τ)} {e : Failure τ} : T xs (.error e) → Trace.andThen T U xs (.error e)
  | onward {xs ys : List (Exchange τ)} {a : α} {o : Except (Failure τ) β} :
      T xs (.ok a) → U a ys o → Trace.andThen T U (xs ++ ys) o

/-- The first part succeeds, or the handling of its failure follows it. -/
inductive Trace.orHandle (T : Trace τ α) (U : Failure τ → Trace τ α) : Trace τ α where
  | done {xs : List (Exchange τ)} {a : α} : T xs (.ok a) → Trace.orHandle T U xs (.ok a)
  | handled {xs ys : List (Exchange τ)} {e : Failure τ} {o : Except (Failure τ) α} :
      T xs (.error e) → U e ys o → Trace.orHandle T U (xs ++ ys) o

variable {T U : Trace τ α}

theorem Emits.mono {x : Op τ α} (h : x.Emits T) (hT : ∀ xs o, T xs o → U xs o) : x.Emits U := by
  intro w
  obtain ⟨xs, hxs, ht⟩ := h w
  exact ⟨xs, hxs, hT xs _ ht⟩

/-- Two descriptions of one operation hold of the same exchanges. -/
theorem Emits.and {x : Op τ α} (h : x.Emits T) (h' : x.Emits U) :
    x.Emits fun xs o => T xs o ∧ U xs o := by
  intro w
  obtain ⟨xs, hxs, ht⟩ := h w
  obtain ⟨ys, hys, hu⟩ := h' w
  obtain rfl : xs = ys := List.append_cancel_left (hxs.symm.trans hys)
  exact ⟨xs, hxs, ht, hu⟩

theorem emits_ofExcept (o : Except (Failure τ) α) : (ofExcept o).Emits (.silent o) :=
  fun _ => ⟨[], (List.append_nil _).symm, rfl, rfl⟩

theorem emits_pure (a : α) : (pure a : Op τ α).Emits (.silent (.ok a)) := emits_ofExcept (.ok a)

theorem emits_fail (e : Failure τ) : (fail e : Op τ α).Emits (.silent (.error e)) :=
  emits_ofExcept (.error e)

theorem emits_look (x : Except Malformed α) :
    (look x : Op τ α).Emits fun xs o => xs = [] ∧ ∀ a, o = .ok a → x = .ok a := by
  refine (emits_ofExcept (x.mapError .malformed)).mono ?_
  rintro xs o ⟨rfl, rfl⟩
  refine ⟨rfl, fun a ha => ?_⟩
  cases x with
  | ok b => exact congrArg Except.ok (Except.ok.inj ha)
  | error m => cases ha

theorem emits_log (level : Level) (message : String) :
    (log level message : Op τ Unit).Emits (.silent (.ok ())) :=
  fun w => ⟨[], World.exchanges_record w _, rfl, rfl⟩

theorem Emits.bind {x : Op τ α} {f : α → Op τ β} {V : α → Trace τ β} (hx : x.Emits T)
    (hf : ∀ a, (f a).Emits (V a)) : (x >>= f).Emits (T.andThen V) := by
  intro w
  obtain ⟨xs, hxs, ht⟩ := hx w
  rw [bind_run]
  rcases hr : x w with ⟨e | a, v⟩
  · rw [hr] at hxs ht
    exact ⟨xs, hxs, .stopped ht⟩
  · rw [hr] at hxs ht
    obtain ⟨ys, hys, hv⟩ := hf a v
    refine ⟨xs ++ ys, ?_, .onward ht hv⟩
    rw [hys, hxs, List.append_assoc]

/-- What exchanges nothing decides the outcome only. -/
theorem Emits.bind_silent {x : Op τ α} {f : α → Op τ β} {next : α → Except (Failure τ) β} (hx : x.Emits T)
    (hf : ∀ a, (f a).Emits (.silent (next a))) : (x >>= f).Emits fun xs o => ∃ r, T xs r ∧ o = r.bind next := by
  refine (hx.bind hf).mono fun xs o h => ?_
  cases h with
  | stopped ht => exact ⟨_, ht, rfl⟩
  | onward ht hs =>
      obtain ⟨rfl, rfl⟩ := hs
      rw [List.append_nil]
      exact ⟨_, ht, rfl⟩

theorem Emits.silent_bind {x : Op τ α} {f : α → Op τ β} {o : Except (Failure τ) α}
    {next : α → Except (Failure τ) β} (hx : x.Emits (.silent o)) (hf : ∀ a, (f a).Emits (.silent (next a))) :
    (x >>= f).Emits (.silent (o.bind next)) := by
  refine (hx.bind_silent hf).mono ?_
  rintro _ _ ⟨_, ⟨rfl, rfl⟩, rfl⟩
  exact ⟨rfl, rfl⟩

theorem Emits.bind_pure {x : Op τ α} (hx : x.Emits T) (f : α → β) :
    (x >>= fun a => pure (f a)).Emits fun xs o => ∃ r, T xs r ∧ o = r.map f := by
  refine (hx.bind_silent fun a => emits_pure (f a)).mono ?_
  rintro xs _ ⟨r, ht, rfl⟩
  exact ⟨r, ht, by cases r <;> rfl⟩

theorem Emits.bind_log {x : Op τ Unit} {T : Trace τ Unit} (h : x.Emits T) (level : Level)
    (message : String) : (x >>= fun _ => log level message).Emits T := by
  refine (h.bind_silent fun _ => emits_log level message).mono ?_
  rintro xs _ ⟨r, ht, rfl⟩
  cases r with
  | error e => exact ht
  | ok _ => exact ht

theorem Emits.log_bind {x : Op τ α} (h : x.Emits T) (level : Level) (message : String) :
    (log level message >>= fun _ => x).Emits T := by
  refine ((emits_log level message).bind fun _ => h).mono fun xs o ht => ?_
  cases ht with
  | stopped hlog => cases hlog.2
  | onward hlog ht =>
      obtain ⟨rfl, _⟩ := hlog
      exact ht

theorem Emits.onFailure {x : Op τ α} {handle : Failure τ → Op τ α} {V : Failure τ → Trace τ α}
    (hx : x.Emits T) (hh : ∀ e, (handle e).Emits (V e)) : (x.onFailure handle).Emits (T.orHandle V) := by
  intro w
  obtain ⟨xs, hxs, ht⟩ := hx w
  rw [Op.onFailure]
  rcases hr : x w with ⟨e | a, v⟩
  · rw [hr] at hxs ht
    obtain ⟨ys, hys, hv⟩ := hh e v
    refine ⟨xs ++ ys, ?_, .handled ht hv⟩
    rw [hys, hxs, List.append_assoc]
  · rw [hr] at hxs ht
    exact ⟨xs, hxs, .done ht⟩

/-- The outcome after the handling of a failure. -/
def recovered (handle : Failure τ → Except (Failure τ) α) :
    Except (Failure τ) α → Except (Failure τ) α
  | .ok a => .ok a
  | .error e => handle e

/-- A handling that exchanges nothing decides the outcome only. -/
theorem Emits.onFailure_silent {x : Op τ α} {handle : Failure τ → Op τ α} {next : Failure τ → Except (Failure τ) α}
    (hx : x.Emits T) (hh : ∀ e, (handle e).Emits (.silent (next e))) :
    (x.onFailure handle).Emits fun xs o => ∃ r, T xs r ∧ o = recovered next r := by
  refine (hx.onFailure hh).mono fun xs o h => ?_
  cases h with
  | done ht => exact ⟨_, ht, rfl⟩
  | handled ht hs =>
      obtain ⟨rfl, rfl⟩ := hs
      rw [List.append_nil]
      exact ⟨_, ht, rfl⟩

/-! ## Plans -/

/-- The mutating requests are the first ones of a plan, and all of it if the run succeeds. -/
def Trace.follows (plan : List Request) : Trace τ α := fun xs o =>
  mutationsOf xs <+: plan ∧ ∀ a, o = .ok a → mutationsOf xs = plan

theorem Trace.follows_silent {o : Except (Failure τ) α} {xs : List (Exchange τ)}
    {o' : Except (Failure τ) α} (h : Trace.silent o xs o') : Trace.follows [] xs o' := by
  obtain ⟨rfl, _⟩ := h
  exact ⟨List.nil_prefix, fun _ _ => rfl⟩

theorem Trace.follows.andThen {plan rest : List Request} {xs : List (Exchange τ)}
    {o : Except (Failure τ) β}
    (h : Trace.andThen (Trace.follows plan : Trace τ α) (fun _ => Trace.follows rest) xs o) :
    Trace.follows (plan ++ rest) xs o := by
  cases h with
  | stopped hp => exact ⟨hp.1.trans (List.prefix_append plan rest), fun a ha => by cases ha⟩
  | onward hp hr =>
      rw [Trace.follows, mutationsOf_append, hp.2 _ rfl]
      exact ⟨(List.prefix_append_right_inj plan).2 hr.1, fun b hb => by rw [hr.2 b hb]⟩

theorem Emits.follows_bind {x : Op τ α} {f : α → Op τ β} {plan rest : List Request}
    (hx : x.Emits (.follows plan)) (hf : ∀ a, (f a).Emits (.follows rest)) :
    (x >>= f).Emits (.follows (plan ++ rest)) :=
  (hx.bind hf).mono fun _ _ => Trace.follows.andThen

/-! ## Requests of a kind -/

/-- Only requests with a property are made. -/
def Trace.only (P : Request → Prop) : Trace τ α := fun xs _ => ∀ x ∈ xs, P x.request

theorem Trace.only_silent {P : Request → Prop} {o : Except (Failure τ) α} {xs : List (Exchange τ)}
    {o' : Except (Failure τ) α} (h : Trace.silent o xs o') : Trace.only P xs o' := by
  obtain ⟨rfl, _⟩ := h
  exact List.forall_mem_nil _

theorem Emits.only_bind {x : Op τ α} {f : α → Op τ β} {P : Request → Prop} (hx : x.Emits (.only P))
    (hf : ∀ a, (f a).Emits (.only P)) : (x >>= f).Emits (.only P) := by
  refine (hx.bind hf).mono fun xs o h => ?_
  cases h with
  | stopped h => exact h
  | onward hy hz => exact fun x hx => (List.mem_append.1 hx).elim (hy x) (hz x)

theorem Emits.only_onFailure {x : Op τ α} {handle : Failure τ → Op τ α} {P : Request → Prop}
    (hx : x.Emits (.only P)) (hh : ∀ e, (handle e).Emits (.only P)) :
    (x.onFailure handle).Emits (.only P) := by
  refine (hx.onFailure hh).mono fun xs o h => ?_
  cases h with
  | done h => exact h
  | handled hy hz => exact fun x hx => (List.mem_append.1 hx).elim (hy x) (hz x)

theorem Trace.follows.only {plan : List Request} {xs : List (Exchange τ)} {o : Except (Failure τ) α}
    (h : Trace.follows plan xs o) : Trace.only (fun r => r.mutates = false ∨ r ∈ plan) xs o := by
  intro x hx
  cases hm : x.request.mutates with
  | false => exact .inl rfl
  | true => exact .inr (h.1.subset (List.mem_filter.2 ⟨List.mem_map_of_mem hx, hm⟩))

/-! ## Conclusions -/

/-- If the run succeeds, its last exchanges are as said. -/
def Trace.concludes (P : List (Exchange τ) → Prop) : Trace τ α := fun xs o =>
  ∀ a, o = .ok a → ∃ front rest, xs = front ++ rest ∧ P rest

theorem Emits.concludes_bind {x : Op τ α} {f : α → Op τ β} {P : List (Exchange τ) → Prop}
    (hx : x.Emits T) (hf : ∀ a, (f a).Emits (.concludes P)) : (x >>= f).Emits (.concludes P) := by
  refine (hx.bind hf).mono fun xs o h => ?_
  cases h with
  | stopped _ => exact fun a ha => by cases ha
  | onward _ hc =>
      intro b hb
      obtain ⟨front, rest, rfl, hp⟩ := hc b hb
      exact ⟨_ ++ front, rest, (List.append_assoc _ front rest).symm, hp⟩

end Op

end ClusterControl
