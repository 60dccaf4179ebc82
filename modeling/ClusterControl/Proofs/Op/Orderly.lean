import ClusterControl.Connection.Lifecycle

/-!
# Operations that leave connections alone

An orderly operation opens and closes nothing, keeps no settings, and is not broken off, as long as the
cluster answers calmly.
-/

namespace ClusterControl

variable {τ α β : Type}

/-! ## Calm answers -/

/-- The endpoint that closes the transport of a connection. -/
def closing : Endpoint := ⟨.transport, "close"⟩

/-- No answer breaks off the run, and closing succeeds. -/
structure Script.Calm (s : Script τ) : Prop where
  quiet : ∀ e, ∀ r ∈ s.queue e, ∀ text, r.outcome ≠ .error (.interrupt text)
  closes : ∀ r ∈ s.queue closing, r.outcome.isOk = true

namespace Script

theorem queue_put (s : Script τ) (e f : Endpoint) (queue : List (Response τ)) :
    (s.put e queue).queue f = if f = e then queue else s.queue f := by
  rw [Script.queue, lookup_put]
  split <;> rfl

theorem unscripted_ne_interrupt (r : Request) (text : String) :
    (unscripted r : Except (Failure τ) Value) ≠ .error (.interrupt text) := by
  unfold unscripted
  split
  · simp
  · repeat' split
    all_goals simp

theorem unscripted_closing {r : Request} (h : r.endpoint = closing) :
    (unscripted r : Except (Failure τ) Value).isOk = true := by
  simp only [unscripted, h]
  rfl

variable [Zero τ]

theorem answer_fst (s : Script τ) (r : Request) :
    (s.answer r).1 ∈ s.queue r.endpoint ∨ (s.answer r).1.outcome = unscripted r := by
  unfold answer
  split
  · exact .inr rfl
  · rename_i h
    exact .inl (h ▸ List.mem_singleton_self _)
  · rename_i h
    exact .inl (h ▸ List.mem_cons_self)

theorem mem_queue_of_answer {s : Script τ} {r : Request} {e : Endpoint} {a : Response τ}
    (h : a ∈ (s.answer r).2.queue e) : a ∈ s.queue e := by
  unfold answer at h
  split at h
  · exact h
  · exact h
  · rename_i hq
    rw [queue_put] at h
    split at h
    · rename_i he
      rw [he, hq]
      exact List.mem_cons_of_mem _ h
    · exact h

theorem Calm.answer {s : Script τ} (h : s.Calm) (r : Request) : (s.answer r).2.Calm where
  quiet e a ha := h.quiet e a (mem_queue_of_answer ha)
  closes a ha := h.closes a (mem_queue_of_answer ha)

theorem Calm.answer_ne_interrupt {s : Script τ} (h : s.Calm) (r : Request) (text : String) :
    (s.answer r).1.outcome ≠ .error (.interrupt text) := by
  rcases s.answer_fst r with hm | hu
  · exact h.quiet _ _ hm text
  · rw [hu]
    exact unscripted_ne_interrupt r text

theorem Calm.answer_closing {s : Script τ} (h : s.Calm) {r : Request} (hr : r.endpoint = closing) :
    (s.answer r).1.outcome.isOk = true := by
  rcases s.answer_fst r with hm | hu
  · exact h.closes _ (hr ▸ hm)
  · rw [hu]
    exact unscripted_closing hr

end Script

/-! ## Worlds that are not disturbed -/

/-- How often the transport of a connection was closed. -/
def World.closings (w : World τ) : Nat := w.requests.countP fun r => r.endpoint == closing

/-- What the connections hold and the settings are the same in both worlds, and answers stay calm. -/
structure World.Undisturbed (w w' : World τ) : Prop where
  apis : w'.apis = w.apis
  paths : w'.paths = w.paths
  files : w'.files = w.files
  environment : w'.environment = w.environment
  settings : w'.settings = w.settings
  closings : w'.closings = w.closings
  calm : w.script.Calm → w'.script.Calm

namespace World

theorem Undisturbed.refl (w : World τ) : Undisturbed w w := ⟨rfl, rfl, rfl, rfl, rfl, rfl, fun h => h⟩

theorem Undisturbed.trans {w v u : World τ} (h : Undisturbed w v) (h' : Undisturbed v u) :
    Undisturbed w u :=
  ⟨h'.apis.trans h.apis, h'.paths.trans h.paths, h'.files.trans h.files, h'.environment.trans h.environment,
    h'.settings.trans h.settings, h'.closings.trans h.closings, fun hc => h'.calm (h.calm hc)⟩

theorem closings_exchange [Time τ] (w : World τ) (r : Request) :
    (w.exchange r).2.closings = w.closings + if r.endpoint = closing then 1 else 0 := by
  rw [closings, requests_exchange, List.countP_append]
  by_cases h : r.endpoint = closing <;> simp [closings, h]

theorem undisturbed_exchange [Time τ] (w : World τ) {r : Request} (hr : r.endpoint ≠ closing) :
    Undisturbed w (w.exchange r).2 :=
  ⟨rfl, rfl, rfl, rfl, rfl, by rw [closings_exchange, if_neg hr, Nat.add_zero], fun h => h.answer r⟩

theorem undisturbed_log (w : World τ) (level : Level) (message : String) :
    Undisturbed w (w.record (.log level message)) :=
  ⟨rfl, rfl, rfl, rfl, rfl, by simp [closings, requests, exchanges], fun h => h⟩

end World

/-! ## Orderly operations -/

namespace Op

/-- While the answers are calm, the operation disturbs nothing and is not broken off. -/
def Orderly (x : Op τ α) : Prop :=
  ∀ w, w.script.Calm → w.Undisturbed (x w).2 ∧ ∀ text, (x w).1 ≠ .error (.interrupt text)

theorem orderly_ofExcept {o : Except (Failure τ) α} (h : ∀ text, o ≠ .error (.interrupt text)) :
    (ofExcept o).Orderly :=
  fun w _ => ⟨.refl w, h⟩

theorem orderly_pure (a : α) : (pure a : Op τ α).Orderly := orderly_ofExcept fun _ h => by cases h

theorem orderly_fail {e : Failure τ} (h : e.isInterrupt = false) : (fail e : Op τ α).Orderly :=
  orderly_ofExcept fun text he => by
    obtain rfl := Except.error.inj he
    cases h

theorem orderly_look (o : Except Malformed α) : (look o : Op τ α).Orderly := by
  cases o with
  | ok a => exact orderly_pure a
  | error m => exact orderly_fail rfl

theorem orderly_ofChecked (o : Checked α) : (ofChecked o : Op τ α).Orderly := by
  cases o with
  | valid a => exact orderly_pure a
  | invalid issues => exact orderly_fail rfl

theorem orderly_update {f : World τ → World τ} (h : ∀ w, World.Undisturbed w (f w)) : (update f).Orderly :=
  fun w _ => ⟨h w, fun _ h => by cases h⟩

theorem orderly_log (level : Level) (message : String) : (log level message : Op τ Unit).Orderly :=
  orderly_update fun w => World.undisturbed_log w level message

theorem orderly_request [Time τ] {r : Request} (hr : r.endpoint ≠ closing) :
    (request r : Op τ Value).Orderly :=
  fun w hw => ⟨w.undisturbed_exchange hr, hw.answer_ne_interrupt r⟩

/-- The second operation need be orderly only after results that the first one can have. -/
theorem Orderly.bind_of {x : Op τ α} {f : α → Op τ β} {P : α → Prop} (hx : x.Orderly)
    (hp : ∀ w a, (x w).1 = .ok a → P a) (hf : ∀ a, P a → (f a).Orderly) : (x >>= f).Orderly := by
  intro w hw
  obtain ⟨hv, hno⟩ := hx w hw
  have hpost := hp w
  rw [bind_run]
  rcases hr : x w with ⟨e | a, v⟩
  · rw [hr] at hv hno
    refine ⟨hv, fun text he => hno text ?_⟩
    rw [Except.error.inj he]
  · rw [hr] at hv hpost
    obtain ⟨hu, hno'⟩ := hf a (hpost a rfl) v (hv.calm hw)
    exact ⟨hv.trans hu, hno'⟩

theorem Orderly.bind {x : Op τ α} {f : α → Op τ β} (hx : x.Orderly) (hf : ∀ a, (f a).Orderly) :
    (x >>= f).Orderly :=
  hx.bind_of (P := fun _ => True) (fun _ _ _ => trivial) fun a _ => hf a

theorem Orderly.onFailure {x : Op τ α} {handle : Failure τ → Op τ α} (hx : x.Orderly)
    (hh : ∀ e, e.isInterrupt = false → (handle e).Orderly) : (x.onFailure handle).Orderly := by
  intro w hw
  obtain ⟨hv, hno⟩ := hx w hw
  rw [Op.onFailure]
  rcases hr : x w with ⟨e | a, v⟩
  · rw [hr] at hv hno
    have he : e.isInterrupt = false := by
      cases e with
      | interrupt text => exact absurd rfl (hno text)
      | _ => rfl
    obtain ⟨hu, hno'⟩ := hh e he v (hv.calm hw)
    exact ⟨hv.trans hu, hno'⟩
  · rw [hr] at hv
    exact ⟨hv, fun _ h => by cases h⟩

theorem Orderly.onNotFound {x otherwise : Op τ α} (hx : x.Orderly) (ho : otherwise.Orderly) :
    (x.onNotFound otherwise).Orderly := by
  apply hx.onFailure
  intro e he
  cases e with
  | rejected r =>
      show Orderly (if r.isNotFound then otherwise else fail (.rejected r))
      split
      · exact ho
      · exact orderly_fail rfl
  | _ => exact orderly_fail he

/-- A failure in calm answers is no interrupt, so that it is handled. -/
theorem Orderly.orElse_error {x : Op τ α} (hx : x.Orderly) {w v : World τ} {e : Failure τ}
    (h : x w = (.error e, v)) (hw : w.script.Calm) (handle : Failure τ → Op τ α) :
    x.orElse handle w = handle e v := by
  obtain ⟨_, hno⟩ := hx w hw
  rw [h] at hno
  have he : e.isInterrupt = false := by
    cases e with
    | interrupt text => exact absurd rfl (hno text)
    | _ => rfl
  simp [orElse, Op.onFailure, h, he]

end Op

end ClusterControl
