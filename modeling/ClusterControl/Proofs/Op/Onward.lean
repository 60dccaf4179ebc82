import ClusterControl.Proofs.Op.Trace
import ClusterControl.Wait.Poll

/-!
# Operations that only go onward

Numbers that were given out are never given out again, what happened is never taken back, and hardly any operation
touches the handle that the process shares.
-/

namespace ClusterControl

variable {τ α β : Type}

/-! ## Worlds -/

/-- From one world to a later one, without a change of the shared handle. -/
structure World.Onward (w v : World τ) : Prop where
  shared : v.shared = w.shared
  nextId_le : w.nextId ≤ v.nextId
  history : w.history <:+ v.history

namespace World

variable {w v u : World τ}

theorem Onward.refl (w : World τ) : w.Onward w := ⟨rfl, Nat.le_refl _, List.suffix_rfl⟩

theorem Onward.trans (h : w.Onward v) (h' : v.Onward u) : w.Onward u :=
  ⟨h'.shared.trans h.shared, Nat.le_trans h.nextId_le h'.nextId_le, h.history.trans h'.history⟩

theorem Onward.exchanges (h : w.Onward v) : ∃ xs, v.exchanges = w.exchanges ++ xs := by
  obtain ⟨later, hlater⟩ := h.history
  simp only [World.exchanges, events, ← hlater, List.reverse_append, List.filterMap_append]
  exact ⟨_, rfl⟩

theorem onward_record (w : World τ) (e : Event τ) : w.Onward (w.record e) :=
  ⟨rfl, Nat.le_refl _, List.suffix_cons _ _⟩

theorem onward_exchange [Time τ] (w : World τ) (r : Request) : w.Onward (w.exchange r).2 :=
  ⟨rfl, Nat.le_refl _, List.suffix_cons _ _⟩

theorem onward_pause [Time τ] (w : World τ) (d : τ) (cancel : Option τ) : w.Onward (w.pause d cancel) := by
  have hnow (t : τ) : w.Onward { w with now := t } := ⟨rfl, Nat.le_refl _, List.suffix_rfl⟩
  unfold pause
  split
  · exact hnow _
  · split
    · exact .refl w
    · split <;> exact hnow _

end World

/-! ## Operations -/

namespace Op

theorem bind_eq_ok {x : Op τ α} {f : α → Op τ β} {w v : World τ} {b : β} (h : (x >>= f) w = (.ok b, v)) :
    ∃ a u, x w = (.ok a, u) ∧ f a u = (.ok b, v) := by
  rw [bind_run] at h
  rcases hr : x w with ⟨e | a, u⟩
  · rw [hr] at h
    cases h
  · rw [hr] at h
    exact ⟨a, u, rfl, h⟩

def Onward (x : Op τ α) : Prop := ∀ w : World τ, w.Onward (x w).2

theorem Onward.of_run {x : Op τ α} {o : Except (Failure τ) α} {w v : World τ} (hx : x.Onward) (h : x w = (o, v)) :
    w.Onward v := by
  have hv := hx w
  rwa [h] at hv

theorem onward_ofExcept (o : Except (Failure τ) α) : (ofExcept o).Onward := World.Onward.refl

theorem onward_pure (a : α) : (pure a : Op τ α).Onward := World.Onward.refl

theorem onward_fresh : (fresh : Op τ Nat).Onward := fun _ => ⟨rfl, Nat.le_succ _, List.suffix_rfl⟩

theorem onward_request [Time τ] (r : Request) : (request r : Op τ Value).Onward := fun w => w.onward_exchange r

theorem onward_rest (x : Op τ α) {f : α → Op τ β} (hf : ∀ a, (f a).Onward) (w : World τ) :
    (x w).2.Onward ((x >>= f) w).2 := by
  rw [bind_run]
  rcases x w with ⟨e | a, v⟩
  · exact .refl v
  · exact hf a v

theorem onward_handling (x : Op τ α) {handle : Failure τ → Op τ α} (hh : ∀ e, (handle e).Onward) (w : World τ) :
    (x w).2.Onward (x.onFailure handle w).2 := by
  rw [onFailure]
  rcases x w with ⟨e | a, v⟩
  · exact hh e v
  · exact .refl v

theorem Onward.bind {x : Op τ α} {f : α → Op τ β} (hx : x.Onward) (hf : ∀ a, (f a).Onward) : (x >>= f).Onward :=
  fun w => (hx w).trans (onward_rest x hf w)

theorem Onward.onFailure {x : Op τ α} {handle : Failure τ → Op τ α} (hx : x.Onward) (hh : ∀ e, (handle e).Onward) :
    (x.onFailure handle).Onward :=
  fun w => (hx w).trans (onward_handling x hh w)

theorem onward_passing {handle : Failure τ → Op τ α} (hh : ∀ e, (handle e).Onward) (e : Failure τ) :
    (if e.isInterrupt then fail e else handle e).Onward := by
  split
  · exact onward_ofExcept _
  · exact hh e

theorem Onward.orElse {x : Op τ α} {handle : Failure τ → Op τ α} (hx : x.Onward) (hh : ∀ e, (handle e).Onward) :
    (x.orElse handle).Onward :=
  hx.onFailure (onward_passing hh)

theorem Onward.attempt {x : Op τ α} (hx : x.Onward) : x.attempt.Onward := hx

end Op

/-! ## Polls -/

namespace Poll

variable [Time τ]

theorem onward_loop {check : Op τ (Option α)} (h : check.Onward) (p : Poll τ) (started : τ) (left : Nat) :
    (p.loop (.ofOp check) started left).Onward := by
  intro w
  induction left generalizing w with
  | zero => exact .refl w
  | succ left ih =>
      rw [loop_ofOp]
      split
      · exact .refl w
      · have hv := h w
        split
        · rename_i hr
          rwa [hr] at hv
        · rename_i hr
          rwa [hr] at hv
        · rename_i v hr
          rw [hr] at hv
          split
          · exact hv
          · exact hv.trans ((v.onward_pause _ _).trans (ih _))

theorem onward_run {check : Op τ (Option α)} (h : check.Onward) (p : Poll τ) : (p.run check).Onward := by
  unfold run wait
  split
  · exact Op.onward_ofExcept _
  · exact fun w => onward_loop h p w.now p.checks w

end Poll

end ClusterControl
