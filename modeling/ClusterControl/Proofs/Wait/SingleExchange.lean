import ClusterControl.Proofs.Wait.Refusals

/-!
# A look is one exchange

A look at a condition asks the cluster at most once, and only while the cluster answers does time pass. What
such a look fails with is the failure of the answer, or a failure that has nothing to do with the end of a wait.
-/

namespace ClusterControl

variable {τ α β : Type}

/-! ## Failures that tell how a wait ended -/

namespace Failure

def isTimeout : Failure τ → Bool
  | .timedOut .. => true
  | _ => false

def isCancellation : Failure τ → Bool
  | .cancelled .. => true
  | _ => false

/-- The failure itself, or the one that led to it. -/
def Voices (f e : Failure τ) : Prop := f = e ∨ f.cause = some e

/-- The failure tells, itself or by what led to it, that a wait ended in vain. -/
def InVain (f : Failure τ) : Prop := ∃ e, f.Voices e ∧ (e.isTimeout = true ∨ e.isCancellation = true)

theorem not_inVain {f : Failure τ} (hc : f.cause = none) (ht : f.isTimeout = false)
    (hn : f.isCancellation = false) : ¬ f.InVain := by
  rintro ⟨e, rfl | h, he⟩
  · rw [ht, hn] at he
    rcases he with he | he <;> cases he
  · rw [hc] at h
    cases h

end Failure

/-! ## Operations that ask at most once -/

namespace Op

/-- Nothing is asked and no time passes. -/
def Quick (x : Op τ α) : Prop := ∀ w, w.Noted (x w).2 ∧ ∀ f, (x w).1 = .error f → ¬ f.InVain

theorem quick_pure (a : α) : (pure a : Op τ α).Quick := fun w => ⟨.refl w, fun _ h => by cases h⟩

theorem quick_fail {e : Failure τ} (h : ¬ e.InVain) : (fail e : Op τ α).Quick :=
  fun w => ⟨.refl w, fun _ hf => Except.error.inj hf ▸ h⟩

theorem quick_look (o : Except Malformed α) : (look o : Op τ α).Quick := by
  cases o with
  | ok a => exact quick_pure a
  | error m => exact quick_fail (Failure.not_inVain rfl rfl rfl)

theorem quick_log (level : Level) (message : String) : (log level message : Op τ Unit).Quick :=
  fun w => ⟨w.noted_record (fun _ h => by cases h), fun _ h => by cases h⟩

theorem Quick.bind {x : Op τ α} {f : α → Op τ β} (hx : x.Quick) (hf : ∀ a, (f a).Quick) :
    (x >>= f).Quick := by
  intro w
  obtain ⟨hnoted, hfail⟩ := hx w
  rw [bind_run]
  rcases hr : x w with ⟨e | a, v⟩
  · rw [hr] at hnoted hfail
    exact ⟨hnoted, fun g hg => Except.error.inj hg ▸ hfail e rfl⟩
  · rw [hr] at hnoted
    exact ⟨hnoted.trans (hf a v).1, (hf a v).2⟩

variable [Time τ]

/-- One exchange at most, and notes after it. -/
def Glances (x : Op τ α) : Prop := ∀ w,
  (w.Noted (x w).2 ∧ ∀ f, (x w).1 = .error f → ¬ f.InVain) ∨
    ∃ r, (w.exchange r).2.Noted (x w).2 ∧
      ∀ f, (x w).1 = .error f → (w.exchange r).1 = .error f ∨ ¬ f.InVain

theorem glances_send (c : Connection) (r : Request) : (c.send r : Op τ Value).Glances := by
  intro w
  rw [c.send_run]
  cases c.serves r w with
  | false =>
      refine .inl ⟨.refl w, fun f hf => ?_⟩
      rw [← Except.error.inj hf]
      exact Failure.not_inVain rfl rfl rfl
  | true => exact .inr ⟨r, .refl _, fun f hf => .inl hf⟩

theorem Glances.bind {x : Op τ α} {f : α → Op τ β} (hx : x.Glances) (hf : ∀ a, (f a).Quick) :
    (x >>= f).Glances := by
  intro w
  have hw := hx w
  rw [bind_run]
  rcases hr : x w with ⟨e | a, v⟩
  · simp only [hr] at hw
    rcases hw with ⟨h, hfail⟩ | ⟨r, h, hfail⟩
    · exact .inl ⟨h, fun g hg => Except.error.inj hg ▸ hfail e rfl⟩
    · exact .inr ⟨r, h, fun g hg => Except.error.inj hg ▸ hfail e rfl⟩
  · simp only [hr] at hw
    obtain ⟨hnext, hfail⟩ := hf a v
    rcases hw with ⟨h, _⟩ | ⟨r, h, _⟩
    · exact .inl ⟨h.trans hnext, hfail⟩
    · exact .inr ⟨r, h.trans hnext, fun g hg => .inr (hfail g hg)⟩

/-- What the cluster rejects can be handled without asking again. -/
theorem Glances.onRejection {x : Op τ α} {handle : Rejection → Op τ α} (hx : x.Glances)
    (hh : ∀ r, (handle r).Quick) : (x.onRejection handle).Glances := by
  intro w
  have hw := hx w
  rw [Op.onRejection, Op.onFailure]
  rcases hr : x w with ⟨e | a, v⟩
  · simp only [hr] at hw
    cases e with
    | rejected rejection =>
        obtain ⟨hnext, hfail⟩ := hh rejection v
        rcases hw with ⟨h, _⟩ | ⟨r, h, _⟩
        · exact .inl ⟨h.trans hnext, hfail⟩
        · exact .inr ⟨r, h.trans hnext, fun g hg => .inr (hfail g hg)⟩
    | _ => exact hw
  · simp only [hr] at hw
    exact hw

theorem Glances.onNotFound {x otherwise : Op τ α} (hx : x.Glances) (ho : otherwise.Quick) :
    (x.onNotFound otherwise).Glances := by
  refine hx.onRejection fun r => ?_
  split
  · exact ho
  · exact quick_fail (Failure.not_inVain rfl rfl rfl)

end Op

open Op

variable [Time τ]

/-! ## Conditions -/

theorem Resource.glances_get (c : Connection) (k : Kind) (ns name : Value) :
    (get c k ns name : Op τ (Option Value)).Glances :=
  ((glances_send c _).onNotFound (quick_pure _)).bind fun _ => quick_pure _

theorem Resource.glances_list (c : Connection) (k : Kind) (ns selector : Value) :
    (list c k ns selector : Op τ Value).Glances :=
  (glances_send c _).bind fun v => quick_look (v.field "items")

namespace Condition

theorem glances_existing (c : Connection) (k : Kind) (ref : Ref) :
    (existing c k ref : Op τ Value).Glances := by
  refine (Resource.glances_get c k _ _).bind fun found => ?_
  cases found with
  | none => exact quick_fail (Failure.not_inVain rfl rfl rfl)
  | some object => exact quick_pure object

theorem glances_holds {x : Op τ Bool} (hx : x.Glances) : (holds x).Glances := hx.bind fun _ => quick_pure _

variable {c : Connection}

theorem Built.glances {k : Condition τ} (h : k.Built c) : k.check.Glances := by
  cases h with
  | reports kind types what ns name h =>
      obtain ⟨ref, rfl⟩ := Checked.map_eq_valid h
      exact glances_holds ((glances_existing c kind ref).bind fun v => quick_look (hasCondition v types))
  | namespaceAbsent name h =>
      obtain ⟨ref, rfl⟩ := Checked.map_eq_valid h
      exact glances_holds ((Resource.glances_get c .namespaceKind .null name).bind fun _ => quick_pure _)
  | podAbsent ns selector tolerant h =>
      obtain ⟨ref, rfl⟩ := Checked.map_eq_valid h
      have hlist : (some <$> Resource.list c .pod ns selector : Op τ (Option Value)).Glances :=
        (Resource.glances_list c .pod ns selector).bind fun pods => quick_pure (some pods)
      refine glances_holds ((hlist.onRejection fun r => ?_).bind fun listed => ?_)
      · split
        · exact (quick_log _ _).bind fun _ => quick_pure none
        · exact quick_fail (Failure.not_inVain rfl rfl rfl)
      · cases listed with
        | none => exact quick_pure true
        | some pods => exact (quick_look pods.count).bind fun n => quick_pure (n == 0)
  | secretPresent ns name h =>
      obtain ⟨ref, rfl⟩ := Checked.map_eq_valid h
      exact Resource.glances_get c .secret ns name
  | definitionExists name h =>
      subst h
      exact glances_holds ((Resource.glances_get c .definition .null name).bind fun _ => quick_pure _)

end Condition

end ClusterControl
