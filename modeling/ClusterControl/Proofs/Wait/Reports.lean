import ClusterControl.Proofs.Op.Trace
import ClusterControl.Wait.Progress

/-!
# Reports ask nothing

A sink that is told about a run exchanges nothing with the cluster. It can end the run with a failure of its
own, but it never turns a failure into a success.
-/

namespace ClusterControl

variable {τ α β : Type}

namespace Op

/-- Nothing is exchanged, whatever the outcome. -/
def Trace.quiet : Trace τ α := fun xs _ => xs = []

/-- The exchanges are those of the inner run, or none at all, and a success is one of the inner run. -/
def Trace.kept (T : Trace τ α) : Trace τ α := fun xs o =>
  (xs = [] ∨ ∃ o', T xs o') ∧ ∀ a, o = .ok a → T xs (.ok a)

theorem Trace.kept.only {P : Request → Prop} {xs : List (Exchange τ)} {o : Except (Failure τ) α}
    (h : Trace.kept (.only P) xs o) : Trace.only P xs o := by
  rcases h with ⟨rfl | ⟨_, h⟩, _⟩
  · exact List.forall_mem_nil _
  · exact h

theorem quiet_bind {x : Op τ α} {f : α → Op τ β} (hx : x.Emits .quiet) (hf : ∀ a, (f a).Emits .quiet) :
    (x >>= f).Emits .quiet := by
  refine (hx.bind hf).mono fun xs o h => ?_
  cases h with
  | stopped h => exact h
  | onward h hrest =>
      obtain rfl := h
      exact hrest

theorem emits_note {e : Event τ} (h : ∀ x, e ≠ .exchange x) :
    (update (·.record e)).Emits (.silent (.ok ())) := by
  intro w
  refine ⟨[], ?_, rfl, rfl⟩
  cases e with
  | exchange x => exact absurd rfl (h x)
  | _ => exact World.exchanges_record w _

end Op

open Op

namespace Sink

theorem emits_deliver (s : Sink τ) (stage : Stage) (message : String) :
    (s.deliver stage message).Emits .quiet := by
  cases s with
  | logger => cases stage <;> exact (emits_log _ _).mono fun xs o h => h.1
  | relay refuses =>
      refine quiet_bind ((emits_note fun x h => by cases h).mono fun xs o h => h.1) fun _ => ?_
      split
      · exact (emits_pure ()).mono fun xs o h => h.1
      · exact (emits_fail _).mono fun xs o h => h.1

variable [Time τ]

theorem emits_report (s : Sink τ) (stage : Stage) (message : String) :
    (s.report stage message).Emits .quiet := by
  have hhandle (e : Failure τ) : (if e.isInterrupt then fail e
      else Op.log .warning ("Progress sink failed: " ++ e.message) : Op τ Unit).Emits .quiet := by
    split
    · exact (emits_fail e).mono fun xs o h => h.1
    · exact (emits_log _ _).mono fun xs o h => h.1
  refine ((s.emits_deliver stage message).onFailure hhandle).mono fun xs o h => ?_
  cases h with
  | done h => exact h
  | handled h hlog =>
      obtain rfl := h
      exact hlog

theorem emits_around (s : Sink τ) (message : String) {body : Op τ α} {T : Trace τ α} (h : body.Emits T) :
    (s.around message body).Emits T.kept := by
  have hhandle (e : Failure τ) : (if e.isInterrupt then fail e else do
      s.report .failure (message ++ " failed: " ++ e.message)
      fail e : Op τ α).Emits fun xs o => xs = [] ∧ ∃ f, o = .error f := by
    split
    · exact (emits_fail e).mono fun xs o ⟨hx, ho⟩ => ⟨hx, e, ho⟩
    · refine ((s.emits_report .failure _).bind_silent fun _ => emits_fail e).mono ?_
      rintro xs _ ⟨r, hxs, rfl⟩
      cases r with
      | error f => exact ⟨hxs, f, rfl⟩
      | ok _ => exact ⟨hxs, e, rfl⟩
  have hbody : (body.orElse fun e => do
      s.report .failure (message ++ " failed: " ++ e.message)
      fail e).Emits T.kept := by
    refine (h.onFailure hhandle).mono fun xs o hrun => ?_
    cases hrun with
    | done ht => exact ⟨.inr ⟨_, ht⟩, fun b hb => by rwa [← hb]⟩
    | handled ht hfails =>
        obtain ⟨rfl, f, rfl⟩ := hfails
        rw [List.append_nil]
        exact ⟨.inr ⟨_, ht⟩, fun b hb => by cases hb⟩
  have hend (a : α) : (do s.report .success message; pure a : Op τ α).Emits fun xs o =>
      xs = [] ∧ ∀ b, o = .ok b → b = a := by
    refine ((s.emits_report .success message).bind_silent fun _ => emits_pure a).mono ?_
    rintro xs _ ⟨r, hxs, rfl⟩
    cases r with
    | error f => exact ⟨hxs, fun b hb => by cases hb⟩
    | ok _ => exact ⟨hxs, fun b hb => (Except.ok.inj hb).symm⟩
  refine ((s.emits_report .start message).bind fun _ => hbody.bind hend).mono fun xs o hrun => ?_
  cases hrun with
  | stopped hxs => exact ⟨.inl hxs, fun a ha => by cases ha⟩
  | onward hxs hrest =>
      obtain rfl := hxs
      rw [List.nil_append]
      cases hrest with
      | stopped ht => exact ⟨ht.1, fun a ha => by cases ha⟩
      | onward ht hreturns =>
          obtain ⟨rfl, ha⟩ := hreturns
          rw [List.append_nil]
          refine ⟨ht.1, fun b hb => ?_⟩
          rw [ha b hb]
          exact ht.2 _ rfl

end Sink

theorem emits_withProgress [Time τ] (sink : Option (Sink τ)) (message : String) {body : Op τ α}
    {T : Trace τ α} (h : body.Emits T) : (withProgress sink message body).Emits T.kept := by
  cases sink with
  | none => exact h.mono fun xs o ht => ⟨.inr ⟨o, ht⟩, fun a ha => by rwa [← ha]⟩
  | some s => exact s.emits_around message h

end ClusterControl
