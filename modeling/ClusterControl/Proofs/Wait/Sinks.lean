import ClusterControl.Proofs.Connection.PrimitiveSteps

/-!
# Sinks take notes

A sink that raises no interrupt takes notes before and after the work that it is told about. The work goes on as it
would without the sink, since no step of it can tell worlds apart that differ in notes only.
-/

namespace ClusterControl

variable {τ α β : Type}

open Op

/-! ## Notes -/

namespace World

/-- Some events are written down, the earliest one first. -/
def annotate (w : World τ) (notes : List (Event τ)) : World τ :=
  { w with history := notes.reverse ++ w.history }

@[simp] theorem events_annotate (w : World τ) (notes : List (Event τ)) :
    (w.annotate notes).events = w.events ++ notes := by
  simp [annotate, events]

theorem noted_annotate (w : World τ) {notes : List (Event τ)} (h : ∀ e ∈ notes, e.IsNote) :
    w.Noted (w.annotate notes) :=
  ⟨notes.reverse, rfl, fun e he => h e (List.mem_reverse.1 he)⟩

/-- The worlds have the same exchanges behind them, and differ in their notes at most. -/
def SameButNotes (w v : World τ) : Prop := ∃ history, v = { w with history } ∧ v.exchanges = w.exchanges

theorem sameButNotes_equivalence : Equivalence (SameButNotes : World τ → World τ → Prop) where
  refl w := ⟨w.history, rfl, rfl⟩
  symm {w v} h := by
    obtain ⟨history, rfl, hexchanges⟩ := h
    exact ⟨w.history, rfl, hexchanges.symm⟩
  trans {w v u} h h' := by
    obtain ⟨history, rfl, hexchanges⟩ := h
    obtain ⟨history', rfl, hexchanges'⟩ := h'
    exact ⟨history', rfl, hexchanges'.trans hexchanges⟩

theorem Noted.sameButNotes {w v : World τ} (h : w.Noted v) : w.SameButNotes v := by
  have hexchanges := h.exchanges
  obtain ⟨notes, rfl, _⟩ := h
  exact ⟨notes ++ w.history, rfl, hexchanges⟩

theorem exchanges_congr {w v : World τ} {e : Event τ} (h : v.exchanges = w.exchanges) :
    (v.record e).exchanges = (w.record e).exchanges := by
  simp only [exchanges_record, h]

end World

/-! ## Steps -/

namespace Connection

variable [Time τ] {c : Connection} {P : Event τ → Prop}

theorem blind_sameButNotes : c.Blind P World.SameButNotes where
  now_eq w v h := by
    obtain ⟨history, rfl, _⟩ := h
    rfl
  waiting w v h t := by
    obtain ⟨history, rfl, hexchanges⟩ := h
    exact ⟨history, rfl, hexchanges⟩
  has_eq w v h g := by
    obtain ⟨history, rfl, _⟩ := h
    rfl
  hasFile_eq w v h := by
    obtain ⟨history, rfl, _⟩ := h
    rfl
  noting w v h e _ := by
    obtain ⟨history, rfl, hexchanges⟩ := h
    exact ⟨e :: history, rfl, World.exchanges_congr hexchanges⟩
  exchange w v h r _ := by
    obtain ⟨history, rfl, hexchanges⟩ := h
    exact ⟨rfl, _, rfl, World.exchanges_congr hexchanges⟩
  finding w v h r _ := by
    obtain ⟨history, rfl, hexchanges⟩ := h
    exact ⟨rfl, _, rfl, World.exchanges_congr hexchanges⟩
  releasing w v h g := by
    obtain ⟨history, rfl, hexchanges⟩ := h
    exact ⟨history, rfl, hexchanges⟩
  removing w v h := by
    obtain ⟨history, rfl, hexchanges⟩ := h
    exact ⟨history, rfl, hexchanges⟩

/-- Since some moment only exchanges and notes of one sort were written down. -/
def Since (w₀ : World τ) (P : Event τ → Prop) (w : World τ) : Prop :=
  ∃ work, w.events = w₀.events ++ work ∧ ∀ e ∈ work, e.IsNote → P e

omit [Time τ] in
theorem Since.record {w₀ w : World τ} (h : Since w₀ P w) {e : Event τ} (he : e.IsNote → P e) :
    Since w₀ P (w.record e) := by
  obtain ⟨work, hevents, hwork⟩ := h
  refine ⟨work ++ [e], by rw [World.events_record, hevents, List.append_assoc], fun f hf => ?_⟩
  rcases List.mem_append.1 hf with hf | hf
  · exact hwork f hf
  · rwa [List.mem_singleton.1 hf]

omit [Time τ] in
theorem Since.progress_eq {w₀ w : World τ} (h : Since w₀ Event.IsLog w) : w.progress = w₀.progress := by
  obtain ⟨work, hevents, hwork⟩ := h
  rw [World.progress, hevents, List.filterMap_append]
  refine (congrArg _ (List.filterMap_eq_nil_iff.2 fun e he => ?_)).trans (List.append_nil _)
  cases e with
  | progress stage message =>
      obtain ⟨_, _, h⟩ := hwork _ he fun x h => by cases h
      cases h
  | _ => rfl

/-- A fact about one run: the same world on both sides. -/
theorem blind_since (w₀ : World τ) : c.Blind P fun w v => v = w ∧ Since w₀ P w where
  now_eq w v h := by rw [h.1]
  waiting w v h t := ⟨by rw [h.1], h.2⟩
  has_eq w v h g := by rw [h.1]
  hasFile_eq w v h := by rw [h.1]
  noting w v h e he := ⟨by rw [h.1], h.2.record fun _ => he⟩
  exchange w v h r _ := ⟨by rw [h.1], by rw [h.1], h.2.record fun hn => absurd rfl (hn _)⟩
  finding w v h r _ := ⟨by rw [h.1], by rw [h.1], h.2.record fun hn => absurd rfl (hn _)⟩
  releasing w v h g := ⟨by rw [h.1], h.2⟩
  removing w v h := ⟨by rw [h.1], h.2⟩

theorem Steps.since {x : Op τ α} (h : c.Steps P x) (w : World τ) : Since w P (x w).2 :=
  (h.twins (blind_since w) w w ⟨rfl, [], (List.append_nil _).symm, List.forall_mem_nil _⟩).2.2

end Connection

/-! ## Sinks -/

namespace Sink

/-- No failure of the sink breaks off what is reported to it. -/
def Polite (s : Sink τ) : Prop := ∀ e, ¬ s.Breaks e

/-- How the sink passes a report on. -/
def told (s : Sink τ) (stage : Stage) (message : String) : Event τ :=
  match s with
  | .logger => match stage with
    | .start => .log .info message
    | .success => .log .info (message ++ ": done")
    | .failure => .log .error message
  | .relay _ => .progress stage message

def refusal? : Sink τ → Stage → Option (Failure τ)
  | .logger, _ => none
  | .relay refuses, stage => refuses stage

variable [Time τ]

/-- What a report leaves in the history: the sink passes it on, and is complained of if it fails. -/
def notes (s : Sink τ) (r : Stage × String) : List (Event τ) :=
  s.told r.1 r.2 :: match s.refusal? r.1 with
    | none => []
    | some e => [.log .warning ("Progress sink failed: " ++ e.message)]

/-- The report on the end of some work; nothing is reported on an interrupt. -/
def lastReport (message : String) : Except (Failure τ) α → List (Stage × String)
  | .ok _ => [(.success, message)]
  | .error e => if e.isInterrupt then [] else [(.failure, message ++ " failed: " ++ e.message)]

theorem isNote_notes (s : Sink τ) (r : Stage × String) : ∀ e ∈ s.notes r, e.IsNote := by
  have htold : (s.told r.1 r.2).IsNote := by
    intro x h
    cases s with
    | logger => rcases r with ⟨_ | _ | _, message⟩ <;> cases h
    | relay refuses => cases h
  intro e he
  rcases List.mem_cons.1 he with rfl | he
  · exact htold
  · split at he
    · cases he
    · rw [List.mem_singleton.1 he]
      exact fun x h => by cases h

theorem progress_notes (refuses : Stage → Option (Failure τ)) (w : World τ) (r : Stage × String) :
    (w.annotate ((relay refuses).notes r)).progress = w.progress ++ [r] := by
  rw [World.progress, World.events_annotate, List.filterMap_append]
  cases h : refuses r.1 with
  | none => simp [notes, told, refusal?, h, World.progress]
  | some e => simp [notes, told, refusal?, h, World.progress]

theorem progress_lastReport (refuses : Stage → Option (Failure τ)) (w : World τ) (message : String)
    (o : Except (Failure τ) α) :
    (w.annotate ((lastReport message o).flatMap (relay refuses).notes)).progress =
      w.progress ++ lastReport message o := by
  unfold lastReport
  split
  · rw [List.flatMap_singleton, progress_notes]
  · split
    · simp [World.annotate]
    · rw [List.flatMap_singleton, progress_notes]

variable {s : Sink τ}

theorem report_run (hs : s.Polite) (stage : Stage) (message : String) (w : World τ) :
    s.report stage message w = (.ok (), w.annotate (s.notes (stage, message))) := by
  cases s with
  | logger => cases stage <;> rfl
  | relay refuses =>
      cases hr : refuses stage with
      | none =>
          simp [report, deliver, orElse, onFailure, bind_run, hr, notes, told, refusal?, World.annotate,
            World.record]
      | some e =>
          have he : e.isInterrupt = false := Bool.eq_false_iff.2 fun he => hs e ⟨he, stage, hr⟩
          simp [report, deliver, orElse, onFailure, bind_run, hr, he, log, notes, told, refusal?, World.annotate,
            World.record]

theorem around_run (hs : s.Polite) (message : String) (body : Op τ α) (w : World τ) :
    let run := body (w.annotate (s.notes (.start, message)))
    s.around message body w = (run.1, run.2.annotate ((lastReport message run.1).flatMap s.notes)) := by
  intro run
  have hrun : body (w.annotate (s.notes (.start, message))) = run := rfl
  obtain ⟨o, v⟩ := run
  rw [around, bind_run, report_run hs]
  simp only [bind_run, orElse, onFailure, hrun]
  cases o with
  | ok a => simp [report_run hs, lastReport]
  | error e =>
      cases he : e.isInterrupt with
      | true => simp [lastReport, he, World.annotate]
      | false => simp [bind_run, report_run hs, lastReport, he]

/-- Whether the outcome is changed before the sink hears of it or after makes no difference. -/
theorem around_map (s : Sink τ) (message : String) (body : Op τ α) (f : α → β) :
    (s.around message body >>= fun a => pure (f a)) = s.around message (body >>= fun a => pure (f a)) := by
  funext w
  simp only [around, bind_run, orElse, onFailure]
  rcases s.report .start message w with ⟨e | _, v⟩
  · rfl
  · rcases hbody : body v with ⟨e | a, u⟩
    · cases he : e.isInterrupt with
      | true => simp [hbody, he]
      | false =>
          simp only [hbody, he, Bool.false_eq_true, if_false, bind_run]
          rcases s.report .failure (message ++ " failed: " ++ e.message) u with ⟨_ | _, _⟩ <;> rfl
    · simp only [hbody, pure_run]
      rcases s.report .success message u with ⟨_ | _, _⟩ <;> rfl

end Sink

variable [Time τ]

theorem withProgress_map (sink : Option (Sink τ)) (message : String) (body : Op τ α) (f : α → β) :
    (withProgress sink message body >>= fun a => pure (f a)) =
      withProgress sink message (body >>= fun a => pure (f a)) := by
  cases sink with
  | none => rfl
  | some s => exact s.around_map message body f

/-! ## Work under a sink -/

variable {c : Connection} {P : Event τ → Prop} {body : Op τ α} {s : Sink τ}

theorem Sink.twins_around (hs : s.Polite) (message : String) (h : c.Steps P body) :
    Twins World.SameButNotes (s.around message body) body := by
  intro w v hwv
  have hnoted (u : World τ) (rs : List (Stage × String)) : (u.annotate (rs.flatMap s.notes)).SameButNotes u := by
    refine World.sameButNotes_equivalence.symm (u.noted_annotate fun e he => ?_).sameButNotes
    obtain ⟨r, _, he⟩ := List.mem_flatMap.1 he
    exact s.isNote_notes r e he
  have hstart := hnoted w [(.start, message)]
  rw [List.flatMap_singleton] at hstart
  obtain ⟨ho, hend⟩ := h.twins Connection.blind_sameButNotes _ v (World.sameButNotes_equivalence.trans hstart hwv)
  rw [Sink.around_run hs]
  exact ⟨ho, World.sameButNotes_equivalence.trans (hnoted _ _) hend⟩

/-- Who is told makes no difference, nor does it whether anyone is told. -/
theorem twins_withProgress {sink sink' : Option (Sink τ)} (hs : ∀ s ∈ sink, s.Polite)
    (hs' : ∀ s ∈ sink', s.Polite) (message : String) (h : c.Steps P body) :
    Twins World.SameButNotes (withProgress sink message body) (withProgress sink' message body) := by
  have hbare (sink : Option (Sink τ)) (hs : ∀ s ∈ sink, s.Polite) :
      Twins World.SameButNotes (withProgress sink message body) body := by
    cases sink with
    | none => exact h.twins Connection.blind_sameButNotes
    | some s => exact s.twins_around (hs s rfl) message h
  intro w v hwv
  obtain ⟨ho, hr⟩ := hbare sink hs w v hwv
  obtain ⟨ho', hr'⟩ := hbare sink' hs' v v (World.sameButNotes_equivalence.refl v)
  exact ⟨ho.trans ho'.symm,
    World.sameButNotes_equivalence.trans hr (World.sameButNotes_equivalence.symm hr')⟩

/-- What a run under a sink adds to the events: the reports stand around the events of the work, among which there
is no report. -/
structure Sink.Brackets (s : Sink τ) (message : String) (w : World τ)
    (run : Except (Failure τ) α × World τ) : Prop where
  events : ∃ work, (∀ e ∈ work, ∀ stage text, e ≠ .progress stage text) ∧
    run.2.events = w.events ++ s.notes (.start, message) ++ work ++ (lastReport message run.1).flatMap s.notes
  progress : ∀ refuses, s = .relay refuses →
    run.2.progress = w.progress ++ (.start, message) :: lastReport message run.1

theorem Sink.brackets_around (hs : s.Polite) (message : String) (h : c.Steps Event.IsLog body) (w : World τ) :
    s.Brackets message w (s.around message body w) := by
  have hsince := h.since (w.annotate (s.notes (.start, message)))
  have hprogress := hsince.progress_eq
  obtain ⟨work, hevents, hwork⟩ := hsince
  rw [Sink.around_run hs]
  refine ⟨⟨work, ?_, ?_⟩, ?_⟩
  · rintro e he stage text rfl
    obtain ⟨level, text', hlog⟩ := hwork _ he fun x h => by cases h
    cases hlog
  · rw [World.events_annotate, hevents, World.events_annotate]
  · rintro refuses rfl
    rw [Sink.progress_lastReport, hprogress, Sink.progress_notes, List.append_assoc, List.singleton_append]

end ClusterControl
