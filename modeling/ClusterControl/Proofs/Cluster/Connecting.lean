import ClusterControl.Cluster.Connect
import ClusterControl.Proofs.Connection.Construction
import ClusterControl.Proofs.Platform.Strategies
import ClusterControl.Time.Rational

/-!
# What is left of a cluster that cannot be connected

A connection is released if it cannot be set up, or if the platform behind it cannot be told. It is not
released if the settings that are asked for afterwards cannot be read.
-/

namespace ClusterControl

open Op

variable {τ : Type} [Time τ]

/-! ## Opening and closing -/

namespace Connection

omit [Time τ] in
theorem credentials_not_interrupt {text : String} {e : Failure τ} (h : (credentials text : Op τ (List UInt8)) = fail e)
    (w : World τ) : e.isInterrupt = false := by
  have hrun : (credentials text : Op τ (List UInt8)) w = (.error e, w) := congrFun h w
  rw [credentials, ofExcept_run] at hrun
  cases hd : Text.Base64.decode text with
  | ok bytes =>
      rw [hd] at hrun
      cases hrun
  | error p =>
      rw [hd] at hrun
      cases p <;> cases hrun <;> rfl

/-- Calm answers do not break off what is loaded. -/
theorem calm_load (id : Nat) (config : Config) {w : World τ} (hw : w.script.Calm) :
    (load id config w).2.script.Calm ∧ ∀ e, (load id config w).1 = .error e → e.isInterrupt = false := by
  rcases load_cases id config w with ⟨text, e, _, he, hload⟩ | ⟨u, r, hu, _, hload⟩
  · rw [hload]
    exact ⟨hw, fun f hf => Except.error.inj hf ▸ credentials_not_interrupt he w⟩
  · have hcalm : u.script.Calm := by
      rw [hu.eq]
      exact hw
    rw [hload]
    refine ⟨hcalm.answer r, fun e he => ?_⟩
    cases e with
    | interrupt text => exact absurd he (hcalm.answer_ne_interrupt r text)
    | _ => rfl

section Files

variable {c : Connection} {w v : World τ}

omit [Time τ] in
theorem files_withoutFile_congr (hfiles : v.files = w.files) (hpaths : v.paths = w.paths) :
    (c.withoutFile v).files = (c.withoutFile w).files := by
  have hfile : c.hasFile v = c.hasFile w := by simp only [hasFile, hfiles, hpaths]
  unfold withoutFile
  rw [hfile]
  cases c.hasFile w with
  | true => simp [World.dropFile, World.forgetPath, hfiles]
  | false => exact hfiles

omit [Time τ] in
theorem files_withoutFile_begun {c : Connection} (hc : c.id = w.nextId) : (c.withoutFile w.begun).files = w.files := by
  have hpaths : w.begun.paths.contains c.id = false := by
    rw [Bool.eq_false_iff, hc]
    intro hcontains
    exact absurd (List.mem_filter.1 (List.contains_iff_mem.1 hcontains)).2 (by simp)
  rw [withoutFile, hasFile, hpaths]
  rfl

/-- The connection knows of every file that loading has left. -/
theorem mem_files_of_load {c : Connection} (hc : c.id = w.nextId) (config : Config) :
    ∀ f ∈ (c.withoutFile (load w.nextId config w.begun).2).files, f ∈ w.files := by
  rcases load_cases w.nextId config w.begun with ⟨_, _, _, _, hload⟩ | ⟨u, r, hu, _, hload⟩
  · rw [hload, files_withoutFile_begun hc]
    exact fun _ hf => hf
  · have hexchange : (c.withoutFile (u.exchange r).2).files = (c.withoutFile u).files := files_withoutFile_congr rfl rfl
    rw [hload, hexchange]
    unfold Prepares at hu
    split at hu
    · rw [hu, files_withoutFile_begun hc]
      exact fun _ hf => hf
    · obtain ⟨bytes, _, rfl⟩ := hu
      have hfile : c.hasFile ((w.begun.keepFile w.nextId bytes).learnPath w.nextId) = true := by
        simp [hasFile, World.learnPath, World.keepFile, hc]
      rw [withoutFile, if_pos hfile]
      intro f hf
      obtain ⟨hmem, hne⟩ := List.mem_filter.1 hf
      rcases List.mem_cons.1 hmem with rfl | hmem
      · simp [hc] at hne
      · exact hmem

end Files

/-- In `v` the connection is open that was made in `w`. A file that was not there before is one it knows of. -/
structure Made (c : Connection) (w v : World τ) : Prop where
  isOpen : c.isOpen v = true
  environment : v.environment = w.environment
  settings : v.settings = w.settings
  closings : v.closings = w.closings
  calm : v.script.Calm
  files : ∀ f ∈ (c.withoutFile v).files, f ∈ w.files

/-- Nothing is left in `v` of the connection that was made in `w`: it holds no API, and there is no file but those
that were there before. Its transport was closed so often. -/
structure Undone (c : Connection) (w v : World τ) (closings : Nat) : Prop where
  isClosed : c.isClosed v = true
  files : ∀ f ∈ v.files, f ∈ w.files
  closings : v.closings = w.closings + closings

variable {c : Connection} {w v u : World τ}

omit [Time τ] in
theorem Made.undisturbed (h : c.Made w v) (hu : v.Undisturbed u) : c.Made w u where
  isOpen := (isOpen_congr hu.apis c).trans h.isOpen
  environment := hu.environment.trans h.environment
  settings := hu.settings.trans h.settings
  closings := hu.closings.trans h.closings
  calm := hu.calm h.calm
  files := files_withoutFile_congr (c := c) hu.files hu.paths ▸ h.files

/-- A connection that cannot be set up leaves nothing. -/
theorem connect_run (config : Config) {w : World τ} (hw : w.script.Calm) :
    let c : Connection := ⟨w.nextId, config⟩
    (∃ text cause v, connect config w = (.error (.connecting text cause), v) ∧ c.Undone w v 0) ∨
      ∃ v, connect config w = (.ok c, v) ∧ c.Made w v := by
  intro c
  have hload := loads_load w.nextId config w.begun
  have hfiles := mem_files_of_load (c := c) rfl config
  obtain ⟨hcalm, hno⟩ := calm_load w.nextId config (w := w.begun) hw
  rw [connect_eq]
  rcases hr : load w.nextId config w.begun with ⟨e | loaded, v⟩
  · rw [hr] at hload hfiles hno
    have hclosed : c.isClosed v = true := (isClosed_congr hload.apis c).trans (isClosed_begun config w)
    have hresting := c.resting_withoutFile v
    left
    simp only [hno e rfl, Bool.false_eq_true, if_false]
    exact ⟨_, _, _, rfl, (isClosed_congr hresting.apis c).trans hclosed, hfiles,
      hresting.closings.trans hload.closings⟩
  · rw [hr] at hload hfiles hcalm
    right
    have hscript : (c.addApis groups v).script = v.script := addApis_keeps World.script (fun _ _ _ => rfl) c groups v
    have hfiles' : (c.withoutFile (c.addApis groups v)).files = (c.withoutFile v).files :=
      files_withoutFile_congr (addApis_keeps World.files (fun _ _ _ => rfl) c groups v)
        (addApis_keeps World.paths (fun _ _ _ => rfl) c groups v)
    have hmade : c.Made w (c.addApis groups v) := {
      isOpen := isOpen_addApis c v
      environment := (addApis_keeps World.environment (fun _ _ _ => rfl) c groups v).trans hload.environment
      settings := (addApis_keeps World.settings (fun _ _ _ => rfl) c groups v).trans hload.settings
      closings := (addApis_keeps World.closings (fun _ _ _ => rfl) c groups v).trans hload.closings
      calm := by rwa [hscript]
      files := by rwa [hfiles'] }
    exact ⟨(c.addApis groups v).record _, rfl, hmade.undisturbed (World.undisturbed_log _ _ _)⟩

/-- Calm answers let a connection be closed, and nothing of it is left. -/
theorem Made.close_run (h : c.Made w v) : ∃ u, c.close v = (.ok (), u) ∧ c.Undone w u 1 := by
  have hok := h.calm.answer_closing (r := ⟨closing, []⟩) rfl
  have hclosings := v.closings_exchange ⟨closing, []⟩
  have hisClosed := isClosed_close (c := c) (w := v)
  rw [close_eq, has_of_isOpen h.isOpen, if_pos rfl] at hisClosed ⊢
  rcases hr : v.exchange ⟨closing, []⟩ with ⟨o, u⟩
  obtain rfl : (v.script.answer ⟨closing, []⟩).1.outcome = o := congrArg Prod.fst hr
  obtain rfl : (v.exchange ⟨closing, []⟩).2 = u := congrArg Prod.snd hr
  cases ho : (v.script.answer ⟨closing, []⟩).1.outcome with
  | error e =>
      rw [ho] at hok
      cases hok
  | ok a =>
      rw [hr, ho] at hisClosed
      let u := ((v.exchange ⟨closing, []⟩).2.dropApi c.id .transport)
      have hfiles : (c.shed u).files = (c.withoutFile v).files :=
        (c.shed_keeps (·.files) (fun _ _ _ => rfl) u).trans (files_withoutFile_congr rfl rfl)
      have hshed : (c.shed u).closings = u.closings :=
        (c.shed_keeps World.closings (fun _ _ _ => rfl) u).trans (c.resting_withoutFile u).closings
      refine ⟨c.shed u, rfl, hisClosed rfl, hfiles ▸ h.files, ?_⟩
      rw [hshed, ← h.closings]
      exact hclosings

end Connection

/-! ## Settings -/

theorem Op.settings_run (w : World τ) : Op.settings w = match w.settings with
    | some s => (.ok s, w)
    | none => match (Settings.read [] w.environment "" : Checked (Settings τ)) with
      | .valid s => (.ok s, { w with settings := some s })
      | .invalid issues => (.error (.invalid issues), w) := by
  simp only [Op.settings, kept, bind_run, read_run]
  cases w.settings with
  | some s => rfl
  | none =>
      simp only [bind_run, read_run, ofChecked, ofExcept_run]
      cases (Settings.read [] w.environment "" : Checked (Settings τ)) <;> rfl

namespace Cluster

/-- What a caller gives, or else what the settings say. -/
def givenOr (given : Option (Seconds τ)) (setting : Settings τ → τ) : Op τ (Seconds τ) :=
  match given with
  | some s => pure s
  | none => do pure (.real (setting (← Op.settings)))

theorem onConnection_eq (c : Connection) (p : Platform) (interval timeout : Option (Seconds τ)) :
    onConnection c p interval timeout = (do
      let interval ← givenOr (interval.filter fun s => !s.isZero) Settings.pollInterval
      let timeout ← givenOr timeout Settings.defaultTimeout
      let id ← Op.fresh
      pure { id, connection := c, platform := p, interval, timeout }) := by
  unfold onConnection
  cases interval.filter fun s => !s.isZero <;> cases timeout <;>
    simp only [givenOr, bind_assoc, pure_bind]

theorem givenOr_run (given : Option (Seconds τ)) (setting : Settings τ → τ) (w : World τ) :
    (∃ issues, givenOr given setting w = (.error (.invalid issues), w) ∧ given = none ∧
      w.settings = none ∧ (Settings.read [] w.environment "" : Checked (Settings τ)) = .invalid issues) ∨
    ∃ s v, givenOr given setting w = (.ok s, v) ∧ (v = w ∨ v.settings.isSome) := by
  cases given with
  | some s => exact .inr ⟨s, w, rfl, .inl rfl⟩
  | none =>
      simp only [givenOr, bind_run, settings_run]
      cases hs : w.settings with
      | some s => exact .inr ⟨_, w, rfl, .inl rfl⟩
      | none =>
          cases hread : (Settings.read [] w.environment "" : Checked (Settings τ)) with
          | valid s => exact .inr ⟨_, _, rfl, .inr rfl⟩
          | invalid issues => exact .inl ⟨issues, rfl, trivial, rfl, rfl⟩

/-- What a handle on a connection lacks: without an interval or without a timeout it needs the settings,
which cannot be read. -/
def Lacks (interval timeout : Option (Seconds τ)) (w : World τ) (issues : List Issue) : Prop :=
  (interval.filter (fun s => !s.isZero) = none ∨ timeout = none) ∧ w.settings = none ∧
    (Settings.read [] w.environment "" : Checked (Settings τ)) = .invalid issues

theorem onConnection_error {c : Connection} {p : Platform} {interval timeout : Option (Seconds τ)}
    {w v : World τ} {e : Failure τ} (h : onConnection c p interval timeout w = (.error e, v)) :
    v = w ∧ ∃ issues, e = .invalid issues ∧ Lacks interval timeout w issues := by
  rw [onConnection_eq, bind_run] at h
  rcases givenOr_run (interval.filter fun s => !s.isZero) Settings.pollInterval w with
    ⟨issues, hi, hnone, hs, hread⟩ | ⟨s, u, hi, hu⟩
  · rw [hi] at h
    cases h
    exact ⟨rfl, issues, rfl, .inl hnone, hs, hread⟩
  · rw [hi] at h
    simp only [bind_run] at h
    rcases givenOr_run timeout Settings.defaultTimeout u with ⟨issues, ht, hnone, hs, hread⟩ | ⟨t, u', ht, _⟩
    · rw [ht] at h
      cases h
      rcases hu with rfl | hu
      · exact ⟨rfl, issues, rfl, .inr hnone, hs, hread⟩
      · rw [hs] at hu
        cases hu
    · rw [ht] at h
      cases h

/-- Nothing is left in `v` of a connection that was made in `w`, and if it was set up, then it was closed once. -/
def Released (config : Config) (w v : World τ) : Prop :=
  (Connection.mk w.nextId config).Undone w v (if (Connection.connect config w).1.isOk then 1 else 0)

/-- Connecting fails with everything released, or all that is left to do is to build a handle on a connection
that was set up. -/
theorem connect_run (config : Config) {strategies : List (Strategy τ)} (interval timeout : Option (Seconds τ))
    {w : World τ} (hs : ∀ s ∈ strategies, s.Orderly) (hw : w.script.Calm) :
    (∃ text cause v, connect config strategies interval timeout w = (.error (.connecting text cause), v) ∧
      Released config w v) ∨
    ∃ p v, connect config strategies interval timeout w =
        onConnection ⟨w.nextId, config⟩ p interval timeout v ∧
      (Connection.connect config w).1.isOk = true ∧ (Connection.mk w.nextId config).Made w v := by
  rw [connect, bind_run]
  rcases Connection.connect_run config hw with ⟨text, cause, v, hc, hundone⟩ | ⟨v, hc, hmade⟩
  · rw [hc]
    exact .inl ⟨text, cause, v, rfl, by rwa [Released, hc]⟩
  · have hdetect := Platform.orderly_detect ⟨w.nextId, config⟩ hs
    obtain ⟨hu, _⟩ := hdetect v hmade.calm
    rw [hc]
    simp only [bind_run]
    rcases hd : Platform.detect ⟨w.nextId, config⟩ strategies v with ⟨e | p, u⟩
    · rw [hd] at hu
      obtain ⟨u', hclose, hundone⟩ := (hmade.undisturbed hu).close_run
      rw [hdetect.orElse_error hd hmade.calm]
      simp only [bind_run, hclose, fail_run]
      exact .inl ⟨_, _, u', rfl, by rwa [Released, hc]⟩
    · rw [hd] at hu
      simp only [Op.orElse, Op.onFailure, hd]
      exact .inr ⟨p, u, rfl, rfl, hmade.undisturbed hu⟩

/-- A cluster that cannot be connected, while the answers are calm and the strategies leave the connection
alone. The connection is released exactly if the failure is one to connect. Otherwise a handle was not
built for lack of readable settings, and the connection stays open. -/
theorem connect_error {config : Config} {strategies : List (Strategy τ)}
    {interval timeout : Option (Seconds τ)} {w v : World τ} {e : Failure τ}
    (hs : ∀ s ∈ strategies, s.Orderly) (hw : w.script.Calm)
    (h : connect config strategies interval timeout w = (.error e, v)) :
    (Released config w v ↔ ∃ text cause, e = .connecting text cause) ∧
      (¬ Released config w v → (Connection.mk w.nextId config).isOpen v = true ∧
        ∃ issues, e = .invalid issues ∧ Lacks interval timeout w issues) := by
  rcases connect_run config interval timeout hs hw with
    ⟨text, cause, u, hrun, hreleased⟩ | ⟨p, u, hrun, hok, hmade⟩
  · rw [hrun] at h
    cases h
    exact ⟨⟨fun _ => ⟨text, cause, rfl⟩, fun _ => hreleased⟩, fun hno => absurd hreleased hno⟩
  · rw [hrun] at h
    obtain ⟨rfl, issues, rfl, hneeds, hsettings, hread⟩ := onConnection_error h
    have hunreleased : ¬ Released config w v := by
      intro hreleased
      have hclosings := hreleased.closings
      rw [hmade.closings, hok] at hclosings
      exact absurd hclosings (Nat.ne_of_lt (Nat.lt_succ_self _))
    refine ⟨⟨fun hr => absurd hr hunreleased, fun ⟨_, _, he⟩ => by cases he⟩, fun _ => ?_⟩
    refine ⟨hmade.isOpen, issues, rfl, hneeds, ?_, ?_⟩
    · exact hmade.settings.symm.trans hsettings
    · rw [← hread, hmade.environment]

/-- A cluster whose nodes may not be listed, so that no platform is detected. -/
def forbidding : World Rat :=
  World.initial [(Kind.node.endpoint .list .null, [⟨.error (.rejected ⟨.int 403, "Forbidden", .null⟩), 0⟩])] []

theorem calm_forbidding : forbidding.script.Calm := by
  have hqueue : ∀ e, ∀ r ∈ forbidding.script.queue e,
      e = Kind.node.endpoint .list .null ∧ r = ⟨.error (.rejected ⟨.int 403, "Forbidden", .null⟩), 0⟩ := by
    intro e r hr
    simp only [forbidding, World.initial, Script.queue, List.lookup_cons] at hr
    split at hr
    · rename_i he
      exact ⟨beq_iff_eq.1 he, List.mem_singleton.1 hr⟩
    · cases hr
  refine ⟨fun e r hr text ho => ?_, fun r hr => ?_⟩
  · rw [(hqueue e r hr).2] at ho
    cases ho
  · have he := (hqueue _ r hr).1
    exact absurd he.symm (Kind.endpoint_ne_closing _ _ _)

/-- With the strategies that are known, a detection that fails releases the connection. -/
theorem connect_error_of_forbidding : ∃ e v,
    connect { kubeconfigData := some "YQ==" } Strategy.known none none forbidding = (.error e, v) ∧
      Released { kubeconfigData := some "YQ==" } forbidding v := by
  have hfails : (match (connect { kubeconfigData := some "YQ==" } Strategy.known none none forbidding).1 with
    | .error e => e.isCluster
    | .ok _ => false) = true := by decide +kernel
  rcases hr : connect { kubeconfigData := some "YQ==" } Strategy.known none none forbidding with ⟨e | c, v⟩
  · rw [hr] at hfails
    refine ⟨e, v, rfl, Classical.byContradiction fun hno => ?_⟩
    obtain ⟨_, issues, rfl, _⟩ := (connect_error Strategy.orderly_known calm_forbidding hr).2 hno
    cases hfails
  · rw [hr] at hfails
    cases hfails

/-- An interval that is no number keeps the connection open, together with its file of credentials. -/
theorem connect_leaves_connection :
    (World.initial [] [("PAAS_K8S_POLL_INTERVAL_SECONDS", "abc")] : World Rat).script.Calm ∧
      let run := connect { kubeconfigData := some "YQ==" } [] none none
        (World.initial [] [("PAAS_K8S_POLL_INTERVAL_SECONDS", "abc")] : World Rat)
      run.1.isOk = false ∧ run.2.files = [(0, [97])] ∧
        (Connection.mk 0 { kubeconfigData := some "YQ==" }).isOpen run.2 = true ∧ run.2.closings = 0 := by
  have hempty : ∀ e, ∀ r : Response Rat, r ∉ Script.queue [] e := fun e r hr => by cases hr
  exact ⟨⟨fun e r hr => absurd hr (hempty e r), fun r hr => absurd hr (hempty _ r)⟩, by decide +kernel⟩

end Cluster

end ClusterControl
