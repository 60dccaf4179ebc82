import ClusterControl.Proofs.Cluster.Connecting
import ClusterControl.Proofs.Connection.Credentials
import ClusterControl.Proofs.Connection.Operations
import ClusterControl.Proofs.Op.Onward
import ClusterControl.Proofs.Platform.FirstMatch

/-!
# The handle that a process shares

The shared handle is built when it is asked for and none is kept. From then on it is handed out as it is, until it is
dropped. A build that fails leaves none behind, and a handle that is built is never one that was handed out before.
-/

namespace ClusterControl

variable {τ α : Type} [Time τ]

open Op

/-! ## Builds go onward -/

namespace Connection

variable {c : Connection} {P : Event τ → Prop}

omit [Time τ] in
theorem onward_withoutFile (c : Connection) (w : World τ) : w.Onward (c.withoutFile w) := by
  unfold withoutFile
  split
  · exact ⟨rfl, Nat.le_refl _, List.suffix_rfl⟩
  · exact .refl w

omit [Time τ] in
theorem onward_shed (c : Connection) (w : World τ) : w.Onward (c.shed w) := by
  have hfile := c.onward_withoutFile w
  have hshared : (c.shed w).shared = (c.withoutFile w).shared := c.shed_keeps World.shared (fun _ _ _ => rfl) w
  have hid : (c.shed w).nextId = (c.withoutFile w).nextId := c.shed_keeps World.nextId (fun _ _ _ => rfl) w
  have hhistory : (c.shed w).history = (c.withoutFile w).history := c.shed_keeps World.history (fun _ _ _ => rfl) w
  exact ⟨hshared.trans hfile.shared, by rw [hid]; exact hfile.nextId_le, by rw [hhistory]; exact hfile.history⟩

theorem onward_close (c : Connection) : (c.close : Op τ Unit).Onward := by
  intro w
  have hexchange := w.onward_exchange ⟨closing, []⟩
  rw [close_eq]
  cases c.has .transport w with
  | false => exact c.onward_shed w
  | true =>
      rw [if_pos rfl]
      rcases hr : w.exchange ⟨closing, []⟩ with ⟨e | a, v⟩
      · rwa [hr] at hexchange
      · rw [hr] at hexchange
        have hrelease : v.Onward (v.dropApi c.id .transport) := ⟨rfl, Nat.le_refl _, List.suffix_rfl⟩
        exact hexchange.trans (hrelease.trans (c.onward_shed _))

theorem Steps.onward {x : Op τ α} (h : c.Steps P x) : x.Onward := by
  induction h with
  | ofExcept o => exact onward_ofExcept o
  | note _ => exact fun w => w.onward_record _
  | require =>
      intro w
      unfold Connection.require
      split <;> exact .refl w
  | @request r _ => exact onward_request r
  | @find r _ =>
      intro w
      rw [find_run]
      split
      · exact w.onward_exchange r
      · exact .refl w
  | close => exact c.onward_close
  | bind _ _ hx hf => exact hx.bind hf
  | onFailure _ _ hx hh => exact hx.onFailure hh
  | attempt _ hx => exact hx.attempt
  | poll p _ hcheck => exact Poll.onward_run hcheck p

theorem onward_load (id : Nat) (config : Config) : (load id config : Op τ Value).Onward := by
  intro w
  rcases load_cases id config w with ⟨_, e, _, _, hload⟩ | ⟨u, r, hu, _, hload⟩
  · rw [hload]
    exact .refl w
  · have hprepared : w.Onward u := by
      rw [hu.eq]
      exact ⟨rfl, Nat.le_refl _, List.suffix_rfl⟩
    rw [hload]
    exact hprepared.trans (u.onward_exchange r)

omit [Time τ] in
theorem onward_addApis (c : Connection) (gs : List Group) (w : World τ) : w.Onward (c.addApis gs w) where
  shared := addApis_keeps World.shared (fun _ _ _ => rfl) c gs w
  nextId_le := Nat.le_of_eq (addApis_keeps World.nextId (fun _ _ _ => rfl) c gs w).symm
  history := by
    have hhistory : (c.addApis gs w).history = w.history := addApis_keeps World.history (fun _ _ _ => rfl) c gs w
    rw [hhistory]

theorem onward_connect (config : Config) : (connect config : Op τ Connection).Onward := by
  intro w
  have hbegun : w.Onward w.begun := ⟨rfl, Nat.le_succ _, List.suffix_rfl⟩
  have hload := hbegun.trans (onward_load w.nextId config w.begun)
  rw [connect_eq]
  rcases hr : load w.nextId config w.begun with ⟨e | loaded, v⟩
  · rw [hr] at hload
    cases he : e.isInterrupt with
    | true =>
        simp only [he, if_true]
        exact hload
    | false =>
        simp only [he, Bool.false_eq_true, if_false]
        exact hload.trans (onward_withoutFile _ v)
  · rw [hr] at hload
    exact hload.trans ((onward_addApis _ groups v).trans (World.onward_record _ _))

end Connection

theorem Op.onward_settings : (Op.settings : Op τ (Settings τ)).Onward := by
  intro w
  rw [settings_run]
  split
  · exact .refl w
  · split
    · exact ⟨rfl, Nat.le_refl _, List.suffix_rfl⟩
    · exact .refl w

namespace Cluster

theorem onward_givenOr (given : Option (Seconds τ)) (setting : Settings τ → τ) : (givenOr given setting).Onward := by
  cases given with
  | some s => exact onward_pure s
  | none => exact onward_settings.bind fun _ => onward_pure _

theorem onward_onConnection (c : Connection) (p : Platform) (interval timeout : Option (Seconds τ)) :
    (onConnection c p interval timeout).Onward := by
  rw [onConnection_eq]
  exact (onward_givenOr _ _).bind fun _ => (onward_givenOr _ _).bind fun _ =>
    onward_fresh.bind fun _ => onward_pure _

theorem onward_detect (c : Connection) : (Platform.detect c Strategy.known : Op τ Platform).Onward :=
  (Platform.steps_detect (Strategy.stepwise_known c)).onward

theorem onward_release (k : Connection) (e : Failure τ) :
    (do
      k.close
      fail (.connecting ("Failed to load cluster platform: " ++ e.message) (some e)) : Op τ Platform).Onward :=
  k.onward_close.bind fun _ => onward_ofExcept _

theorem onward_connectFromSettings : (connectFromSettings : Op τ (Cluster τ)).Onward :=
  onward_settings.bind fun _ => (Connection.onward_connect _).bind fun k =>
    ((onward_detect k).orElse (onward_release k)).bind fun p => onward_onConnection k p _ _

/-! ## Handles that are built -/

theorem id_of_onConnection {k : Connection} {p : Platform} {interval timeout : Option (Seconds τ)} {w v : World τ}
    {c : Cluster τ} (h : onConnection k p interval timeout w = (.ok c, v)) : w.nextId ≤ c.id ∧ c.id < v.nextId := by
  rw [onConnection_eq] at h
  obtain ⟨i, w₁, hi, h⟩ := bind_eq_ok h
  obtain ⟨t, w₂, ht, h⟩ := bind_eq_ok h
  have hw₁ := (onward_givenOr _ _).of_run hi
  have hw₂ := (onward_givenOr _ _).of_run ht
  cases h
  exact ⟨(hw₁.trans hw₂).nextId_le, Nat.lt_succ_self _⟩

/-- A build that gets a handle has first asked the loader, and then the cluster for its nodes. -/
structure Built (w : World τ) (c : Cluster τ) (v : World τ) : Prop where
  id : w.nextId ≤ c.id ∧ c.id < v.nextId
  asked : ∃ loaded listed rest, v.exchanges = w.exchanges ++ loaded :: listed :: rest ∧
    loaded.request.endpoint.group = .loader ∧ listed.request = Node.nodesRequest

theorem asked_of_connection {config : Config} {w v : World τ} {k : Connection}
    (h : Connection.connect config w = (.ok k, v)) :
    ∃ x, v.exchanges = w.exchanges ++ [x] ∧ x.request.endpoint.group = .loader ∧ k.isOpen v = true := by
  have hexchanges := Connection.exchanges_connect config w
  have hload := Connection.load_cases w.nextId config w.begun
  rw [h] at hexchanges
  rw [Connection.connect_eq] at h
  rcases hr : Connection.load w.nextId config w.begun with ⟨e | loaded, u⟩
  · rw [hr] at h
    simp only at h
    split at h <;> cases h
  · rw [hr] at h hexchanges hload
    rcases hload with ⟨_, e, _, _, hload⟩ | ⟨u', r, hprepared, hr, hload⟩
    · cases hload
    · cases h
      have hu' : u'.exchanges = w.exchanges := by rw [hprepared.eq]; rfl
      have hu : u = (u'.exchange r).2 := congrArg Prod.snd hload
      rw [hexchanges, hu, World.exchanges_exchange, hu']
      exact ⟨_, rfl, hr, Connection.isOpen_addApis ⟨w.nextId, config⟩ (u'.exchange r).2⟩

theorem onward_detect_cons {k : Connection} {s : Strategy τ} {ss : List (Strategy τ)} (hs : s.Stepwise k)
    (hss : ∀ t ∈ ss, t.Stepwise k) (w : World τ) : (s.detect k w).2.Onward (Platform.detect k (s :: ss) w).2 := by
  obtain hmiss | hmatch | ⟨e, hbreak, he⟩ := s.misses_or_stops k w
  · rw [Platform.detect_of_miss hmiss]
    exact (Platform.steps_detect hss).onward _
  · have hload := hs.load.onward (s.detect k w).2
    rw [Platform.detect_of_match hmatch]
    rcases hr : s.load k (s.detect k w).2 with ⟨e | p, v⟩
    · rwa [hr] at hload
    · rw [hr] at hload
      exact hload.trans (v.onward_record _)
  · rw [Platform.detect_of_break hbreak he]
    exact .refl _

theorem asked_of_detect {k : Connection} {w : World τ} (hw : k.isOpen w = true) :
    ∃ x rest, (Platform.detect k Strategy.known w).2.exchanges = w.exchanges ++ x :: rest ∧
      x.request = Node.nodesRequest := by
  obtain ⟨hfirst, hrest⟩ := List.forall_mem_cons.1 (Strategy.stepwise_known (τ := τ) k)
  have honward := onward_detect_cons hfirst hrest w
  obtain ⟨answer, hkind⟩ : ∃ answer, ((Strategy.kind : Strategy τ).detect k).Inquires k Node.nodesRequest answer :=
    ⟨_, Strategy.inquires_someNode _ k⟩
  rw [hkind w, if_pos (Connection.serves_of_isOpen hw _)] at honward
  obtain ⟨rest, hexchanges⟩ := honward.exchanges
  rw [World.exchanges_exchange, List.append_assoc] at hexchanges
  exact ⟨_, rest, hexchanges, rfl⟩

theorem exchanges_of_settings {w v : World τ} {s : Settings τ} (h : Op.settings w = (.ok s, v)) :
    v.exchanges = w.exchanges := by
  rw [settings_run] at h
  split at h
  · cases h
    rfl
  · split at h
    · cases h
      rfl
    · cases h

theorem built {w v : World τ} {c : Cluster τ} (h : connectFromSettings w = (.ok c, v)) : Built w c v := by
  obtain ⟨s, w₁, hs, h⟩ := bind_eq_ok h
  obtain ⟨k, w₂, hk, h⟩ := bind_eq_ok h
  obtain ⟨p, w₃, hp, hc⟩ := bind_eq_ok h
  have hbefore : w.Onward w₃ := (onward_settings.of_run hs).trans <|
    ((Connection.onward_connect _).of_run hk).trans (((onward_detect k).orElse (onward_release k)).of_run hp)
  have hafter : (Platform.detect k Strategy.known w₂).2.Onward v := by
    have hhandling := onward_handling (Platform.detect k Strategy.known) (onward_passing (onward_release k)) w₂
    rw [show onFailure _ _ w₂ = (.ok p, w₃) from hp] at hhandling
    exact hhandling.trans ((onward_onConnection k p _ _).of_run hc)
  obtain ⟨hle, hlt⟩ := id_of_onConnection hc
  refine ⟨⟨Nat.le_trans hbefore.nextId_le hle, hlt⟩, ?_⟩
  obtain ⟨x, hx, hloader, hopen⟩ := asked_of_connection hk
  obtain ⟨y, rest, hy, hnodes⟩ := asked_of_detect hopen
  obtain ⟨more, hmore⟩ := hafter.exchanges
  refine ⟨x, y, rest ++ more, ?_, hloader, hnodes⟩
  rw [hmore, hy, hx, exchanges_of_settings hs, List.append_assoc, List.append_assoc]
  rfl

/-! ## Turns -/

/-- What else comes to pass in a process: nothing that concerns the shared handle. -/
structure Interlude (τ : Type) where
  change : World τ → World τ
  onward : ∀ w : World τ, w.Onward (change w)

inductive Turn (τ : Type) where
  | get
  | reset
  | other (x : Interlude τ)

/-- The handle that the process shares, on the cluster that the settings name. -/
def getShared : Op τ (Cluster τ) := shared connectFromSettings

def Turn.run : Turn τ → World τ → World τ
  | .get, w => (getShared w).2
  | .reset, w => (dropShared w).2
  | .other x, w => x.change w

def Turn.handles : Turn τ → World τ → List (Cluster τ)
  | .get, w => (getShared w).1.toOption.toList
  | _, _ => []

def after : List (Turn τ) → World τ → World τ
  | [], w => w
  | t :: ts, w => after ts (t.run w)

/-- The handles that were handed out, the earliest first. -/
def handed : List (Turn τ) → World τ → List (Cluster τ)
  | [], _ => []
  | t :: ts, w => t.handles w ++ handed ts (t.run w)

def remembered : Except (Failure τ) (Cluster τ) × World τ → Except (Failure τ) (Cluster τ) × World τ
  | (.ok c, w) => (.ok c, { w with shared := some c })
  | (.error e, w) => (.error e, w)

theorem getShared_of_some {w : World τ} {c : Cluster τ} (h : w.shared = some c) : getShared w = (.ok c, w) := by
  simp only [getShared, shared, kept, bind_run, read_run, h, pure_run]

theorem getShared_of_none {w : World τ} (h : w.shared = none) : getShared w = remembered (connectFromSettings w) := by
  simp only [getShared, shared, kept, bind_run, read_run, h]
  rcases connectFromSettings w with ⟨e | c, v⟩ <;> rfl

/-- The shared handle has a number that was given out. -/
def SharedNumbered (w : World τ) : Prop := ∀ c, w.shared = some c → c.id < w.nextId

theorem sharedNumbered_initial (script : Script τ) (environment : Environment) :
    SharedNumbered (World.initial script environment) :=
  fun _ h => by cases h

theorem after_append (ts us : List (Turn τ)) (w : World τ) : after (ts ++ us) w = after us (after ts w) := by
  induction ts generalizing w with
  | nil => rfl
  | cons t ts ih => exact ih (t.run w)

/-! ## What a turn does -/

section Turns

variable {w v : World τ} {c : Cluster τ}

/-- How asking for the shared handle ends: it was there, or it is built, or it cannot be built. -/
inductive Gets (w : World τ) : Except (Failure τ) (Cluster τ) × World τ → Prop where
  | there {c : Cluster τ} : w.shared = some c → Gets w (.ok c, w)
  | built {c : Cluster τ} {v : World τ} : w.shared = none → Built w c v → Gets w (.ok c, { v with shared := some c })
  | failed {e : Failure τ} {v : World τ} : w.shared = none → w.Onward v → Gets w (.error e, v)

theorem gets (w : World τ) : Gets w (getShared w) := by
  cases hw : w.shared with
  | some c =>
      rw [getShared_of_some hw]
      exact .there hw
  | none =>
      rw [getShared_of_none hw]
      rcases hr : connectFromSettings w with ⟨e | c, v⟩
      · exact .failed hw (onward_connectFromSettings.of_run hr)
      · exact .built hw (built hr)

theorem shared_of_ok (h : getShared w = (.ok c, v)) : v.shared = some c := by
  have hgets := gets w
  rw [h] at hgets
  cases hgets with
  | there hc => exact hc
  | built _ _ => rfl

theorem shared_of_error {e : Failure τ} (h : getShared w = (.error e, v)) : v.shared = none := by
  have hgets := gets w
  rw [h] at hgets
  cases hgets with
  | failed hnone honward => exact honward.shared.trans hnone

theorem built_of_getShared (hw : w.shared = none) (h : getShared w = (.ok c, v)) : Built w c v := by
  have hgets := gets w
  rw [h] at hgets
  cases hgets with
  | there hc => cases hw.symm.trans hc
  | built _ hbuilt => exact ⟨hbuilt.id, hbuilt.asked⟩

/-- A turn gives numbers to handles in order, and the shared handle has one of them. -/
theorem Turn.numbered (hw : SharedNumbered w) (t : Turn τ) :
    SharedNumbered (t.run w) ∧ w.nextId ≤ (t.run w).nextId ∧ ∀ c ∈ t.handles w, c.id < (t.run w).nextId := by
  cases t with
  | get =>
      have hgets := gets w
      simp only [run, handles]
      generalize getShared w = asked at hgets ⊢
      cases hgets with
      | there hc =>
          refine ⟨hw, Nat.le_refl _, fun c' hc' => ?_⟩
          obtain rfl := List.mem_singleton.1 hc'
          exact hw _ hc
      | built _ hbuilt =>
          obtain ⟨hle, hlt⟩ := hbuilt.id
          refine ⟨fun c' hc' => ?_, Nat.le_trans hle (Nat.le_of_lt hlt), fun c' hc' => ?_⟩
          · obtain rfl := Option.some.inj hc'
            exact hlt
          · obtain rfl := List.mem_singleton.1 hc'
            exact hlt
      | failed hnone honward =>
          refine ⟨fun c' hc' => ?_, honward.nextId_le, fun c' hc' => by cases hc'⟩
          rw [honward.shared, hnone] at hc'
          cases hc'
  | reset => exact ⟨fun _ hc => (by cases hc), Nat.le_refl _, fun _ hc => (by cases hc)⟩
  | other x =>
      have honward := x.onward w
      refine ⟨fun c hc => ?_, honward.nextId_le, fun c hc => by cases hc⟩
      exact Nat.lt_of_lt_of_le (hw c (honward.shared ▸ hc)) honward.nextId_le

theorem Turn.keeps (h : w.shared = some c) (t : Turn τ) (ht : t ≠ .reset) : (t.run w).shared = some c := by
  cases t with
  | get =>
      rw [run, getShared_of_some h]
      exact h
  | reset => exact absurd rfl ht
  | other x => exact (x.onward w).shared.trans h

theorem Turn.leaves_none (h : w.shared = none) (t : Turn τ) (ht : t.handles w = []) : (t.run w).shared = none := by
  cases t with
  | get =>
      rcases hr : getShared w with ⟨e | c, v⟩
      · rw [run, hr]
        exact shared_of_error hr
      · rw [handles, hr] at ht
        cases ht
  | reset => rfl
  | other x => exact (x.onward w).shared.trans h

/-! ## What many turns do -/

theorem numbered_after (hw : SharedNumbered w) (ts : List (Turn τ)) :
    SharedNumbered (after ts w) ∧ w.nextId ≤ (after ts w).nextId ∧
      ∀ c ∈ handed ts w, c.id < (after ts w).nextId := by
  induction ts generalizing w with
  | nil => exact ⟨hw, Nat.le_refl _, List.forall_mem_nil _⟩
  | cons t ts ih =>
      obtain ⟨hnumbered, hle, hhandles⟩ := t.numbered hw
      obtain ⟨hnumbered', hle', hhanded⟩ := ih hnumbered
      refine ⟨hnumbered', Nat.le_trans hle hle', fun c hc => ?_⟩
      rcases List.mem_append.1 hc with hc | hc
      · exact Nat.lt_of_lt_of_le (hhandles c hc) hle'
      · exact hhanded c hc

theorem kept_after (h : w.shared = some c) {ts : List (Turn τ)} (hts : Turn.reset ∉ ts) :
    (after ts w).shared = some c := by
  induction ts generalizing w with
  | nil => exact h
  | cons t ts ih =>
      obtain ⟨ht, hts⟩ := not_or.1 (mt List.mem_cons.2 hts)
      exact ih (t.keeps h (Ne.symm ht)) hts

theorem none_after (h : w.shared = none) {ts : List (Turn τ)} (hts : handed ts w = []) :
    (after ts w).shared = none := by
  induction ts generalizing w with
  | nil => exact h
  | cons t ts ih =>
      obtain ⟨ht, hts⟩ := List.append_eq_nil_iff.1 hts
      exact ih (t.leaves_none h ht) hts

theorem handed_of_not_mem {ts : List (Turn τ)} (hts : Turn.get ∉ ts) (w : World τ) : handed ts w = [] := by
  induction ts generalizing w with
  | nil => rfl
  | cons t ts ih =>
      obtain ⟨ht, hrest⟩ := not_or.1 (mt List.mem_cons.2 hts)
      cases t with
      | get => exact absurd rfl ht
      | reset => exact ih hrest _
      | other x => exact ih hrest _

end Turns

/-- What holds of the shared handle after any turns `ts` that began in the world `w`. -/
structure BuiltOnce (w : World τ) (ts : List (Turn τ)) : Prop where
  /-- A handle that is handed out is handed out until the next reset, and nothing else comes to pass. -/
  same : ∀ c v, getShared (after ts w) = (.ok c, v) → ∀ us, Turn.reset ∉ us →
    getShared (after us v) = (.ok c, after us v)
  /-- A build that fails leaves nothing, and all of it is run when the handle is asked for again. -/
  failed : ∀ e v, getShared (after ts w) = (.error e, v) → v.shared = none ∧ ∀ us, Turn.get ∉ us →
    getShared (after us v) = remembered (connectFromSettings (after us v))
  /-- The first handle that is handed out after a reset was built anew, and was not handed out before. -/
  anew : ∀ front back c v, ts = front ++ .reset :: back → handed back (after (front ++ [.reset]) w) = [] →
    getShared (after ts w) = (.ok c, v) → Built (after ts w) c v ∧ ∀ c' ∈ handed front w, c'.id ≠ c.id

/-- The shared handle is built at most once between two resets, whatever the loader and the cluster answer. -/
theorem shared_built_once {w : World τ} (hw : SharedNumbered w) (ts : List (Turn τ)) : BuiltOnce w ts := by
  constructor
  · intro c v h us hus
    exact getShared_of_some (kept_after (shared_of_ok h) hus)
  · intro e v h
    have hnone := shared_of_error h
    exact ⟨hnone, fun us hus => getShared_of_none (none_after hnone (handed_of_not_mem hus v))⟩
  · rintro front back c v rfl hback h
    rw [List.append_cons, after_append] at h ⊢
    have hreset : after (front ++ [.reset]) w = (dropShared (after front w)).2 := after_append front [.reset] w
    have hbuilt := built_of_getShared (none_after (by rw [hreset]; rfl) hback) h
    refine ⟨hbuilt, fun c' hc' => Nat.ne_of_lt ?_⟩
    -- Numbers that were given out before the reset lie below all that are given out after it.
    obtain ⟨_, _, hbefore⟩ := numbered_after hw front
    obtain ⟨hnumbered, _, _⟩ := numbered_after hw (front ++ [.reset])
    obtain ⟨_, hafter, _⟩ := numbered_after hnumbered back
    calc c'.id
        < (after front w).nextId := hbefore c' hc'
      _ = (after (front ++ [.reset]) w).nextId := by rw [hreset]; rfl
      _ ≤ (after back (after (front ++ [.reset]) w)).nextId := hafter
      _ ≤ c.id := hbuilt.id.1

/-- A loader that fails at first. -/
def awakening : World Rat :=
  World.initial [(⟨.loader, "load_kube_config"⟩,
    [⟨.error (.rejected ⟨.int 500, "Internal Error", .null⟩), 1⟩, ⟨.ok (.obj []), 1⟩])] []

theorem shared_built_once_of_awakening :
    BuiltOnce awakening [.get, .get, .get, .reset] ∧ (getShared awakening).1.isOk = false ∧
      (handed [.get, .get, .get, .reset, .get] awakening).map Cluster.id = [2, 2, 4] :=
  ⟨shared_built_once (sharedNumbered_initial _ _) _, by decide +kernel, by decide +kernel⟩

end Cluster

end ClusterControl
