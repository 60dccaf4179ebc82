import ClusterControl.Proofs.Connection.Closed

/-!
# Setting up a connection

A connection that is set up holds all APIs, which it is given one after the other. One that cannot be set up
is closed, and as it was given no API yet, all that this can do is to remove its file of credentials.
-/

namespace ClusterControl

open Op

variable {τ : Type}

/-! ## Connections and their files -/

namespace World

def filesOf (w : World τ) (id : Nat) : List (List UInt8) :=
  (w.files.filter fun f => f.1 == id).map Prod.snd

/-- Every number in use was given out. -/
structure Numbered (w : World τ) : Prop where
  apis : ∀ a ∈ w.apis, a.1 < w.nextId
  paths : ∀ id ∈ w.paths, id < w.nextId
  files : ∀ f ∈ w.files, f.1 < w.nextId

theorem numbered_initial [Time τ] (script : Script τ) (environment : Environment) :
    (initial script environment).Numbered :=
  ⟨fun _ h => absurd h List.not_mem_nil, fun _ h => absurd h List.not_mem_nil, fun _ h => absurd h List.not_mem_nil⟩

/-- The world in which a new connection is set up, which has a number and holds nothing. -/
def begun (w : World τ) : World τ := { w with nextId := w.nextId + 1 }.clear w.nextId

variable {w v u : World τ}

theorem Numbered.filter_apis (hw : w.Numbered) : w.apis.filter (fun a => a.1 != w.nextId) = w.apis :=
  List.filter_eq_self.2 fun a ha => bne_iff_ne.2 (Nat.ne_of_lt (hw.apis a ha))

theorem Numbered.filter_paths (hw : w.Numbered) : w.paths.filter (· != w.nextId) = w.paths :=
  List.filter_eq_self.2 fun id hid => bne_iff_ne.2 (Nat.ne_of_lt (hw.paths id hid))

theorem Numbered.filter_files (hw : w.Numbered) : w.files.filter (fun f => f.1 != w.nextId) = w.files :=
  List.filter_eq_self.2 fun f hf => bne_iff_ne.2 (Nat.ne_of_lt (hw.files f hf))

theorem Numbered.begun_eq (hw : w.Numbered) : w.begun = { w with nextId := w.nextId + 1 } := by
  simp only [begun, clear, hw.filter_apis, hw.filter_paths]

theorem Numbered.filesOf_nextId (hw : w.Numbered) : w.filesOf w.nextId = [] := by
  rw [filesOf, List.map_eq_nil_iff, List.filter_eq_nil_iff]
  intro f hf hid
  exact absurd (hw.files f hf) (beq_iff_eq.1 hid ▸ Nat.lt_irrefl _)

theorem filesOf_dropFile (w : World τ) (id : Nat) : (w.dropFile id).filesOf id = [] := by
  rw [filesOf, List.map_eq_nil_iff, List.filter_eq_nil_iff]
  intro f hf hid
  have hne : f.1 ≠ id := by simpa [dropFile] using (List.mem_filter.1 hf).2
  exact hne (beq_iff_eq.1 hid)

end World

namespace Config

/-- The credentials given as text, where they are what a connection is made from. -/
def ownCredentials? (config : Config) : Option String :=
  if config.inCluster then none else config.kubeconfigData.filter (· != "")

end Config

namespace Connection

variable [Time τ]

theorem setUp_run (c : Connection) (w : World τ) : c.setUp w = match load c.id c.config w with
    | (.ok loaded, v) => (.ok loaded, c.addApis groups v)
    | (.error e, v) => (.error e, v) := by
  simp only [setUp, bind_run, forM_acquire]
  rcases load c.id c.config w with ⟨e | loaded, v⟩ <;> rfl

/-! ## Loading -/

/-- The world that asks the loader: the credentials given as text were written to a file for it. -/
def Prepares (config : Config) (id : Nat) (w v : World τ) : Prop :=
  match config.ownCredentials? with
  | none => v = w
  | some text => ∃ bytes, Text.Base64.decode text = .ok bytes ∧ v = (w.keepFile id bytes).learnPath id

theorem load_cases (id : Nat) (config : Config) (w : World τ) :
    (∃ text e, config.ownCredentials? = some text ∧ (credentials text : Op τ (List UInt8)) = fail e ∧
      load id config w = (.error e, w)) ∨
    ∃ v r, Prepares config id w v ∧ r.endpoint.group = .loader ∧ load id config w = v.exchange r := by
  unfold Prepares Config.ownCredentials? load
  cases config.inCluster with
  | true => exact .inr ⟨w, _, rfl, rfl, rfl⟩
  | false =>
      cases config.kubeconfigData with
      | none => exact .inr ⟨w, _, rfl, rfl, rfl⟩
      | some text =>
          by_cases htext : text = ""
          · subst htext
            exact .inr ⟨w, _, rfl, rfl, rfl⟩
          · have hkept : (some text).filter (· != "") = some text := by simp [htext]
            simp only [Bool.false_eq_true, if_false, hkept]
            cases hd : Text.Base64.decode text with
            | error p =>
                refine .inl ⟨text, _, rfl, by rw [credentials, hd]; rfl, ?_⟩
                simp only [bind_run, credentials, hd, ofExcept_run]
                rfl
            | ok bytes =>
                refine .inr ⟨(w.keepFile id bytes).learnPath id, ⟨⟨.loader, "load_kube_config"⟩,
                  [("config_file", temporaryPath bytes), ("context", .ofOption config.context)]⟩,
                  ⟨bytes, rfl, rfl⟩, rfl, ?_⟩
                simp only [bind_run, credentials, hd, ofExcept_run]
                rfl

section Loading

variable {config : Config} {w v : World τ} {id : Nat}

omit [Time τ] in
theorem Prepares.eq (h : Prepares config id w v) :
    v = { w with paths := v.paths, files := v.files, filesMade := v.filesMade } := by
  unfold Prepares at h
  split at h
  · rw [h]
  · obtain ⟨bytes, _, rfl⟩ := h
    rfl

/-- What loading leaves as it was, but for what belongs to the connection that is set up. -/
structure Loads (id : Nat) (w v : World τ) : Prop where
  apis : v.apis = w.apis
  nextId : v.nextId = w.nextId
  environment : v.environment = w.environment
  settings : v.settings = w.settings
  closings : v.closings = w.closings
  paths : v.paths.filter (· != id) = w.paths.filter (· != id)
  files : v.files.filter (fun f => f.1 != id) = w.files.filter fun f => f.1 != id

omit [Time τ] in
theorem Loads.refl (id : Nat) (w : World τ) : Loads id w w := ⟨rfl, rfl, rfl, rfl, rfl, rfl, rfl⟩

omit [Time τ] in
theorem Prepares.loads (h : Prepares config id w v) : Loads id w v := by
  unfold Prepares at h
  split at h
  · rw [h]
    exact .refl id w
  · obtain ⟨bytes, _, rfl⟩ := h
    refine ⟨rfl, rfl, rfl, rfl, rfl, ?_, ?_⟩
    · simp [World.learnPath, World.keepFile]
    · simp [World.learnPath, World.keepFile]

theorem loads_load (id : Nat) (config : Config) (w : World τ) : Loads id w (load id config w).2 := by
  rcases load_cases id config w with ⟨_, e, _, _, hload⟩ | ⟨u, r, hu, hr, hload⟩
  · rw [hload]
    exact .refl id w
  · have hne : r.endpoint ≠ closing := fun h => by rw [h] at hr; cases hr
    have hclosings := u.closings_exchange r
    rw [if_neg hne, Nat.add_zero] at hclosings
    have hloads := hu.loads
    rw [hload]
    exact ⟨hloads.apis, hloads.nextId, hloads.environment, hloads.settings, hclosings.trans hloads.closings,
      hloads.paths, hloads.files⟩

/-- Why nothing was loaded, and what was exchanged until then. -/
inductive Unloaded (config : Config) (cause : Failure τ) : List (Exchange τ) → Prop where
  | undecodable {text : String} : config.ownCredentials? = some text →
      (credentials text : Op τ (List UInt8)) = fail cause → Unloaded config cause []
  | refused {x : Exchange τ} : x.request.endpoint.group = .loader → x.outcome = .error cause →
      Unloaded config cause [x]

theorem unloaded_of_load {cause : Failure τ} (h : load id config w = (.error cause, v)) :
    ∃ xs, v.exchanges = w.exchanges ++ xs ∧ Unloaded config cause xs := by
  rcases load_cases id config w with ⟨text, e, htext, he, hload⟩ | ⟨u, r, hu, hr, hload⟩
  · rw [hload] at h
    cases h
    exact ⟨[], (List.append_nil _).symm, .undecodable htext he⟩
  · have hx := u.exchanges_exchange r
    have hexchanges : u.exchanges = w.exchanges := by rw [hu.eq]; rfl
    rw [← hload, h, hexchanges] at hx
    exact ⟨_, hx, .refused hr rfl⟩

/-- The file of a connection is there just if its path is known, and neither is there before it was loaded. -/
theorem load_knows_file (hpaths : w.paths.contains id = false) (hfiles : w.filesOf id = []) :
    (load id config w).2.paths.contains id = ((load id config w).2.files.any fun f => f.1 == id) := by
  have hnone : (w.files.any fun f => f.1 == id) = false := by
    rw [List.any_eq_false]
    intro f hf hid
    have hmem : f.2 ∈ w.filesOf id := List.mem_map.2 ⟨f, List.mem_filter.2 ⟨hf, hid⟩, rfl⟩
    rw [hfiles] at hmem
    cases hmem
  rcases load_cases id config w with ⟨_, e, _, _, hload⟩ | ⟨u, r, hu, _, hload⟩
  · rw [hload, hpaths, hnone]
  · rw [hload]
    show u.paths.contains id = u.files.any fun f => f.1 == id
    unfold Prepares at hu
    split at hu
    · rw [hu, hpaths, hnone]
    · obtain ⟨bytes, _, rfl⟩ := hu
      simp [World.learnPath, World.keepFile]

end Loading

/-! ## Construction -/

omit [Time τ] in
theorem isClosed_begun (config : Config) (w : World τ) : (Connection.mk w.nextId config).isClosed w.begun = true := by
  refine List.all_eq_true.2 fun g _ => ?_
  rw [Bool.not_eq_true', Bool.eq_false_iff]
  intro hcontains
  have hmem := List.mem_filter.1 (List.contains_iff_mem.1 hcontains)
  exact absurd hmem.2 (by simp)

theorem connect_eq (config : Config) (w : World τ) :
    let c : Connection := ⟨w.nextId, config⟩
    connect config w = match load w.nextId config w.begun with
      | (.ok loaded, v) => (.ok c, (c.addApis groups v).record
          (.log .info ("Connected to cluster " ++ config.name ++ " at " ++ hostText loaded)))
      | (.error e, v) =>
          if e.isInterrupt then (.error e, v)
          else (.error (.connecting ("Failed to initialize cluster connection: " ++ e.message) (some e)),
            c.withoutFile v) := by
  intro c
  have hblank : (blank config w : Except (Failure τ) Connection × World τ) = (.ok c, w.begun) := rfl
  have hload := loads_load (τ := τ) w.nextId config w.begun
  simp only [connect, bind_run, hblank, Op.orElse, Op.onFailure, setUp_run]
  rcases hr : load w.nextId config w.begun with ⟨e | loaded, v⟩
  · rw [hr] at hload
    have hclosed : c.isClosed v = true := (isClosed_congr hload.apis c).trans (isClosed_begun config w)
    have hclose : c.close v = (.ok (), c.withoutFile v) := by
      rw [close_eq, has_of_isClosed hclosed, if_neg Bool.false_ne_true, shed_of_isClosed hclosed]
    cases he : e.isInterrupt <;> simp [he, bind_run, hclose]
  · rfl

end Connection

end ClusterControl
