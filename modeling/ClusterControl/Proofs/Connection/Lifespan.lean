import ClusterControl.Proofs.Connection.Construction
import ClusterControl.Time.Rational
import Mathlib.Data.List.Induction

/-!
# From opening to closing

A connection gives access to all groups or to none. It does so from its construction until the first close
that succeeds, and for that long its file of credentials exists. A construction that fails leaves nothing.

A close lets go of the APIs and of the file one by one, and so does a construction take hold of them. That no
use finds some of them gone and some not is the invariant `Tended`, which each use keeps.
-/

namespace ClusterControl

open Op

variable {τ : Type}

/-! ## What connections hold -/

namespace World

/-- The connections hold the same in both worlds. -/
structure Holding (w v : World τ) : Prop where
  apis : v.apis = w.apis
  paths : v.paths = w.paths
  files : v.files = w.files
  nextId : v.nextId = w.nextId

variable {w v : World τ}

theorem Holding.refl (w : World τ) : w.Holding w := ⟨rfl, rfl, rfl, rfl⟩

theorem Holding.filesOf_eq (h : w.Holding v) (id : Nat) : v.filesOf id = w.filesOf id := by
  rw [filesOf, h.files, filesOf]

theorem holding_exchange [Time τ] (w : World τ) (r : Request) : w.Holding (w.exchange r).2 := ⟨rfl, rfl, rfl, rfl⟩

/-- The connections hold nothing more than before. -/
structure Shrinks (w v : World τ) : Prop where
  apis : v.apis ⊆ w.apis
  paths : v.paths ⊆ w.paths
  files : v.files ⊆ w.files
  nextId : v.nextId = w.nextId

theorem Holding.shrinks (h : w.Holding v) : w.Shrinks v :=
  ⟨h.apis ▸ List.Subset.refl _, h.paths ▸ List.Subset.refl _, h.files ▸ List.Subset.refl _, h.nextId⟩

theorem Shrinks.trans {u : World τ} (h : w.Shrinks v) (h' : v.Shrinks u) : w.Shrinks u :=
  ⟨List.Subset.trans h'.apis h.apis, List.Subset.trans h'.paths h.paths, List.Subset.trans h'.files h.files,
    h'.nextId.trans h.nextId⟩

theorem Shrinks.numbered (h : w.Shrinks v) (hw : w.Numbered) : v.Numbered := by
  refine ⟨fun a ha => ?_, fun id hid => ?_, fun f hf => ?_⟩
  · rw [h.nextId]
    exact hw.apis a (h.apis ha)
  · rw [h.nextId]
    exact hw.paths id (h.paths hid)
  · rw [h.nextId]
    exact hw.files f (h.files hf)

theorem shrinks_dropApi (w : World τ) (id : Nat) (g : Group) : w.Shrinks (w.dropApi id g) :=
  ⟨List.filter_sublist.subset, List.Subset.refl _, List.Subset.refl _, rfl⟩

end World

namespace Connection

theorem shrinks_dropApis (c : Connection) (gs : List Group) (w : World τ) : w.Shrinks (c.dropApis gs w) := by
  induction gs generalizing w with
  | nil => exact (World.Holding.refl w).shrinks
  | cons g gs ih => exact (w.shrinks_dropApi c.id g).trans (ih _)

theorem shrinks_shed (c : Connection) (w : World τ) : w.Shrinks (c.shed w) := by
  have hfile : w.Shrinks (c.withoutFile w) := by
    unfold withoutFile
    split
    · exact ⟨List.Subset.refl _, List.filter_sublist.subset, List.filter_sublist.subset, rfl⟩
    · exact (World.Holding.refl w).shrinks
  exact hfile.trans (c.shrinks_dropApis requestGroups _)

/-! ## All groups or none -/

def Available (c : Connection) (w : World τ) : Prop := ∀ g ∈ groups, c.access g.label w = (.ok g, w)

variable [Time τ]

/-- No group is accessible, and the version cannot be asked for. -/
structure Unavailable (c : Connection) (w : World τ) : Prop where
  access : ∀ g ∈ groups, c.access g.label w = (.error closed, w)
  version : c.version w = (.error closed, w)

omit [Time τ] in
theorem access_run (c : Connection) {g : Group} (hg : g ∈ groups) (w : World τ) :
    c.access g.label w = if c.has g w then (.ok g, w) else (.error closed, w) := by
  have hfind : (groups.find? fun h => h.label == g.label) = some g := by
    revert g
    decide
  rw [access, hfind]
  cases hw : c.has g w with
  | true => simp [bind_run, require, hw]
  | false => simp [bind_run, require, hw, closed]

omit [Time τ] in
theorem available_iff (c : Connection) (w : World τ) : c.Available w ↔ c.isOpen w = true := by
  refine ⟨fun h => List.all_eq_true.2 fun g hg => ?_,
    fun h g hg => by rw [access_run c hg, has_of_isOpen h, if_pos rfl]⟩
  have haccess := h g hg
  rw [access_run c hg] at haccess
  split at haccess
  · assumption
  · cases haccess

theorem unavailable_iff (c : Connection) (w : World τ) : c.Unavailable w ↔ c.isClosed w = true := by
  refine ⟨fun h => List.all_eq_true.2 fun g hg => ?_,
    fun h => ⟨fun g hg => by rw [access_run c hg, has_of_isClosed h, if_neg Bool.false_ne_true],
      c.refused_version w (has_of_isClosed h _)⟩⟩
  have haccess := h.access g hg
  rw [access_run c hg] at haccess
  split at haccess
  · cases haccess
  · exact Bool.not_eq_true' _ ▸ Bool.eq_false_iff.2 ‹_›

omit [Time τ] in
theorem isOpen_of_isClosed {c : Connection} {w : World τ} (h : c.isClosed w = true) : c.isOpen w = false := by
  refine Bool.eq_false_iff.2 fun hopen => ?_
  have hhas := has_of_isOpen hopen .transport
  rw [has_of_isClosed h] at hhas
  cases hhas

/-! ## The file -/

/-- The file with the credentials given as text exists exactly as long as the connection is open. -/
def KeepsFile (c : Connection) (w : World τ) : Prop :=
  match c.config.ownCredentials? with
  | none => w.filesOf c.id = []
  | some text => ∃ bytes, Text.Base64.decode text = .ok bytes ∧
      w.filesOf c.id = if c.isOpen w then [bytes] else []

/-- The path of the file is known just if the file exists. -/
def KnowsFile (c : Connection) (w : World τ) : Prop :=
  w.paths.contains c.id = w.files.any fun f => f.1 == c.id

/-- All that holds of a connection while it is used. -/
structure Tended (c : Connection) (w : World τ) : Prop where
  numbered : w.Numbered
  id_lt : c.id < w.nextId
  whole : c.isOpen w = true ∨ c.isClosed w = true
  knows : c.KnowsFile w
  file : c.KeepsFile w

section

variable {c : Connection} {w v : World τ}

omit [Time τ] in
theorem KeepsFile.of_closed (h : c.KeepsFile w) (hv : c.isClosed v = true) (hfiles : v.filesOf c.id = []) :
    c.KeepsFile v := by
  unfold KeepsFile at h ⊢
  rw [isOpen_of_isClosed hv]
  split
  · exact hfiles
  · rename_i text hown
    rw [hown] at h
    obtain ⟨bytes, hd, _⟩ := h
    exact ⟨bytes, hd, hfiles⟩

omit [Time τ] in
theorem Tended.of_holding (h : c.Tended w) (hv : w.Holding v) : c.Tended v := by
  refine ⟨hv.shrinks.numbered h.numbered, hv.nextId ▸ h.id_lt, ?_, ?_, ?_⟩
  · rw [isOpen_congr hv.apis, isClosed_congr hv.apis]
    exact h.whole
  · rw [KnowsFile, hv.paths, hv.files]
    exact h.knows
  · have hfile := h.file
    unfold KeepsFile at hfile ⊢
    rwa [hv.filesOf_eq, isOpen_congr hv.apis]

omit [Time τ] in
theorem filesOf_eq_nil_iff (id : Nat) (w : World τ) :
    w.filesOf id = [] ↔ (w.files.any fun f => f.1 == id) = false := by
  rw [World.filesOf, List.map_eq_nil_iff, List.filter_eq_nil_iff, List.any_eq_false]

omit [Time τ] in
/-- A file whose path is known goes together with its path. -/
theorem filesOf_withoutFile (h : c.KnowsFile w) :
    (c.withoutFile w).filesOf c.id = [] ∧ c.KnowsFile (c.withoutFile w) := by
  unfold withoutFile
  cases hfile : c.hasFile w with
  | true =>
      have hnone : ((w.dropFile c.id).forgetPath c.id).filesOf c.id = [] := w.filesOf_dropFile c.id
      refine ⟨hnone, ?_⟩
      rw [if_pos rfl, KnowsFile, (filesOf_eq_nil_iff _ _).1 hnone]
      simp [World.forgetPath, World.dropFile]
  | false =>
      rw [hasFile, h, Bool.and_self] at hfile
      exact ⟨(filesOf_eq_nil_iff _ _).2 hfile, h⟩

omit [Time τ] in
theorem filesOf_shed (h : c.KnowsFile w) : (c.shed w).filesOf c.id = [] ∧ c.KnowsFile (c.shed w) := by
  have hfiles : (c.shed w).files = (c.withoutFile w).files := shed_keeps (·.files) (fun _ _ _ => rfl) c w
  have hpaths : (c.shed w).paths = (c.withoutFile w).paths := shed_keeps (·.paths) (fun _ _ _ => rfl) c w
  rw [World.filesOf, KnowsFile, hfiles, hpaths]
  exact filesOf_withoutFile h

omit [Time τ] in
/-- A close that gets past the transport leaves the connection closed and without its file. -/
theorem Tended.shed (h : c.Tended w) : c.Tended (c.shed (w.dropApi c.id .transport)) := by
  have hclosed : c.isClosed (c.shed (w.dropApi c.id .transport)) = true :=
    isClosed_shed (by rw [has_dropApi]; exact Bool.and_false _)
  have hshrinks := (w.shrinks_dropApi c.id .transport).trans (c.shrinks_shed _)
  obtain ⟨hfiles, hknows⟩ := filesOf_shed (w := w.dropApi c.id .transport) h.knows
  exact ⟨hshrinks.numbered h.numbered, hshrinks.nextId ▸ h.id_lt, .inr hclosed, hknows,
    h.file.of_closed hclosed hfiles⟩

omit [Time τ] in
theorem Tended.filesOf_of_closed (h : c.Tended w) (hw : c.isClosed w = true) : w.filesOf c.id = [] := by
  have hfile := h.file
  unfold KeepsFile at hfile
  rw [isOpen_of_isClosed hw] at hfile
  split at hfile
  · exact hfile
  · obtain ⟨_, _, hfiles⟩ := hfile
    exact hfiles

omit [Time τ] in
/-- A closed connection has nothing left to let go of. -/
theorem Tended.shed_of_closed (h : c.Tended w) (hw : c.isClosed w = true) : c.shed w = w := by
  have hfile : c.hasFile w = false := by
    rw [hasFile, h.knows, Bool.and_self]
    exact (filesOf_eq_nil_iff _ _).1 (h.filesOf_of_closed hw)
  rw [shed_of_isClosed hw, withoutFile, hfile, if_neg Bool.false_ne_true]

end

/-! ## Uses of a connection -/

/-- What can be done with a connection. A scope that is left closes it, whatever came to pass in it. -/
inductive Use where
  | access (label : String)
  | version
  | close
  deriving DecidableEq

def use (c : Connection) : Use → Op τ Unit
  | .access label => do
    let _ ← c.access label
  | .version => do
    let _ ← c.version
  | .close => c.close

/-- The world after some uses, one after the other. A use that fails does not keep the next from being made. -/
def after (c : Connection) (us : List Use) (w : World τ) : World τ :=
  us.foldl (fun w u => (c.use u w).2) w

theorem after_concat (c : Connection) (us : List Use) (u : Use) (w : World τ) :
    c.after (us ++ [u]) w = (c.use u (c.after us w)).2 := by
  simp [after]

/-! ## What one use does -/

omit [Time τ] in
theorem forget_world {α : Type} (x : Op τ α) (w : World τ) :
    ((do let _ ← x : Op τ Unit) w).2 = (x w).2 := by
  rw [bind_run]
  rcases x w with ⟨e | a, v⟩ <;> rfl

omit [Time τ] in
theorem access_world (c : Connection) (label : String) (w : World τ) : (c.access label w).2 = w := by
  rw [access]
  cases groups.find? fun g => g.label == label with
  | none => rfl
  | some g =>
      cases hg : c.has g w <;> simp [bind_run, require, hg]

theorem version_world (c : Connection) (w : World τ) :
    (c.version w).2 = if c.has .transport w then (w.exchange ⟨⟨.version, "get_code"⟩, []⟩).2 else w := by
  have hserves : c.serves ⟨⟨.version, "get_code"⟩, []⟩ w = c.has .transport w := rfl
  rw [version, bind_run, send_run, hserves]
  cases c.has .transport w with
  | false => rfl
  | true =>
      rw [if_pos rfl, if_pos rfl]
      rcases w.exchange ⟨⟨.version, "get_code"⟩, []⟩ with ⟨e | a, v⟩ <;> rfl

variable {c : Connection} {w : World τ}

/-- A use lets go of a connection only by closing it. -/
theorem Tended.use_cases (h : c.Tended w) (u : Use) :
    (w.Holding (c.use u w).2 ∧ (u = .close → c.isOpen w = true → (c.use u w).1.isOk = false)) ∨
      (u = .close ∧ c.isOpen w = true ∧ (c.use u w).1 = .ok () ∧ c.isClosed (c.use u w).2 = true ∧
        c.Tended (c.use u w).2) := by
  cases u with
  | access label =>
      refine .inl ⟨?_, fun h => by cases h⟩
      rw [use, forget_world, access_world]
      exact .refl w
  | version =>
      refine .inl ⟨?_, fun h => by cases h⟩
      rw [use, forget_world, version_world]
      split
      · exact w.holding_exchange _
      · exact .refl w
  | close =>
      rw [use, close_eq]
      rcases h.whole with hw | hw
      · rw [has_of_isOpen hw, if_pos rfl]
        have hheld := w.holding_exchange ⟨closing, []⟩
        rcases hr : w.exchange ⟨closing, []⟩ with ⟨e | a, v⟩
        · rw [hr] at hheld
          exact .inl ⟨hheld, fun _ _ => rfl⟩
        · rw [hr] at hheld
          have hshed := (h.of_holding hheld).shed
          exact .inr ⟨rfl, hw, rfl, isClosed_shed (by rw [has_dropApi]; exact Bool.and_false _), hshed⟩
      · rw [has_of_isClosed hw, if_neg Bool.false_ne_true, h.shed_of_closed hw]
        refine .inl ⟨.refl w, fun _ hopen => ?_⟩
        rw [isOpen_of_isClosed hw] at hopen
        cases hopen

theorem Tended.isOpen_of_failed_close (h : c.Tended w) (hfails : (c.use .close w).1.isOk = false) :
    c.isOpen w = true := by
  refine h.whole.resolve_right fun hw => ?_
  rw [use, close_eq, has_of_isClosed hw, if_neg Bool.false_ne_true] at hfails
  cases hfails

omit [Time τ] in
theorem requests_shed (c : Connection) (w : World τ) : (c.shed w).requests = w.requests := by
  rw [shed_keeps World.requests (fun _ _ _ => rfl) c w]
  exact (c.resting_withoutFile w).requests

theorem Tended.closings_use (h : c.Tended w) (u : Use) :
    (c.use u w).2.closings = w.closings + if u = .close ∧ c.isOpen w = true then 1 else 0 := by
  cases u with
  | access label =>
      rw [use, forget_world, access_world]
      simp
  | version =>
      rw [use, forget_world, version_world]
      split
      · simp [World.closings_exchange, closing]
      · simp
  | close =>
      rw [use, close_eq]
      rcases h.whole with hw | hw
      · have hclosings := w.closings_exchange ⟨closing, []⟩
        rw [has_of_isOpen hw, if_pos rfl]
        rcases hr : w.exchange ⟨closing, []⟩ with ⟨e | a, v⟩
        · rw [hr] at hclosings
          simpa [hw] using hclosings
        · rw [hr] at hclosings
          have hshed : (c.shed (v.dropApi c.id .transport)).closings = v.closings :=
            congrArg (List.countP _) (c.requests_shed _)
          simpa [hw, hshed] using hclosings
      · rw [has_of_isClosed hw, if_neg Bool.false_ne_true, h.shed_of_closed hw, isOpen_of_isClosed hw]
        simp

theorem Tended.use (h : c.Tended w) (u : Use) : c.Tended (c.use u w).2 := by
  rcases h.use_cases u with ⟨hv, _⟩ | ⟨_, _, _, _, hv⟩
  · exact h.of_holding hv
  · exact hv

/-! ## Construction -/

/-- A construction that fails leaves the connections alone, asks nothing of the transport, and leaves no file
unless it was broken off. -/
structure FailsToOpen (config : Config) (w : World τ) (e : Failure τ) (v : World τ) : Prop where
  apis : v.apis = w.apis
  closings : v.closings = w.closings
  unloaded : ∃ cause xs, v.exchanges = w.exchanges ++ xs ∧ Unloaded config cause xs ∧
    if cause.isInterrupt then e = cause
    else v.files = w.files ∧ v.paths = w.paths ∧
      e = .connecting ("Failed to initialize cluster connection: " ++ cause.message) (some cause)

section Construction

variable {config : Config} {v : World τ} {id : Nat}

omit [Time τ] in
theorem Prepares.filesOf (h : Prepares config id w v) (hw : w.filesOf id = []) :
    match config.ownCredentials? with
    | none => v.filesOf id = []
    | some text => ∃ bytes, Text.Base64.decode text = .ok bytes ∧ v.filesOf id = [bytes] := by
  unfold Prepares at h
  cases hown : config.ownCredentials? with
  | none =>
    rw [hown] at h
    have hv : v = w := h
    rw [hv, hw]
  | some text =>
    rw [hown] at h
    obtain ⟨bytes, hd, rfl⟩ := h
    refine ⟨bytes, hd, ?_⟩
    have hown : ((w.keepFile id bytes).learnPath id).filesOf id = bytes :: w.filesOf id := by
      simp [World.filesOf, World.keepFile, World.learnPath]
    rw [hown, hw]

theorem filesOf_load {loaded : Value} (h : load id config w = (.ok loaded, v)) (hw : w.filesOf id = []) :
    match config.ownCredentials? with
    | none => v.filesOf id = []
    | some text => ∃ bytes, Text.Base64.decode text = .ok bytes ∧ v.filesOf id = [bytes] := by
  rcases load_cases id config w with ⟨text, e, _, _, hload⟩ | ⟨u, r, hu, _, hload⟩
  · rw [hload] at h
    cases h
  · have hfiles := hu.filesOf hw
    have hheld := u.holding_exchange r
    rw [← hload, h] at hheld
    simpa only [hheld.filesOf_eq] using hfiles

omit [Time τ] in
/-- Once the file is removed, nothing is known under the number of the connection. -/
theorem withoutFile_eq {c : Connection} (h : c.KnowsFile w) :
    (c.withoutFile w).files = w.files.filter (fun f => f.1 != c.id) ∧
      (c.withoutFile w).paths = w.paths.filter (· != c.id) := by
  unfold withoutFile
  cases hfile : c.hasFile w with
  | true => exact ⟨rfl, rfl⟩
  | false =>
      rw [if_neg Bool.false_ne_true]
      rw [hasFile, h, Bool.and_self] at hfile
      have hpaths : w.paths.contains c.id = false := h.trans hfile
      refine ⟨(List.filter_eq_self.2 fun f hf => ?_).symm, (List.filter_eq_self.2 fun id hid => ?_).symm⟩
      · exact Bool.not_eq_true' _ ▸ Bool.eq_false_iff.2 (List.any_eq_false.1 hfile f hf)
      · refine bne_iff_ne.2 fun heq => ?_
        rw [← heq, List.contains_iff_mem.2 hid] at hpaths
        cases hpaths

theorem knowsFile_load (hw : w.Numbered) (config : Config) :
    (Connection.mk w.nextId config).KnowsFile (load w.nextId config w.begun).2 := by
  rw [hw.begun_eq]
  refine load_knows_file ?_ hw.filesOf_nextId
  rw [Bool.eq_false_iff]
  exact fun hcontains => Nat.lt_irrefl _ (hw.paths _ (List.contains_iff_mem.1 hcontains))

theorem connect_fails {e : Failure τ} (hw : w.Numbered) (h : connect config w = (.error e, v)) :
    FailsToOpen config w e v := by
  have hload := loads_load w.nextId config w.begun
  have hknows := knowsFile_load hw config
  rw [connect_eq] at h
  rcases hr : load w.nextId config w.begun with ⟨cause | loaded, u⟩
  · obtain ⟨xs, hxs, hun⟩ := unloaded_of_load hr
    rw [hr] at h hload hknows
    rw [hw.begun_eq] at hload hxs
    simp only at h
    cases hi : cause.isInterrupt with
    | true =>
        rw [hi, if_pos rfl] at h
        cases h
        exact ⟨hload.apis, hload.closings, _, xs, hxs, hun, by rw [hi, if_pos rfl]⟩
    | false =>
        rw [hi, if_neg Bool.false_ne_true] at h
        obtain ⟨hfiles, hpaths⟩ := withoutFile_eq hknows
        have hresting := (Connection.mk w.nextId config).resting_withoutFile u
        cases h
        refine ⟨hresting.apis.trans hload.apis, hresting.closings.trans hload.closings, _, xs,
          hresting.exchanges.trans hxs, hun, ?_⟩
        rw [hi, if_neg Bool.false_ne_true]
        exact ⟨hfiles.trans (hload.files.trans hw.filter_files), hpaths.trans (hload.paths.trans hw.filter_paths), rfl⟩
  · rw [hr] at h
    cases h

omit [Time τ] in
/-- What was loaded is tended once it holds the APIs. -/
theorem tended_addApis {u : World τ} (hw : w.Numbered) (hload : Loads w.nextId { w with nextId := w.nextId + 1 } u)
    (hknows : (Connection.mk w.nextId config).KnowsFile u)
    (hfile : match config.ownCredentials? with
      | none => u.filesOf w.nextId = []
      | some text => ∃ bytes, Text.Base64.decode text = .ok bytes ∧ u.filesOf w.nextId = [bytes]) :
    (Connection.mk w.nextId config).Tended (addApis ⟨w.nextId, config⟩ groups u) := by
  let c : Connection := ⟨w.nextId, config⟩
  have hopen : c.isOpen (c.addApis groups u) = true := isOpen_addApis _ u
  have hnext : (c.addApis groups u).nextId = w.nextId + 1 :=
    (addApis_keeps (·.nextId) (fun _ _ _ => rfl) c groups u).trans hload.nextId
  have hpaths : (c.addApis groups u).paths = u.paths := addApis_keeps (·.paths) (fun _ _ _ => rfl) c groups u
  have hfiles : (c.addApis groups u).files = u.files := addApis_keeps (·.files) (fun _ _ _ => rfl) c groups u
  have hlt {id : Nat} (hid : id = w.nextId ∨ id < w.nextId) : id < (c.addApis groups u).nextId := by
    rw [hnext]
    exact hid.elim (fun h => h ▸ Nat.lt_succ_self _) Nat.lt_succ_of_lt
  refine ⟨⟨fun a ha => hlt ?_, fun id hid => hlt ?_, fun f hf => hlt ?_⟩, hlt (.inl rfl), .inl hopen, ?_, ?_⟩
  · exact (mem_apis_addApis ha).imp_right fun ha => hw.apis a (hload.apis ▸ ha)
  · by_cases hid' : id = w.nextId
    · exact .inl hid'
    · have hmem : id ∈ u.paths.filter (· != w.nextId) := List.mem_filter.2 ⟨hpaths ▸ hid, bne_iff_ne.2 hid'⟩
      rw [hload.paths] at hmem
      exact .inr (hw.paths id (List.mem_filter.1 hmem).1)
  · by_cases hid' : f.1 = w.nextId
    · exact .inl hid'
    · have hmem : f ∈ u.files.filter fun f => f.1 != w.nextId :=
        List.mem_filter.2 ⟨hfiles ▸ hf, bne_iff_ne.2 hid'⟩
      rw [hload.files] at hmem
      exact .inr (hw.files f (List.mem_filter.1 hmem).1)
  · rw [KnowsFile, hpaths, hfiles]
    exact hknows
  · unfold KeepsFile
    rw [World.filesOf, hfiles]
    cases hown : config.ownCredentials? with
    | none =>
        rw [hown] at hfile
        exact hfile
    | some text =>
        rw [hown] at hfile
        obtain ⟨bytes, hd, hfiles⟩ := hfile
        exact ⟨bytes, hd, hfiles.trans (if_pos hopen).symm⟩

theorem connect_succeeds {c : Connection} (hw : w.Numbered) (h : connect config w = (.ok c, v)) :
    c.config = config ∧ c.Tended v ∧ c.isOpen v = true := by
  have hload := loads_load w.nextId config w.begun
  have hknows := knowsFile_load hw config
  rw [connect_eq] at h
  rcases hr : load w.nextId config w.begun with ⟨cause | loaded, u⟩
  · rw [hr] at h
    simp only at h
    split at h <;> cases h
  · have hfile := filesOf_load hr (hw.begun_eq ▸ hw.filesOf_nextId)
    rw [hr] at h hload hknows
    rw [hw.begun_eq] at hload
    have htended := tended_addApis hw hload hknows hfile
    have hopen := isOpen_addApis ⟨w.nextId, config⟩ u
    cases h
    exact ⟨rfl, htended.of_holding ⟨rfl, rfl, rfl, rfl⟩, hopen⟩

end Construction

/-! ## All uses of a connection -/

section Uses

theorem Tended.after (h : c.Tended w) (us : List Use) : c.Tended (c.after us w) := by
  induction us generalizing w with
  | nil => exact h
  | cons u us ih => exact ih (h.use u)

theorem Tended.isOpen_after_iff (h : c.Tended w) (hw : c.isOpen w = true) (us : List Use) :
    c.isOpen (c.after us w) = true ↔
      ∀ front back, us = front ++ .close :: back → (c.use .close (c.after front w)).1.isOk = false := by
  -- The last use decides: it keeps the connection open, or it is the first close that succeeds.
  induction us using List.reverseRecOn with
  | nil =>
      refine ⟨fun _ front back h => ?_, fun _ => hw⟩
      cases front <;> cases h
  | append_singleton us u ih =>
      rw [after_concat]
      have hstep := (h.after us).use_cases u
      constructor
      · intro hopen front back hsplit
        rcases hstep with ⟨hv, hfails⟩ | ⟨_, _, _, hclosed, _⟩
        · rw [isOpen_congr hv.apis] at hopen
          rcases append_eq_split hsplit with ⟨rest, rfl⟩ | ⟨more, rfl, hu⟩
          · exact ih.1 hopen front rest rfl
          · cases more with
            | nil =>
                obtain ⟨rfl, _⟩ := List.cons.inj hu
                rw [List.append_nil]
                exact hfails rfl hopen
            | cons _ more =>
                have hlast := (List.cons.inj hu).2
                cases more <;> cases hlast
        · rw [isOpen_of_isClosed hclosed] at hopen
          cases hopen
      · intro hall
        have hopen : c.isOpen (c.after us w) = true := ih.2 fun front back hsplit =>
          hall front (back ++ [u]) (by rw [hsplit]; simp)
        rcases hstep with ⟨hv, _⟩ | ⟨rfl, _, hok, _, _⟩
        · rw [isOpen_congr hv.apis, hopen]
        · have hfails := hall us [] rfl
          rw [hok] at hfails
          cases hfails

end Uses

/-- What holds of a connection at every point, here after the uses `us` that were made of it since the world
`w` in which it had been set up. -/
structure Lifespan (c : Connection) (w : World τ) (us : List Use) : Prop where
  /-- No number will be given out that the connection or its file bears. -/
  numbered : (c.after us w).Numbered
  all_or_none : c.Available (c.after us w) ∨ c.Unavailable (c.after us w)
  /-- The groups are available until a close succeeds, and never again. -/
  available_iff : c.Available (c.after us w) ↔
    ∀ front back, us = front ++ .close :: back → (c.use .close (c.after front w)).1.isOk = false
  file : c.KeepsFile (c.after us w)
  path : c.KnowsFile (c.after us w)
  /-- A close that fails leaves the connection as it was. -/
  failed_close : (c.use .close (c.after us w)).1.isOk = false →
    (c.after us w).Holding (c.after (us ++ [.close]) w) ∧ c.Available (c.after (us ++ [.close]) w)
  closings : ∀ u, (c.after (us ++ [u]) w).closings =
    (c.after us w).closings + if u = .close ∧ c.isOpen (c.after us w) = true then 1 else 0

/-- A construction leaves nothing if it fails, and otherwise a connection that gives access to all groups
until it is closed, and to none from then on. -/
theorem lives_until_closed (config : Config) {w : World τ} (hw : w.Numbered) :
    (∀ e v, connect config w = (.error e, v) → FailsToOpen config w e v) ∧
      ∀ c v, connect config w = (.ok c, v) → c.config = config ∧ ∀ us, c.Lifespan v us := by
  refine ⟨fun e v h => connect_fails hw h, fun c v h => ?_⟩
  obtain ⟨hconfig, htended, hopen⟩ := connect_succeeds hw h
  refine ⟨hconfig, fun us => ?_⟩
  have hafter := htended.after us
  have hiff := htended.isOpen_after_iff hopen us
  rw [← available_iff] at hiff
  refine ⟨hafter.numbered, ?_, hiff, hafter.file, hafter.knows, fun hfails => ?_, fun u => ?_⟩
  · rw [available_iff, unavailable_iff]
    exact hafter.whole
  · rw [after_concat, available_iff]
    have hwas := hafter.isOpen_of_failed_close hfails
    rcases hafter.use_cases .close with ⟨hv, _⟩ | ⟨_, _, hok, _, _⟩
    · exact ⟨hv, (isOpen_congr hv.apis c).trans hwas⟩
    · rw [hok] at hfails
      cases hfails
  · rw [after_concat]
    exact hafter.closings_use u

/-- A transport that can be closed only at the second attempt. -/
def reluctant : World Rat :=
  World.initial [(closing, [⟨.error (.rejected ⟨.int 500, "Internal Error", .null⟩), 0⟩, ⟨.ok .null, 0⟩])] []

theorem lives_until_closed_of_reluctant :
    ∃ c v, connect { kubeconfigData := some "YQ==" } reluctant = (.ok c, v) ∧ c.Lifespan v [.close, .close] ∧
      c.Available (c.after [.close] v) ∧ c.Unavailable (c.after [.close, .close] v) := by
  have hmade : (connect { kubeconfigData := some "YQ==" } reluctant).1.isOk = true := by decide +kernel
  have hopen : (match connect { kubeconfigData := some "YQ==" } reluctant with
    | (.ok c, v) => c.isOpen (c.after [.close] v) && c.isClosed (c.after [.close, .close] v)
    | _ => false) = true := by decide +kernel
  rcases hr : connect { kubeconfigData := some "YQ==" } reluctant with ⟨e | c, v⟩
  · rw [hr] at hmade
    cases hmade
  · rw [hr] at hopen
    obtain ⟨hfirst, hsecond⟩ := Bool.and_eq_true_iff.1 hopen
    have hnumbered : reluctant.Numbered := World.numbered_initial _ _
    have hall := lives_until_closed { kubeconfigData := some "YQ==" } hnumbered
    exact ⟨c, v, rfl, (hall.2 c v hr).2 _, (available_iff c _).2 hfirst,
      (unavailable_iff c _).2 hsecond⟩

end Connection

end ClusterControl
