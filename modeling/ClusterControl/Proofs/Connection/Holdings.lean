import ClusterControl.Proofs.Op.Orderly

/-!
# What a connection holds

A connection is given its APIs one after the other, and lets go of them and of its file in the same way. What is
left after such a row of steps follows from what each step does.
-/

namespace ClusterControl

open Op

variable {τ : Type}

namespace World

variable {w v u : World τ}

/-- Nothing was asked, no time has passed, and no connection holds another API than before. -/
structure Resting (w v : World τ) : Prop where
  exchanges : v.exchanges = w.exchanges
  now : v.now = w.now
  apis : v.apis = w.apis

theorem Resting.refl (w : World τ) : w.Resting w := ⟨rfl, rfl, rfl⟩

theorem Resting.trans (h : w.Resting v) (h' : v.Resting u) : w.Resting u :=
  ⟨h'.exchanges.trans h.exchanges, h'.now.trans h.now, h'.apis.trans h.apis⟩

theorem Resting.requests (h : w.Resting v) : v.requests = w.requests :=
  congrArg (List.map Exchange.request) h.exchanges

theorem Resting.closings (h : w.Resting v) : v.closings = w.closings := congrArg (List.countP _) h.requests

end World

namespace Connection

/-! ## Taking hold of the APIs -/

theorem has_addApi (c : Connection) (g h : Group) (w : World τ) :
    c.has g (w.addApi c.id h) = (g.slot == h || c.has g w) := by
  rw [Bool.eq_iff_iff]
  simp [has, World.addApi]

/-- The world with some APIs for the connection, added one after the other. -/
def addApis (c : Connection) (gs : List Group) (w : World τ) : World τ := gs.foldl (·.addApi c.id ·) w

theorem has_addApis (c : Connection) (g : Group) (gs : List Group) (w : World τ) :
    c.has g (c.addApis gs w) = (gs.contains g.slot || c.has g w) := by
  induction gs generalizing w with
  | nil => simp [addApis]
  | cons h gs ih =>
      have hrest : c.has g (c.addApis gs (w.addApi c.id h)) = _ := ih (w.addApi c.id h)
      show c.has g (c.addApis gs (w.addApi c.id h)) = _
      rw [hrest, has_addApi, List.contains_cons, Bool.or_left_comm, Bool.or_assoc]

theorem forM_acquire (c : Connection) (gs : List Group) (w : World τ) :
    (gs.forM c.acquire) w = (.ok (), c.addApis gs w) := by
  induction gs generalizing w with
  | nil => rfl
  | cons g gs ih => exact ih (w.addApi c.id g)

theorem isOpen_addApis (c : Connection) (w : World τ) : c.isOpen (c.addApis groups w) = true := by
  refine List.all_eq_true.2 fun g hg => ?_
  have hcontains : groups.contains g.slot = true := List.contains_iff_mem.2 (slot_mem_groups g)
  rw [has_addApis, hcontains, Bool.true_or]

/-- What does not look at the APIs does not see that some are added. -/
theorem addApis_keeps {β : Type} (f : World τ → β) (hf : ∀ w id g, f (w.addApi id g) = f w) (c : Connection)
    (gs : List Group) (w : World τ) : f (c.addApis gs w) = f w := by
  induction gs generalizing w with
  | nil => rfl
  | cons g gs ih => exact (ih (w.addApi c.id g)).trans (hf w c.id g)

theorem mem_apis_addApis {c : Connection} {gs : List Group} {w : World τ} {a : Nat × Group}
    (h : a ∈ (c.addApis gs w).apis) : a.1 = c.id ∨ a ∈ w.apis := by
  induction gs generalizing w with
  | nil => exact .inr h
  | cons g gs ih =>
      rcases ih h with ha | ha
      · exact .inl ha
      · exact (List.mem_cons.1 ha).imp_left (congrArg Prod.fst)

/-! ## Letting go of the APIs -/

theorem has_dropApi (c : Connection) (g h : Group) (w : World τ) :
    c.has g (w.dropApi c.id h) = (c.has g w && g.slot != h) := by
  rw [Bool.eq_iff_iff]
  simp [has, World.dropApi]

/-- The world without some APIs of the connection, dropped one after the other. -/
def dropApis (c : Connection) (gs : List Group) (w : World τ) : World τ := gs.foldl (·.dropApi c.id ·) w

theorem has_dropApis (c : Connection) (g : Group) (gs : List Group) (w : World τ) :
    c.has g (c.dropApis gs w) = (c.has g w && !gs.contains g.slot) := by
  induction gs generalizing w with
  | nil => simp [dropApis]
  | cons h gs ih =>
      have hrest : c.has g (c.dropApis gs (w.dropApi c.id h)) = _ := ih (w.dropApi c.id h)
      rw [has_dropApi] at hrest
      show c.has g (c.dropApis gs (w.dropApi c.id h)) = _
      rw [hrest, List.contains_cons, Bool.not_or, Bool.and_assoc]
      rfl

theorem forM_release (c : Connection) (gs : List Group) (w : World τ) :
    (gs.forM c.release) w = (.ok (), c.dropApis gs w) := by
  induction gs generalizing w with
  | nil => rfl
  | cons g gs ih => exact ih (w.dropApi c.id g)

/-! ## Closing -/

/-- The world without the temporary file, if the connection knows of one. -/
def withoutFile (c : Connection) (w : World τ) : World τ :=
  if c.hasFile w then (w.dropFile c.id).forgetPath c.id else w

theorem removeFile_run (c : Connection) (w : World τ) : c.removeFile w = (.ok (), c.withoutFile w) := by
  simp only [removeFile, withoutFile, bind_run, read_run]
  cases c.hasFile w <;> rfl

theorem resting_withoutFile (c : Connection) (w : World τ) : w.Resting (c.withoutFile w) := by
  unfold withoutFile
  split
  · exact ⟨rfl, rfl, rfl⟩
  · exact .refl w

/-- What a close leaves once it has let go of the transport. -/
def shed (c : Connection) (w : World τ) : World τ := c.dropApis requestGroups (c.withoutFile w)

/-- What does not look at the APIs does not see that they are dropped. -/
theorem shed_keeps {β : Type} (f : World τ → β) (hf : ∀ w id g, f (w.dropApi id g) = f w) (c : Connection)
    (w : World τ) : f (c.shed w) = f (c.withoutFile w) := by
  have hdrop (gs : List Group) (w : World τ) : f (c.dropApis gs w) = f w := by
    induction gs generalizing w with
    | nil => rfl
    | cons g gs ih => exact (ih (w.dropApi c.id g)).trans (hf w c.id g)
  exact hdrop requestGroups _

theorem has_shed (c : Connection) (g : Group) (w : World τ) :
    c.has g (c.shed w) = (c.has g w && !requestGroups.contains g.slot) := by
  rw [shed, has_dropApis, has_congr (c.resting_withoutFile w).apis]

/-- Without the transport nothing is left. -/
theorem isClosed_shed {c : Connection} {w : World τ} (h : c.has .transport w = false) :
    c.isClosed (c.shed w) = true := by
  refine List.all_eq_true.2 fun g hg => ?_
  rw [has_shed, Bool.not_eq_true', Bool.and_eq_false_iff]
  rcases List.mem_cons.1 hg with rfl | hg
  · exact .inl h
  · right
    revert g
    decide

theorem dropApi_of_not_has {c : Connection} {g : Group} {w : World τ} (hg : g.slot = g) (h : c.has g w = false) :
    w.dropApi c.id g = w := by
  have happ : w.apis.filter (· != (c.id, g)) = w.apis := by
    rw [List.filter_eq_self]
    intro p hp
    refine bne_iff_ne.2 fun heq => ?_
    rw [has, hg, ← heq, List.contains_iff_mem.2 hp] at h
    cases h
  rw [World.dropApi, happ]

/-- From a connection that holds no API there is none to drop. -/
theorem shed_of_isClosed {c : Connection} {w : World τ} (h : c.isClosed w = true) : c.shed w = c.withoutFile w := by
  have hclosed : c.isClosed (c.withoutFile w) = true := (isClosed_congr (c.resting_withoutFile w).apis c).trans h
  have hdrop (gs : List Group) (hgs : ∀ g ∈ gs, g.slot = g) :
      c.dropApis gs (c.withoutFile w) = c.withoutFile w := by
    induction gs with
    | nil => rfl
    | cons g gs ih =>
        obtain ⟨hg, hgs⟩ := List.forall_mem_cons.1 hgs
        show c.dropApis gs ((c.withoutFile w).dropApi c.id g) = _
        rw [dropApi_of_not_has hg (has_of_isClosed hclosed g)]
        exact ih hgs
  exact hdrop requestGroups (by decide)

variable [Time τ]

/-- What a close does: it stops at a transport that cannot be closed, and otherwise lets go of everything. -/
theorem close_eq (c : Connection) (w : World τ) :
    c.close w = if c.has .transport w then
      (match w.exchange ⟨closing, []⟩ with
        | (.ok _, v) => (.ok (), c.shed (v.dropApi c.id .transport))
        | (.error e, v) => (.error e, v))
      else (.ok (), c.shed w) := by
  have hrest (v : World τ) : (do c.removeFile; requestGroups.forM c.release : Op τ Unit) v = (.ok (), c.shed v) := by
    rw [bind_run, removeFile_run]
    exact c.forM_release requestGroups _
  cases hw : c.has .transport w with
  | false =>
      simp only [close, bind_run, read_run, hw]
      exact hrest w
  | true =>
      simp only [close, bind_run, read_run, hw, if_true, request]
      rw [closing]
      rcases w.exchange ⟨⟨.transport, "close"⟩, []⟩ with ⟨e | a, v⟩
      · rfl
      · exact hrest (v.dropApi c.id .transport)

/-- A close that succeeds leaves no API behind. -/
theorem isClosed_close {c : Connection} {w : World τ} (h : (c.close w).1 = .ok ()) :
    c.isClosed (c.close w).2 = true := by
  rw [close_eq] at h ⊢
  cases hw : c.has .transport w with
  | false =>
      exact isClosed_shed hw
  | true =>
      rw [hw, if_pos rfl] at h
      rw [if_pos rfl]
      rcases hr : w.exchange ⟨closing, []⟩ with ⟨e | a, v⟩
      · rw [hr] at h
        cases h
      · refine isClosed_shed ?_
        rw [has_dropApi]
        exact Bool.and_false _

end Connection

end ClusterControl
