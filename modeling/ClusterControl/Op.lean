import ClusterControl.World

/-!
Operations: functions of the world that end with a result or a failure, and in either case with the
world as it then is.
-/

namespace ClusterControl

def Op (τ α : Type) := World τ → Except (Failure τ) α × World τ

namespace Op

variable {τ α β : Type}

protected def pure (a : α) : Op τ α := fun w => (.ok a, w)

protected def bind (x : Op τ α) (f : α → Op τ β) : Op τ β := fun w =>
  match x w with
  | (.ok a, w) => f a w
  | (.error e, w) => (.error e, w)

instance : Monad (Op τ) where
  pure := Op.pure
  bind := Op.bind

@[simp] theorem pure_run (a : α) (w : World τ) : (pure a : Op τ α) w = (.ok a, w) := rfl

theorem bind_run (x : Op τ α) (f : α → Op τ β) (w : World τ) :
    (x >>= f) w = match x w with
      | (.ok a, w) => f a w
      | (.error e, w) => (.error e, w) := rfl

instance : LawfulMonad (Op τ) := by
  refine LawfulMonad.mk' (Op τ) (fun x => ?_) (fun _ _ => rfl) (fun x f g => ?_)
  · funext w
    change Op.bind x (fun a => Op.pure a) w = x w
    rw [Op.bind]
    rcases x w with ⟨_ | _, _⟩ <;> rfl
  · funext w
    simp only [bind_run]
    rcases x w with ⟨_ | _, _⟩ <;> rfl

def fail (e : Failure τ) : Op τ α := fun w => (.error e, w)

@[simp] theorem fail_run (e : Failure τ) (w : World τ) : (fail e : Op τ α) w = (.error e, w) := rfl

def ofExcept (x : Except (Failure τ) α) : Op τ α := fun w => (x, w)

def look (x : Except Malformed α) : Op τ α := ofExcept (x.mapError .malformed)

def ofChecked (x : Checked α) : Op τ α := ofExcept x.outcome

def read (f : World τ → α) : Op τ α := fun w => (.ok (f w), w)

def update (f : World τ → World τ) : Op τ Unit := fun w => (.ok (), f w)

@[simp] theorem ofExcept_run (x : Except (Failure τ) α) (w : World τ) : ofExcept x w = (x, w) := rfl

@[simp] theorem read_run (f : World τ → α) (w : World τ) : read f w = (.ok (f w), w) := rfl

@[simp] theorem update_run (f : World τ → World τ) (w : World τ) : update f w = (.ok (), f w) := rfl

/-! ## Failures -/

/-- Runs an operation for its outcome, which is not a failure of this operation. -/
def attempt (x : Op τ α) : Op τ (Except (Failure τ) α) := fun w =>
  let (outcome, w) := x w
  (.ok outcome, w)

/-- Goes on after a failure, in the world that it left. -/
def onFailure (x : Op τ α) (handle : Failure τ → Op τ α) : Op τ α := fun w =>
  match x w with
  | (.ok a, w) => (.ok a, w)
  | (.error e, w) => handle e w

/-- As `onFailure`, but an interrupt passes through. -/
def orElse (x : Op τ α) (handle : Failure τ → Op τ α) : Op τ α :=
  x.onFailure fun e => if e.isInterrupt then fail e else handle e

/-- Handles what the cluster rejects, and nothing else. -/
def onRejection (x : Op τ α) (handle : Rejection → Op τ α) : Op τ α :=
  x.onFailure fun
    | .rejected r => handle r
    | e => fail e

/-- As `onRejection`, for what the cluster does not have. -/
def onNotFound (x : Op τ α) (otherwise : Op τ α) : Op τ α :=
  x.onRejection fun r => if r.isNotFound then otherwise else fail (.rejected r)

/-- Handles the failures that this library words itself. -/
def onCluster (x : Op τ α) (handle : Failure τ → Op τ α) : Op τ α :=
  x.onFailure fun e => if e.isCluster then handle e else fail e

/-! ## Steps -/

variable [Time τ]

def request (r : Request) : Op τ Value := fun w => w.exchange r

def log (level : Level) (message : String) : Op τ Unit := update (·.record (.log level message))

def probed (probe : Probe) (platform : String) : Op τ Unit := update (·.record (.probe probe platform))

def advance (d : Seconds τ) : Op τ Unit :=
  if d.inRange then update (·.advance d.amount) else fail .overflow

/-- A number that was not given out before. -/
def fresh : Op τ Nat := fun w => (.ok w.nextId, { w with nextId := w.nextId + 1 })

/-- Hands out what a slot of the world holds. An empty slot is filled first, and stays empty if that
fails. -/
def kept (slot : World τ → Option α) (put : α → World τ → World τ) (build : Op τ α) : Op τ α := do
  match ← read slot with
  | some a => pure a
  | none =>
    let a ← build
    update (put a)
    pure a

/-- The settings of the process, read on first use. -/
def settings : Op τ (Settings τ) :=
  kept World.settings (fun s w => { w with settings := some s }) do
    ofChecked (Settings.read [] (← read World.environment) "")

end Op

end ClusterControl
