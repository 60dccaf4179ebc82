import ClusterControl.Wait.Condition

/-!
Waiting for a resource definition: first that it exists, then that it is established. Each phase has a
timeout of its own, and the second begins only once the first one succeeded.
-/

namespace ClusterControl

inductive Phase where
  | awaitingExistence
  | awaitingEstablished
  | done
  deriving Repr, DecidableEq, Inhabited

def Phase.label : Phase → String
  | .awaitingExistence => "awaiting-existence"
  | .awaitingEstablished => "awaiting-established"
  | .done => "done"

/-- A wait that can be repeated. The phase is the one that was reached last. -/
structure DefinitionWait (τ : Type) where
  connection : Connection
  name : Value
  interval : Seconds τ
  phase : Phase

namespace DefinitionWait

variable {τ : Type} [Time τ]

def start (c : Connection) (name : Value) (interval : Seconds τ) : DefinitionWait τ :=
  ⟨c, name, interval, .awaitingExistence⟩

/-- A failure is reported together with the phase. -/
def poll (w : DefinitionWait τ) (condition : Condition τ) (timeout : Seconds τ) (cancel : Option τ) :
    Op τ Unit :=
  Op.orElse (do let _ ← condition.poll w.interval timeout cancel) fun e =>
    Op.fail (.definition w.name w.phase.label e.message (some e))

def existence (w : DefinitionWait τ) (timeout : Seconds τ) (cancel : Option τ) : Op τ Unit :=
  w.poll (.definitionExists w.connection w.name) timeout cancel

def established (w : DefinitionWait τ) (timeout : Seconds τ) (cancel : Option τ) : Op τ Unit := do
  let condition ← Op.ofChecked (Condition.definitionEstablished w.connection w.name)
  w.poll condition timeout cancel

/-- What is left to do for a definition that exists. -/
def finish (w : DefinitionWait τ) (timeout : Seconds τ) (cancel : Option τ) : Op τ Unit := do
  w.established timeout cancel
  Op.log .info ("CRD " ++ w.name.text ++ " is established")

def inPhase (w : DefinitionWait τ) (ph : Phase) : DefinitionWait τ := { w with phase := ph }

/-- Both phases. The wait is handed back with the phase it reached, whatever the outcome. -/
def run (w : DefinitionWait τ) (timeout : Seconds τ) (establishedTimeout : Option (Seconds τ))
    (cancel : Option τ) : Op τ (Except (Failure τ) Unit × DefinitionWait τ) := do
  match ← (w.existence timeout cancel).attempt with
  | .error e => pure (.error e, w)
  | .ok () =>
    let w := w.inPhase .awaitingEstablished
    match ← (w.finish (establishedTimeout.getD timeout) cancel).attempt with
    | .error e => pure (.error e, w)
    | .ok () => pure (.ok (), w.inPhase .done)

/-- The wait as its caller sees it, who catches no failure. -/
def wait (w : DefinitionWait τ) (timeout : Seconds τ) (establishedTimeout : Option (Seconds τ))
    (cancel : Option τ) : Op τ Unit := do
  let (outcome, _) ← w.run timeout establishedTimeout cancel
  Op.ofExcept outcome

end DefinitionWait

end ClusterControl
