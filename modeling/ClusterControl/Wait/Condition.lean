import ClusterControl.Resource.Access
import ClusterControl.Resource.Ref
import ClusterControl.Wait.Poll

/-!
Conditions on the state of a cluster. A condition that holds yields a value: the resource that was
waited for where one is handed back, and null otherwise.
-/

namespace ClusterControl

structure Condition (τ : Type) where
  description : String
  check : Op τ (Option Value)

/-! ## The conditions that an object reports of itself -/

/-- The object reports a condition of one of the types as true. Objects that report none, or that are no
objects, have none. -/
def hasCondition (object : Value) (types : List String) : Except Malformed Bool := do
  let reported ← ((object.field? "status").field? "conditions").itemsOrNone
  reported.anyM fun c => do
    let status ← c.field "status"
    let type ← c.field "type"
    pure (status.same "True" && types.any fun t => type.same t)

namespace Condition

variable {τ : Type} [Time τ]

/-- A condition that hands nothing back. -/
def holds (x : Op τ Bool) : Op τ (Option Value) := do
  pure (if ← x then some .null else none)

def existing (c : Connection) (k : Kind) (ref : Ref) : Op τ Value := do
  match ← Resource.get c k (.ofOption ref.ns) (.ofOption ref.name) with
  | some object => pure object
  | none => Op.fail (.missing ref.kind (.ofOption ref.name) (.ofOption ref.ns))

/-- The resource must exist; it is waited for until it reports one of the types. -/
def reports (c : Connection) (k : Kind) (types : List String) (what : String) (ns name : Value) :
    Checked (Condition τ) :=
  (Ref.named k ns name).map fun ref =>
    { description := ref.text ++ " " ++ what
      check := holds do Op.look (hasCondition (← existing c k ref) types) }

def jobFailed (c : Connection) (ns name : Value) : Checked (Condition τ) :=
  reports c .job ["Failed"] "to fail" ns name

def jobDone (c : Connection) (ns name : Value) : Checked (Condition τ) :=
  reports c .job ["Failed", "Complete"] "to finish" ns name

def jobCompleted (c : Connection) (ns name : Value) : Checked (Condition τ) :=
  reports c .job ["Complete"] "to complete" ns name

def deploymentAvailable (c : Connection) (ns name : Value) : Checked (Condition τ) :=
  reports c .deployment ["Available"] "to be available" ns name

def definitionEstablished (c : Connection) (name : Value) : Checked (Condition τ) :=
  reports c .definition ["Established"] "to be established" .null name

/-! ## Presence and absence -/

def namespaceAbsent (c : Connection) (name : Value) : Checked (Condition τ) :=
  (Ref.named .namespaceKind .null name).map fun ref =>
    { description := ref.text ++ " to be deleted"
      check := holds do
        pure (← Resource.get c .namespaceKind .null name).isNone }

/-- On request a listing that the cluster rejects counts as one without pods. -/
def podAbsent (c : Connection) (ns selector : Value) (tolerant : Bool) : Checked (Condition τ) :=
  (Ref.selected .pod ns selector).map fun ref =>
    { description := ref.text ++ " to be deleted"
      check := holds do
        let listed ← (some <$> Resource.list c .pod ns selector).onRejection fun r =>
          if tolerant then do
            Op.log .warning
              ("Listing " ++ ref.text ++ " failed, treating pods as gone: " ++ r.reason.text)
            pure none
          else Op.fail (.rejected r)
        match listed with
        | none => pure true
        | some pods => do pure ((← Op.look pods.count) == 0) }

/-- Hands back the secret. -/
def secretPresent (c : Connection) (ns name : Value) : Checked (Condition τ) :=
  (Ref.named .secret ns name).map fun ref =>
    { description := ref.text ++ " to exist"
      check := Resource.get c .secret ns name }

def definitionExists (c : Connection) (name : Value) : Condition τ :=
  { description := "CRD " ++ name.text ++ " to exist"
    check := holds do
      pure (← Resource.get c .definition .null name).isSome }

def poll (c : Condition τ) (interval timeout : Seconds τ) (cancel : Option τ) : Op τ Value :=
  Poll.run ⟨c.description, interval, timeout, cancel⟩ c.check

end Condition

/-! ## Conditions that are looked at again and again -/

/-- A condition with what it handed back last. -/
structure Watch (τ : Type) where
  condition : Condition τ
  result : Value

namespace Watch

variable {τ : Type} [Time τ]

def start (c : Condition τ) : Watch τ := ⟨c, .null⟩

/-- One look. Only a condition that holds changes the result. -/
def check (w : Watch τ) : Op τ (Bool × Watch τ) := do
  match ← w.condition.check with
  | none => pure (false, w)
  | some v => pure (true, { w with result := v })

def poll (w : Watch τ) (interval timeout : Seconds τ) (cancel : Option τ) : Op τ (Watch τ) := do
  let v ← w.condition.poll interval timeout cancel
  pure { w with result := v }

end Watch

end ClusterControl
