import ClusterControl.Record
import ClusterControl.Value.Text

/-!
Why an operation failed. Each cause has its own constructor with the facts about it, and its wording
stands in `Failure.message`. Some failures carry the failure that led to them.
-/

namespace ClusterControl

/-- What the cluster answers when it rejects a request. -/
structure Rejection where
  status : Value
  reason : Value
  body : Value := .null
  deriving Inhabited

namespace Rejection

def hasStatus (r : Rejection) (n : Int) : Bool := r.status.same (.int n)

def isNotFound (r : Rejection) : Bool := r.hasStatus 404

/-- A request to create what is there already. -/
def isConflict (r : Rejection) : Bool := r.hasStatus 409

def message (r : Rejection) : String :=
  "(" ++ r.status.text ++ ")\nReason: " ++ r.reason.text ++ "\n" ++
    if r.body.truthy then "HTTP response body: " ++ r.body.text ++ "\n" else ""

end Rejection

inductive Failure (τ : Type) where
  /-- A resource that must exist does not. -/
  | missing (kind : String) (name ns : Value)
  /-- The cluster did not do what it was asked to. -/
  | refused (operation : String) (target reason : Value) (cause : Option (Failure τ))
  | timedOut (condition : String) (timeout : Seconds τ) (elapsed : τ)
  | cancelled (condition : String) (elapsed : τ)
  /-- A wait for a resource definition ended early in the named phase. -/
  | definition (name : Value) (phase : String) (reason : String) (cause : Option (Failure τ))
  | cluster (text : String) (cause : Option (Failure τ))
  /-- No connection could be set up. -/
  | connecting (text : String) (cause : Option (Failure τ))
  | rejected (rejection : Rejection)
  | argument (text : String)
  /-- A number of seconds has no place on the clock. -/
  | overflow
  | runtime (text : String)
  /-- The user breaks off. No operation treats this as a failure of its own. -/
  | interrupt (text : String)
  | malformed (m : Malformed)
  | invalid (issues : List Issue)
  | encoding (text : String)
  deriving Inhabited

namespace Failure

variable {τ : Type} [Time τ]

def missingText (kind : String) (name ns : Value) : String :=
  kind ++ " " ++ (if ns.truthy then ns.text ++ "/" ++ name.text else name.text) ++ " not found"

/-- A reason is given after a colon; without one the sentence ends before it. -/
def refusedText (operation : String) (target reason : Value) : String :=
  "failed to " ++ operation ++ " " ++ target.text ++
    if reason.isNull then "" else ": " ++ reason.text

def timedOutText (condition : String) (timeout elapsed : τ) : String :=
  "timed out waiting for " ++ condition ++ ": deadline of " ++ Time.brief timeout ++
    "s reached after " ++ Time.hundredths elapsed ++ "s"

def cancelledText (condition : String) (elapsed : τ) : String :=
  "wait for " ++ condition ++ " cancelled after " ++ Time.hundredths elapsed ++ "s"

def definitionText (name : Value) (phase reason : String) : String :=
  "CRD " ++ name.text ++ " failed while " ++ phase ++ ": " ++ reason

def overflowText : String := "int too large to convert to float"

/-- Looks at malformed values and records that do not fit have no wording of their own. -/
def message : Failure τ → String
  | .missing kind name ns => missingText kind name ns
  | .refused operation target reason _ => refusedText operation target reason
  | .timedOut condition timeout elapsed => timedOutText condition timeout.amount elapsed
  | .cancelled condition elapsed => cancelledText condition elapsed
  | .definition name phase reason _ => definitionText name phase reason
  | .rejected r => r.message
  | .cluster text _ | .connecting text _ => text
  | .overflow => overflowText
  | .argument text | .runtime text | .interrupt text | .encoding text => text
  | .malformed _ | .invalid _ => ""

def cause : Failure τ → Option (Failure τ)
  | .refused _ _ _ cause | .definition _ _ _ cause | .cluster _ cause | .connecting _ cause => cause
  | _ => none

/-! ## Waits that ended, in seconds as a caller writes them -/

def ofTimeout (condition : String) (timeout elapsed : Seconds τ) : Failure τ :=
  if timeout.inRange && elapsed.inRange then .timedOut condition timeout elapsed.amount else .overflow

def ofCancellation (condition : String) (elapsed : Seconds τ) : Failure τ :=
  if elapsed.inRange then .cancelled condition elapsed.amount else .overflow

/-! ## Families of failures -/

def isInterrupt : Failure τ → Bool
  | .interrupt _ => true
  | _ => false

/-- The failures that this library words itself. -/
def isCluster : Failure τ → Bool
  | .missing .. | .refused .. | .timedOut .. | .cancelled .. | .definition .. | .cluster ..
  | .connecting .. => true
  | _ => false

def isNotFound : Failure τ → Bool
  | .rejected r => r.isNotFound
  | _ => false

end Failure

/-- A record that does not fit is a failure. -/
def Checked.outcome {τ α : Type} : Checked α → Except (Failure τ) α
  | .valid a => .ok a
  | .invalid issues => .error (.invalid issues)

end ClusterControl
