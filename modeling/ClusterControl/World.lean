import ClusterControl.Cluster.Basic
import ClusterControl.Script
import ClusterControl.Settings.Basic

/-!
Everything an operation can see and change: the clock, the cluster on the other side, what the
connections hold with their temporary files, the variables of the process and what it keeps between calls.
What happened is written into a history, from which the views at the end read.
-/

namespace ClusterControl

/-- The stages of a wait that are reported. -/
inductive Stage where
  | start
  | success
  | failure
  deriving Repr, DecidableEq, Inhabited

inductive Level where
  | info
  | warning
  | error
  deriving Repr, DecidableEq, Inhabited

/-- What is asked of the way to recognize a platform. -/
inductive Probe where
  | detect
  | load
  deriving Repr, DecidableEq, Inhabited

/-- A request that was made: when it began, and what came of it. -/
structure Exchange (τ : Type) where
  request : Request
  start : τ
  outcome : Except (Failure τ) Value

inductive Event (τ : Type) where
  | exchange (e : Exchange τ)
  | progress (stage : Stage) (message : String)
  | log (level : Level) (message : String)
  | probe (probe : Probe) (platform : String)

structure World (τ : Type) where
  now : τ
  script : Script τ
  /-- The latest event comes first. -/
  history : List (Event τ)
  /-- The number of the next connection or handle. -/
  nextId : Nat
  /-- The APIs that connections hold, each for one group of requests. -/
  apis : List (Nat × Group)
  /-- The connections that know the path of a temporary file. -/
  paths : List Nat
  /-- The temporary files that exist, by the connection that made them. -/
  files : List (Nat × List UInt8)
  filesMade : Nat
  environment : Environment
  /-- The settings once they were read. -/
  settings : Option (Settings τ)
  /-- The handle that the process shares. -/
  shared : Option (Cluster τ)

namespace World

variable {τ : Type} [Time τ]

def initial (script : Script τ) (environment : Environment) : World τ :=
  { now := 0, script, history := [], nextId := 0, apis := [], paths := [], files := [], filesMade := 0
    environment, settings := none, shared := none }

def record (w : World τ) (e : Event τ) : World τ := { w with history := e :: w.history }

def advance (w : World τ) (d : τ) : World τ := { w with now := w.now + d }

/-- A cancellation that holds from an instant on has begun. -/
def reached (w : World τ) : Option τ → Bool
  | none => false
  | some t => t ≤ w.now

/-- Time passes for `d`, but not beyond the instant of a cancellation. -/
def pause (w : World τ) (d : τ) (cancel : Option τ) : World τ :=
  match cancel with
  | none => w.advance d
  | some t =>
    if t ≤ w.now then w
    else if t ≤ w.now + d then { w with now := t }
    else w.advance d

/-- The cluster answers a request. -/
def exchange (w : World τ) (r : Request) : Except (Failure τ) Value × World τ :=
  let (response, script) := w.script.answer r
  let w := w.record (.exchange ⟨r, w.now, response.outcome⟩)
  (response.outcome, { w with script, now := w.now + response.cost })

/-! ## Views of the history, the earliest event first -/

def events (w : World τ) : List (Event τ) := w.history.reverse

def exchanges (w : World τ) : List (Exchange τ) :=
  w.events.filterMap fun
    | .exchange e => some e
    | _ => none

def requests (w : World τ) : List Request := w.exchanges.map Exchange.request

/-- The requests that can have changed what the cluster stores. -/
def mutations (w : World τ) : List Request := w.requests.filter Request.mutates

def progress (w : World τ) : List (Stage × String) :=
  w.events.filterMap fun
    | .progress stage message => some (stage, message)
    | _ => none

def logs (w : World τ) : List (Level × String) :=
  w.events.filterMap fun
    | .log level message => some (level, message)
    | _ => none

def probes (w : World τ) : List (Probe × String) :=
  w.events.filterMap fun
    | .probe probe platform => some (probe, platform)
    | _ => none

/-! ## What each step adds to the views -/

omit [Time τ] in
@[simp] theorem events_record (w : World τ) (e : Event τ) :
    (w.record e).events = w.events ++ [e] := by
  simp [record, events]

@[simp] theorem events_advance (w : World τ) (d : τ) : (w.advance d).events = w.events := rfl

@[simp] theorem events_pause (w : World τ) (d : τ) (cancel : Option τ) :
    (w.pause d cancel).events = w.events := by
  unfold pause
  split
  · rfl
  · split
    · rfl
    · split <;> rfl

/-- Every request is written down, whatever comes of it. -/
theorem requests_exchange (w : World τ) (r : Request) :
    (w.exchange r).2.requests = w.requests ++ [r] := by
  simp [exchange, requests, exchanges, record, events]

end World

end ClusterControl
