import ClusterControl.Op

/-!
Bounded waits. A check is made at once and then after every sleep of one interval, until it yields, it
fails, the deadline has passed or the wait is cancelled. A check that has begun is never cut short: what
it yields counts even if the deadline passed meanwhile.
-/

namespace ClusterControl

structure Poll (τ : Type) where
  /-- What is waited for, as failures name it. -/
  description : String
  interval : Seconds τ
  timeout : Seconds τ
  /-- The instant from which the wait is cancelled. -/
  cancel : Option τ

/-- What a check can raise: a failure, or one of the two signals with which work that is retried speaks to whoever
retries it. A wait takes the signals for its own, wherever they come from. -/
inductive Raised (τ : Type) where
  | failure (e : Failure τ)
  /-- The work wants to be done again. -/
  | again
  /-- The work was done again until it was given up. -/
  | exhausted

namespace Poll

variable {τ α : Type}

/-- What a wait looks at. Without a value the check does not hold yet. -/
def Check (τ α : Type) := World τ → Except (Raised τ) (Option α) × World τ

/-- An operation as a check. It raises failures only. -/
def Check.ofOp (x : Op τ (Option α)) : Check τ α := fun w => ((x w).1.mapError .failure, (x w).2)

variable [Time τ]

def argumentProblem (p : Poll τ) : Option String :=
  if p.interval.amount ≤ 0 then some ("poll interval must be positive, got " ++ p.interval.text)
  else if p.timeout.amount < 0 then
    some ("poll timeout must not be negative, got " ++ p.timeout.text)
  else none

/-- Why a wait ends that began at `started` and found nothing: a cancellation goes before the deadline. -/
def ending (p : Poll τ) (started : τ) (w : World τ) : Failure τ :=
  if w.reached p.cancel then .cancelled p.description (w.now - started)
  else .timedOut p.description p.timeout (w.now - started)

def isOver (p : Poll τ) (started : τ) (w : World τ) : Bool :=
  p.timeout.amount ≤ w.now - started || w.reached p.cancel

/-- At most `left` checks more. Work that asks to be done again counts as a check that yields nothing, and work that
was given up ends the wait as if its time had run out. -/
def loop (p : Poll τ) (check : Check τ α) (started : τ) : (left : Nat) → Op τ α
  | 0, w => (.error (p.ending started w), w)
  | left + 1, w =>
    if w.reached p.cancel then (.error (.cancelled p.description (w.now - started)), w)
    else match check w with
      | (.error (.failure e), w) => (.error e, w)
      | (.error .exhausted, w) => (.error (p.ending started w), w)
      | (.ok (some a), w) => (.ok a, w)
      | (.ok none, w) | (.error .again, w) =>
        if p.isOver started w then (.error (p.ending started w), w)
        else loop p check started left (w.pause p.interval.amount p.cancel)

/-- One check at the start, one after each sleep that fits into the timeout, and one that finds the wait
cancelled. -/
def checks (p : Poll τ) : Nat := Time.strides p.interval.amount p.timeout.amount + 2

/-- Why a wait does not begin. -/
def obstacle? (p : Poll τ) : Option (Failure τ) :=
  match p.argumentProblem with
  | some text => some (.argument text)
  | none => if p.timeout.inRange && p.interval.inRange then none else some .overflow

/-- Waits until the check yields something. -/
def wait (p : Poll τ) (check : Check τ α) : Op τ α :=
  match p.obstacle? with
  | some e => Op.fail e
  | none => fun w => p.loop check w.now p.checks w

/-- Waits for an operation. -/
def run (p : Poll τ) (check : Op τ (Option α)) : Op τ α := p.wait (.ofOp check)

/-! ## What each round does with an operation -/

theorem loop_ofOp (p : Poll τ) (check : Op τ (Option α)) (started : τ) (left : Nat) (w : World τ) :
    p.loop (.ofOp check) started (left + 1) w =
      if w.reached p.cancel then (.error (.cancelled p.description (w.now - started)), w)
      else match check w with
        | (.error e, w) => (.error e, w)
        | (.ok (some a), w) => (.ok a, w)
        | (.ok none, w) =>
          if p.isOver started w then (.error (p.ending started w), w)
          else p.loop (.ofOp check) started left (w.pause p.interval.amount p.cancel) := by
  rw [loop, Check.ofOp]
  rcases check w with ⟨e | _ | a, v⟩ <;> rfl

end Poll

/-! ## Limits that are fixed beforehand -/

structure PollSpec (τ : Type) where
  interval : τ
  timeout : τ

namespace PollSpec

open Record

variable {τ α : Type} [Time τ]

def ofFields (fields : Fields) : Checked (PollSpec τ) :=
  PollSpec.mk <$> optional fields "interval" (Time.ofInt 1) Record.interval
    <*> optional fields "timeout" (Time.ofInt 300) Record.timeout

def poll (s : PollSpec τ) (description : String) (cancel : Option τ) : Poll τ :=
  ⟨description, .real s.interval, .real s.timeout, cancel⟩

end PollSpec

/-! ## What a wait is called -/

/-- A description that the caller gives goes first, then the one that the condition carries, if it is a
text, then the name of the condition. Empty texts describe nothing. -/
def describeWait (given : Option String) (carried : Value) (name : Option String) : String :=
  let texts := [given, (match carried with | .str d => some d | _ => none)].filterMap id
  ((texts.find? (· != "")).orElse fun _ => name).getD "condition"

end ClusterControl
