import ClusterControl.Op

/-!
Reports on a wait while it runs. A sink receives the start and then the success or the failure; a sink
that fails is noted in the log and otherwise ignored. An interrupt is not ignored, wherever it comes
from, and nothing is reported about a wait that it ends.
-/

namespace ClusterControl

inductive Sink (τ : Type) where
  /-- Writes the reports into the log. -/
  | logger
  /-- Passes the reports on; `refuses` says for which stages that fails once they were passed on. -/
  | relay (refuses : Stage → Option (Failure τ))

namespace Sink

variable {τ α : Type} [Time τ]

def deliver (s : Sink τ) (stage : Stage) (message : String) : Op τ Unit :=
  match s with
  | .logger => match stage with
    | .start => Op.log .info message
    | .success => Op.log .info (message ++ ": done")
    | .failure => Op.log .error message
  | .relay refuses => do
    Op.update (·.record (.progress stage message))
    match refuses stage with
    | none => pure ()
    | some e => Op.fail e

def report (s : Sink τ) (stage : Stage) (message : String) : Op τ Unit :=
  (s.deliver stage message).orElse fun e =>
    Op.log .warning ("Progress sink failed: " ++ e.message)

def around (s : Sink τ) (message : String) (body : Op τ α) : Op τ α := do
  s.report .start message
  let a ← body.orElse fun e => do
    s.report .failure (message ++ " failed: " ++ e.message)
    Op.fail e
  s.report .success message
  pure a

end Sink

/-- Without a sink nothing is reported. -/
def withProgress {τ α : Type} [Time τ] (sink : Option (Sink τ)) (message : String) (body : Op τ α) :
    Op τ α :=
  match sink with
  | none => body
  | some s => s.around message body

end ClusterControl
