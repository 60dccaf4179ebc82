import ClusterControl.Failure
import ClusterControl.Settings.Basic

/-!
How much a process logs. Levels are named in any case, in a vocabulary that has names for other things
than levels too.
-/

namespace ClusterControl.Logging

/-- What a name of the vocabulary stands for. -/
inductive Meaning where
  | level (n : Nat)
  /-- The layout of a message. -/
  | layout (text : String)
  /-- The table of the styles in which layouts are written. -/
  | styles

def vocabulary : List (String × Meaning) :=
  [("NOTSET", .level 0), ("DEBUG", .level 10), ("INFO", .level 20), ("WARN", .level 30),
   ("WARNING", .level 30), ("ERROR", .level 40), ("CRITICAL", .level 50), ("FATAL", .level 50),
   ("BASIC_FORMAT", .layout "%(levelname)s:%(name)s:%(message)s"), ("_STYLES", .styles)]

/-- A name outside the vocabulary stands for the level of ordinary messages. -/
def meaning (name : String) : Meaning := (vocabulary.lookup (Text.capital name)).getD (.level 20)

variable {τ : Type}

/-- The level of what a name stands for. A text in place of a level is taken for the name of an unknown
one. -/
def threshold (name : String) : Except (Failure τ) Nat :=
  match meaning name with
  | .level n => .ok n
  | .layout text => .error (.argument ("Unknown level: " ++ Text.quoted text))
  | .styles => .error (.malformed .sort)

def format : String := "%(asctime)s - %(name)s - %(levelname)s - %(message)s"

/-- The settings are asked for a level only where the caller names none, and only texts are names. -/
def configure (level : Value) (settings : Checked (Settings τ)) : Except (Failure τ) Nat :=
  if level.truthy then
    match level with
    | .str name => threshold name
    | _ => .error (.malformed .field)
  else do threshold (← settings.outcome).logLevel

end ClusterControl.Logging
