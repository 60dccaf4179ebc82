import ClusterControl.Connection.Config
import ClusterControl.Settings.Dotenv
import ClusterControl.Text.Case

/-!
Settings of a process. A setting is looked for among the arguments, then among the environment
variables, then in a file of variables; what is found nowhere has a default.
-/

namespace ClusterControl

structure Settings (τ : Type) where
  kubeconfigPath : Option String
  kubeconfigData : Option String
  context : Option String
  inCluster : Bool
  pollInterval : τ
  defaultTimeout : τ
  logLevel : String
  deriving Inhabited

/-- Environment variables; of two that differ only in case the later one holds. -/
abbrev Environment := List (String × String)

namespace Environment

def variableName (setting : String) : String := "paas_k8s_" ++ setting

/-- What the last of the variables for a setting holds. -/
def latest? {β : Type} (entries : List (String × β)) (setting : String) : Option β :=
  (entries.reverse.find? fun (name, _) => Text.small name == variableName setting).map Prod.snd

def find? (e : Environment) (setting : String) : Option String := latest? e setting

end Environment

namespace Settings

open Record

variable {τ : Type} [Time τ]

def names : List String :=
  ["kubeconfig_path", "kubeconfig_data", "context", "in_cluster", "poll_interval_seconds",
   "default_timeout_seconds", "log_level"]

/-- A variable of the file that has no value is as good as missing. -/
def find? (args : Fields) (environment : Environment) (file : Dotenv.Variables) (name : String) :
    Option Value :=
  args.lookup name <|>
    (environment.find? name <|> (Environment.latest? file name).join).map Value.str

def found (args : Fields) (environment : Environment) (file : Dotenv.Variables) : Fields :=
  names.filterMap fun name => (find? args environment file name).map (name, ·)

def ofFields (fields : Fields) : Checked (Settings τ) :=
  Settings.mk <$> optional fields "kubeconfig_path" none (orNone text)
    <*> optional fields "kubeconfig_data" none (orNone text)
    <*> optional fields "context" none (orNone text)
    <*> optional fields "in_cluster" false flag
    <*> optional fields "poll_interval_seconds" (Time.ofInt 1) interval
    <*> optional fields "default_timeout_seconds" (Time.ofInt 300) timeout
    <*> optional fields "log_level" "INFO" text

def read (args : Fields) (environment : Environment) (file : String) : Checked (Settings τ) :=
  ofFields (found args environment (Dotenv.read environment file))

def config (s : Settings τ) : Config :=
  { kubeconfigPath := s.kubeconfigPath, kubeconfigData := s.kubeconfigData
    context := s.context, inCluster := s.inCluster }

end Settings

end ClusterControl
