import ClusterControl.Value.Basic

/-!
Requests as the client sends them: the method of an API group and its named arguments.
-/

namespace ClusterControl

inductive Group where
  | core
  | apps
  | batch
  | networking
  | definitions
  | access
  | custom
  | version
  /-- Where the address of a cluster and the credentials for it are loaded from. -/
  | loader
  /-- The transport that all groups share. -/
  | transport
  deriving Repr, DecidableEq, Inhabited

namespace Group

def label : Group → String
  | .core => "core_v1"
  | .apps => "apps_v1"
  | .batch => "batch_v1"
  | .networking => "networking_v1"
  | .definitions => "apiextensions_v1"
  | .access => "rbac_v1"
  | .custom => "custom_objects"
  | .version => "version"
  | .loader => "config"
  | .transport => "api_client"

def all : List Group :=
  [.core, .apps, .batch, .networking, .definitions, .access, .custom, .version, .loader, .transport]

def ofLabel? (s : String) : Option Group := all.find? fun g => g.label == s

end Group

structure Endpoint where
  group : Group
  method : String
  deriving Repr, DecidableEq, Inhabited

namespace Endpoint

def label (e : Endpoint) : String := e.group.label ++ "." ++ e.method

/-- The part before the first point names the group. -/
def ofLabel? (s : String) : Option Endpoint :=
  let cs := s.toList
  (Group.ofLabel? (String.ofList (cs.takeWhile (· != '.')))).map fun g =>
    ⟨g, String.ofList ((cs.dropWhile (· != '.')).drop 1)⟩

def does (e : Endpoint) (verb : String) : Bool :=
  (verb ++ "_").toList.isPrefixOf e.method.toList

end Endpoint

structure Request where
  endpoint : Endpoint
  args : List (String × Value)
  deriving Inhabited

namespace Request

def arg (r : Request) (name : String) : Value := (r.args.lookup name).getD .null

/-- A request that can change what the cluster stores. -/
def mutates (r : Request) : Bool :=
  r.endpoint.does "create" || r.endpoint.does "delete"

end Request

end ClusterControl
