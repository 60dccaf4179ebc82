import ClusterControl.Op
import ClusterControl.Text.Base64

/-!
Opening and closing connections. A connection holds an API for each group of requests, and is given them
and lets go of them one by one. A connection made from credentials given as text keeps them in a temporary
file until it is closed.
-/

namespace ClusterControl

/-- Temporary files are named after their contents. -/
def temporaryPath (bytes : List UInt8) : String := "temp:" ++ Text.hex bytes

/-- The group through whose API a request goes. The version is asked for through the transport itself. -/
def Group.slot : Group → Group
  | .version | .loader => .transport
  | g => g

namespace World

variable {τ : Type}

def keepFile (w : World τ) (id : Nat) (bytes : List UInt8) : World τ :=
  { w with files := (id, bytes) :: w.files, filesMade := w.filesMade + 1 }

def dropFile (w : World τ) (id : Nat) : World τ :=
  { w with files := w.files.filter fun (owner, _) => owner != id }

def learnPath (w : World τ) (id : Nat) : World τ := { w with paths := id :: w.paths }

def forgetPath (w : World τ) (id : Nat) : World τ := { w with paths := w.paths.filter (· != id) }

/-- Nothing is held yet under this number. -/
def clear (w : World τ) (id : Nat) : World τ :=
  { w with apis := w.apis.filter fun (owner, _) => owner != id, paths := w.paths.filter (· != id) }

def addApi (w : World τ) (id : Nat) (g : Group) : World τ := { w with apis := (id, g) :: w.apis }

def dropApi (w : World τ) (id : Nat) (g : Group) : World τ :=
  { w with apis := w.apis.filter (· != (id, g)) }

end World

namespace Connection

variable {τ : Type} [Time τ]

/-- The groups of requests, whose APIs all use the transport. -/
def requestGroups : List Group := [.core, .apps, .batch, .networking, .definitions, .access, .custom]

/-- The groups that a connection gives access to. -/
def groups : List Group := .transport :: requestGroups

/-- The connection holds the API that the group goes through. -/
def has (c : Connection) (g : Group) (w : World τ) : Bool := w.apis.contains (c.id, g.slot)

/-- The connection holds the API that the request goes through. -/
def serves (c : Connection) (r : Request) (w : World τ) : Bool := c.has r.endpoint.group w

/-- The connection holds all APIs. -/
def isOpen (c : Connection) (w : World τ) : Bool := groups.all (c.has · w)

/-- The connection holds no API. -/
def isClosed (c : Connection) (w : World τ) : Bool := groups.all (!c.has · w)

omit [Time τ] in
theorem has_congr {w v : World τ} (h : v.apis = w.apis) (c : Connection) (g : Group) : c.has g v = c.has g w := by
  rw [has, h, has]

omit [Time τ] in
theorem has_slot (c : Connection) (g : Group) (w : World τ) : c.has g.slot w = c.has g w := by
  cases g <;> rfl

theorem slot_mem_groups (g : Group) : g.slot ∈ groups := by cases g <;> decide

omit [Time τ] in
theorem has_of_isOpen {c : Connection} {w : World τ} (h : c.isOpen w = true) (g : Group) : c.has g w = true := by
  rw [← has_slot]
  exact List.all_eq_true.1 h g.slot (slot_mem_groups g)

omit [Time τ] in
theorem serves_of_isOpen {c : Connection} {w : World τ} (h : c.isOpen w = true) (r : Request) :
    c.serves r w = true :=
  has_of_isOpen h r.endpoint.group

omit [Time τ] in
theorem has_of_isClosed {c : Connection} {w : World τ} (h : c.isClosed w = true) (g : Group) :
    c.has g w = false := by
  have hg := List.all_eq_true.1 h g.slot (slot_mem_groups g)
  rwa [has_slot, Bool.not_eq_true'] at hg

omit [Time τ] in
theorem isOpen_congr {w v : World τ} (h : v.apis = w.apis) (c : Connection) : c.isOpen v = c.isOpen w := by
  simp only [isOpen, has_congr h]

omit [Time τ] in
theorem isClosed_congr {w v : World τ} (h : v.apis = w.apis) (c : Connection) : c.isClosed v = c.isClosed w := by
  simp only [isClosed, has_congr h]

/-- Nothing can be asked through an API that the connection does not hold. -/
def require (c : Connection) (g : Group) : Op τ Unit := fun w =>
  if c.has g w then (.ok (), w) else (.error (.runtime "Cluster connection not initialized"), w)

def send (c : Connection) (r : Request) : Op τ Value := do
  c.require r.endpoint.group
  Op.request r

/-! ## Opening -/

def loadFile (path : Value) (context : Option String) : Op τ Value :=
  Op.request ⟨⟨.loader, "load_kube_config"⟩, [("config_file", path), ("context", .ofOption context)]⟩

def credentials (text : String) : Op τ (List UInt8) :=
  Op.ofExcept <| (Text.Base64.decode text).mapError fun
    | .nonAscii => .argument Text.Base64.Problem.nonAscii.message
    | p => .encoding p.message

/-- Inside the cluster nothing else is looked at; credentials given as text go before a path. -/
def load (id : Nat) (config : Config) : Op τ Value :=
  if config.inCluster then Op.request ⟨⟨.loader, "load_incluster_config"⟩, []⟩
  else match config.kubeconfigData with
    | none | some "" => loadFile (.ofOption config.kubeconfigPath) config.context
    | some text => do
      let bytes ← credentials text
      Op.update (·.keepFile id bytes)
      Op.update (·.learnPath id)
      loadFile (temporaryPath bytes) config.context

/-- The address that was loaded, or the one that is used without one. -/
def hostText (loaded : Value) : String :=
  let host := loaded.field? "host"
  if host.isNull then "http://localhost" else host.text

/-! ## Closing -/

/-- The path of the temporary file is known, and the file exists. -/
def hasFile (c : Connection) (w : World τ) : Bool :=
  w.paths.contains c.id && w.files.any fun (owner, _) => owner == c.id

def acquire (c : Connection) (g : Group) : Op τ Unit := Op.update (·.addApi c.id g)

def release (c : Connection) (g : Group) : Op τ Unit := Op.update (·.dropApi c.id g)

def removeFile (c : Connection) : Op τ Unit := do
  if ← Op.read c.hasFile then
    Op.update (·.dropFile c.id)
    Op.update (·.forgetPath c.id)

/-- The transport goes first. If it cannot be closed, the connection keeps all that it holds. -/
def close (c : Connection) : Op τ Unit := do
  if ← Op.read (c.has .transport) then
    let _ ← Op.request ⟨⟨.transport, "close"⟩, []⟩
    c.release .transport
  c.removeFile
  requestGroups.forM c.release

/-- Loads, and then takes hold of the APIs. -/
def setUp (c : Connection) : Op τ Value := do
  let loaded ← load c.id c.config
  groups.forM c.acquire
  pure loaded

/-- A new connection, which holds nothing. -/
def blank (config : Config) : Op τ Connection := do
  let id ← Op.fresh
  Op.update (·.clear id)
  pure ⟨id, config⟩

/-- A connection that cannot be set up is closed, and with that leaves no file behind. -/
def connect (config : Config) : Op τ Connection := do
  let c ← blank config
  let loaded ← c.setUp.orElse fun e => do
    c.close
    Op.fail (.connecting ("Failed to initialize cluster connection: " ++ e.message) (some e))
  Op.log .info ("Connected to cluster " ++ config.name ++ " at " ++ hostText loaded)
  pure c

/-! ## Use -/

/-- A connection for a single use, which is over. -/
def used (config : Config) : Op τ Connection := do
  let c ← connect config
  c.close
  pure c

/-- Access to a group by its name. -/
def access (c : Connection) (label : String) : Op τ Group :=
  match groups.find? fun g => g.label == label with
  | none => Op.fail (.malformed .field)
  | some g => do
    c.require g
    pure g

def version (c : Connection) : Op τ Value := do
  Op.look ((← c.send ⟨⟨.version, "get_code"⟩, []⟩).field "git_version")

end Connection

/-- The world in which the connection with the number 0 is open, and no other one. -/
def World.connected {τ : Type} (w : World τ) : World τ := { w with apis := Connection.groups.map (0, ·) }

end ClusterControl
