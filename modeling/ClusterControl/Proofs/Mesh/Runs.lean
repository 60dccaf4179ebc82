import ClusterControl.Proofs.Mesh.Removal

/-!
# Runs of the mesh

What a run does is described whatever the manifests are. An installation prepares first: it reads, and creates
the namespace and the roles. Then it replaces its job, which is all that it deletes.
-/

namespace ClusterControl.Linkerd

variable {τ α : Type}

open Op Resource

/-! ## Runs -/

inductive Action where
  | deploy (skip : Bool)
  | upgrade
  | delete
  deriving Repr, DecidableEq

def perform [Time τ] (d : Linkerd τ) (c : Cluster τ) : Action → Op τ Unit
  | .deploy skip => d.deploy c skip
  | .upgrade => d.upgrade c
  | .delete => d.delete c

/-- A run in the world in which it begins. What happened between two runs is left open. -/
structure Run (τ : Type) where
  action : Action
  cluster : Cluster τ
  world : World τ

/-! ## Installations of any shape -/

/-- What an installation may ask before it replaces its job. -/
def Prepares (d : Linkerd τ) (r : Request) : Prop :=
  r.mutates = false ∨ r = namespaceCreation ∨ ∃ m ∈ d.roles, Manifest.MayCreate m r

/-- The job is deleted, then created, and after that nothing is changed. -/
inductive Replacing (d : Linkerd τ) (job : Value) : List (Exchange τ) → Prop where
  | closed : Replacing d job []
  | deleted {y : Exchange τ} : y.request = jobDeletion job → Replacing d job [y]
  | created {y z : Exchange τ} {reads : List (Exchange τ)} :
      y.request = jobDeletion job → z.request = jobCreation "linkerd" d.installJob →
      (∀ x ∈ reads, x.request.mutates = false) → Replacing d job (y :: z :: reads)

/-- Whatever the job and the roles are, an installation prepares and then replaces the job. -/
def Installing (d : Linkerd τ) (xs : List (Exchange τ)) : Prop :=
  ∃ before after, xs = before ++ after ∧ (∀ x ∈ before, d.Prepares x.request) ∧
    (after = [] ∨ ∃ job, Manifest.name d.installJob = .ok job ∧ d.Replacing job after)

theorem Installing.of_preparing {d : Linkerd τ} {xs : List (Exchange τ)}
    (h : ∀ x ∈ xs, d.Prepares x.request) : d.Installing xs :=
  ⟨xs, [], (List.append_nil xs).symm, h, .inl rfl⟩

theorem Installing.of_nothing {d : Linkerd τ} : d.Installing [] := .of_preparing (List.forall_mem_nil _)

theorem Installing.prepend {d : Linkerd τ} {xs ys : List (Exchange τ)} (h : d.Installing ys)
    (hxs : ∀ x ∈ xs, d.Prepares x.request) : d.Installing (xs ++ ys) := by
  obtain ⟨before, after, rfl, hbefore, hafter⟩ := h
  exact ⟨xs ++ before, after, (List.append_assoc xs before after).symm,
    fun x hx => (List.mem_append.1 hx).elim (hxs x) (hbefore x), hafter⟩

theorem Prepares.deletes {d : Linkerd τ} {r : Request} (h : d.Prepares r) :
    r.deletes = false := by
  rcases h with h | rfl | ⟨m, _, hcreates⟩
  · exact Request.deletes_of_mutates h
  · exact deletes_namespaceCreation
  · obtain ⟨k, ns, rfl⟩ := hcreates.eq_createRequest
    exact deletes_createRequest k ns m

theorem Replacing.deletes {d : Linkerd τ} {job : Value} {xs : List (Exchange τ)} {x : Exchange τ}
    (h : d.Replacing job xs) (hx : x ∈ xs) (hdelete : x.request.deletes = true) :
    x.request = jobDeletion job := by
  cases h with
  | closed => cases hx
  | deleted hy => rw [List.mem_singleton.1 hx, hy]
  | created hy hz hreads =>
      rcases List.mem_cons.1 hx with rfl | hx
      · exact hy
      · rcases List.mem_cons.1 hx with rfl | hx
        · rw [hz, deletes_jobCreation] at hdelete
          cases hdelete
        · rw [Request.deletes_of_mutates (hreads x hx)] at hdelete
          cases hdelete

/-- An installation deletes no role: what it deletes is its job, and with the dependents of the job. -/
theorem Installing.keeps_roles {d : Linkerd τ} {xs : List (Exchange τ)} (h : d.Installing xs) (k : Kind)
    (ns name : Value) : deleteRequest k ns name .null ∉ xs.map Exchange.request := by
  intro hmem
  obtain ⟨x, hx, hr⟩ := List.mem_map.1 hmem
  have hdelete : x.request.deletes = true := hr ▸ deletes_deleteRequest k ns name .null
  obtain ⟨before, after, rfl, hbefore, hafter⟩ := h
  rcases List.mem_append.1 hx with hx | hx
  · rw [(hbefore x hx).deletes] at hdelete
    cases hdelete
  · rcases hafter with rfl | ⟨job, _, hreplacing⟩
    · cases hx
    · have hpolicy : (deleteRequest k ns name .null).arg "propagation_policy" = "Background" := by
        rw [← hr, hreplacing.deletes hx hdelete]
        rfl
      simp [policy_deleteRequest] at hpolicy

variable [Time τ]

theorem prepares_createNamespace (d : Linkerd τ) (c : Cluster τ) :
    (createNamespace c).Emits (.only d.Prepares) := by
  refine (emits_createNamespace c).mono fun xs o h => ?_
  cases h with
  | unread => exact List.forall_mem_nil _
  | read hx hfollows =>
      refine List.forall_mem_cons.2 ⟨.inl (hx ▸ mutates_namespaceRead), fun y hy => ?_⟩
      rcases hfollows.only y hy with hread | hmem
      · exact .inl hread
      · refine .inr (.inl ?_)
        split at hmem
        · exact List.mem_singleton.1 hmem
        · cases hmem

omit [Time τ] in
theorem installing_bind {d : Linkerd τ} {x : Op τ α} {f : α → Op τ Unit} (hx : x.Emits (.only d.Prepares))
    (hf : ∀ a, (f a).Emits fun xs _ => d.Installing xs) : (x >>= f).Emits fun xs _ => d.Installing xs := by
  refine (hx.bind hf).mono fun xs o h => ?_
  cases h with
  | stopped hprepares => exact .of_preparing hprepares
  | onward hprepares hinstalling => exact hinstalling.prepend hprepares

theorem only_conclude (d : Linkerd τ) (c : Cluster τ) (job : Value) :
    (d.conclude c job).Emits (.only fun r => r.mutates = false) := by
  have hwait := (emits_step "failed waiting Linkerd install job to complete"
    (c.only_awaitJobDone id job d.limits)).mono fun _ _ ⟨_, h, _⟩ => h
  refine hwait.only_bind fun _ => (c.only_jobFailed id job).only_bind fun failed => ?_
  cases failed with
  | true => exact (emits_fail _).mono fun _ _ => Trace.only_silent
  | false => exact (emits_log _ _).mono fun _ _ => Trace.only_silent

theorem emits_replaceJob (d : Linkerd τ) (c : Cluster τ) (job : Value) :
    (d.replaceJob c job).Emits fun xs _ => d.Replacing job xs := by
  obtain ⟨_, hdelete⟩ := c.emits_deleteJob id job
  obtain ⟨_, hcreate⟩ := c.emits_createBody .job "create job" id (.manifest d.installJob)
  refine (hdelete.asks_andThen fun _ => hcreate.asks_andThen fun _ => d.only_conclude c job).mono fun xs o h => ?_
  cases h with
  | unasked => exact .closed
  | stopped hy _ => exact .deleted hy
  | onward hy _ hrest =>
      cases hrest with
      | unasked => exact .deleted hy
      | stopped hz _ => exact .created hy hz (List.forall_mem_nil _)
      | onward hz _ hreads => exact .created hy hz hreads

theorem emits_install_installing (d : Linkerd τ) (c : Cluster τ) :
    (d.install c).Emits fun xs _ => d.Installing xs := by
  have hroles : (c.applyManifests d.uninstallNs d.roles).Emits (.only d.Prepares) :=
    (c.only_applyManifests d.uninstallNs d.roles).mono fun _ _ h x hx => .inr (.inr (h x hx))
  have hjob : Emits (do d.replaceJob c (← Op.look (Manifest.name d.installJob))) fun xs _ => d.Installing xs := by
    refine ((emits_look (Manifest.name d.installJob)).bind (d.emits_replaceJob c)).mono fun xs o h => ?_
    cases h with
    | stopped hlook =>
        obtain rfl := hlook.1
        exact .of_nothing
    | onward hlook hreplacing =>
        obtain ⟨rfl, hname⟩ := hlook
        exact ⟨[], _, rfl, List.forall_mem_nil _, .inr ⟨_, hname _ rfl, hreplacing⟩⟩
  exact installing_bind (d.prepares_createNamespace c) fun _ => installing_bind hroles fun _ => hjob

theorem emits_perform_installing (d : Linkerd τ) (c : Cluster τ) {a : Action} (ha : a ≠ .delete) :
    (d.perform c a).Emits fun xs _ => d.Installing xs := by
  have hinstallation (upgrading : Bool) : (d.installation c upgrading).Emits fun xs _ => d.Installing xs := by
    obtain ⟨message, e, heq⟩ := d.installation_eq c upgrading
    rw [heq]
    have hrest (there : Bool) : Emits (if there = upgrading then do Op.log .info message; d.install c
        else Op.fail e) fun xs _ => d.Installing xs := by
      split
      · exact (d.emits_install_installing c).log_bind .info message
      · refine (emits_fail e).mono ?_
        rintro xs o ⟨rfl, _⟩
        exact .of_nothing
    have hread : (c.namespaceExists id).Emits (.only d.Prepares) :=
      (emits_namespaceExists c).mono fun _ _ h => h.only (.inl mutates_namespaceRead)
    exact installing_bind hread hrest
  cases a with
  | deploy skip =>
      cases skip with
      | true =>
          refine (emits_log .info "Skipping Linkerd deployment by user request").mono ?_
          rintro xs o ⟨rfl, _⟩
          exact .of_nothing
      | false => exact hinstallation false
  | upgrade => exact hinstallation true
  | delete => exact absurd rfl ha

/-! ## What a run adds to the history -/

def result (d : Linkerd τ) (r : Run τ) : Except (Failure τ) Unit × World τ :=
  d.perform r.cluster r.action r.world

def exchangesOf (d : Linkerd τ) (r : Run τ) : List (Exchange τ) :=
  (d.result r).2.exchanges.drop r.world.exchanges.length

def requestsOf (d : Linkerd τ) (r : Run τ) : List Request := (d.exchangesOf r).map Exchange.request

theorem trace_of_emits {d : Linkerd τ} {r : Run τ} {T : Trace τ Unit}
    (h : (d.perform r.cluster r.action).Emits T) : T (d.exchangesOf r) (d.result r).1 := by
  obtain ⟨xs, hxs, ht⟩ := h r.world
  rw [exchangesOf, result, hxs, List.drop_left]
  exact ht

end ClusterControl.Linkerd
