import ClusterControl.Mesh.Linkerd
import ClusterControl.Proofs.Cluster.Resources
import ClusterControl.Time.Rational

/-!
# The order of an installation

The requests of an installation that change what the cluster stores are a prefix of one plan, wherever the
run stops and whatever the cluster answers. A run that returns has carried out the whole plan and has seen
the job end well.
-/

namespace ClusterControl

variable {τ : Type}

namespace Linkerd

open Op Resource

/-! ## The requests -/

def namespaceRead : Request := ⟨⟨.core, "read_namespace"⟩, [("name", "linkerd")]⟩

/-- The namespace is created with the label by which its creator is known. -/
def namespaceCreation : Request :=
  ⟨⟨.core, "create_namespace"⟩, [("body", .obj [("metadata", .obj
    [("name", "linkerd"), ("labels", .obj [("app.kubernetes.io/managed-by", "paas")]),
      ("annotations", .obj [("linkerd.io/inject", "enabled")])])])]⟩

def jobRead (job : Value) : Request := ⟨⟨.batch, "read_namespaced_job"⟩, [("name", job), ("namespace", "linkerd")]⟩

/-- What depends on the job is deleted after it. -/
def jobDeletion (job : Value) : Request :=
  ⟨⟨.batch, "delete_namespaced_job"⟩,
    [("name", job), ("namespace", "linkerd"), ("propagation_policy", "Background")]⟩

def jobCreation (ns job : Value) : Request := ⟨⟨.batch, "create_namespaced_job"⟩, [("body", job), ("namespace", ns)]⟩

theorem createRequest_namespace : createRequest .namespaceKind .null (Cluster.namespaceBody id
    (.obj [(Cluster.managedByLabel, Cluster.managedByValue)]) (.obj [("linkerd.io/inject", "enabled")])) =
    namespaceCreation := rfl

theorem mutates_namespaceRead : namespaceRead.mutates = false := mutates_readRequest .namespaceKind .null id

theorem mutates_jobRead (job : Value) : (jobRead job).mutates = false := mutates_readRequest .job id job

theorem mutates_jobCreation (ns job : Value) : (jobCreation ns job).mutates = true :=
  mutates_createRequest .job ns job

theorem deletes_namespaceCreation : namespaceCreation.deletes = false :=
  deletes_createRequest .namespaceKind .null _

theorem deletes_jobCreation (ns job : Value) : (jobCreation ns job).deletes = false :=
  deletes_createRequest .job ns job

/-! ## The plan -/

/-- The mutating requests of a whole installation: the creation of an absent namespace, that of the roles,
and then the replacement of the job. -/
def plan (d : Linkerd τ) (absent : Bool) (creations : List Request) (job : String) : List Request :=
  (if absent then [namespaceCreation] else []) ++
    (creations ++ [jobDeletion job, jobCreation "linkerd" d.installJob])

/-- The job is created and after that only read. Some read shows that it ended, and the last one that it
did not fail. -/
inductive EndsWell (d : Linkerd τ) (job : String) : List (Exchange τ) → Prop where
  | intro {x last : Exchange τ} {reads : List (Exchange τ)} {v : Value} :
      x.request = jobCreation "linkerd" d.installJob →
      (∀ y ∈ reads ++ [last], y.request = jobRead job) →
      (∃ y ∈ reads, ∃ u, y.outcome = .ok u ∧ u.Reports ["Failed", "Complete"]) →
      last.outcome = .ok v → ¬ v.Reports ["Failed"] → EndsWell d job (x :: (reads ++ [last]))

/-- How the exchanges of a run fit its plan and its outcome. -/
structure Follows (d : Linkerd τ) (upgrading : Bool) (creations : List Request) (job : String)
    (xs : List (Exchange τ)) (o : Except (Failure τ) Unit) : Prop where
  reads : ∀ x ∈ xs.take 2, x.request = namespaceRead
  /-- Nothing is changed if the first read does not find things as they must be. -/
  idle : ∀ x, xs[0]? = some x → x.absent = upgrading → mutationsOf xs = []
  /-- Whether the namespace is created depends on the second read. -/
  isPrefix : mutationsOf xs <+: d.plan (xs[1]?.any Exchange.absent) creations job
  whole : o = .ok () → mutationsOf xs = d.plan (xs[1]?.any Exchange.absent) creations job
  endsWell : o = .ok () → ∃ front rest, xs = front ++ rest ∧ d.EndsWell job rest

variable [Time τ]

/-- A deployment, or an upgrade of what was deployed. -/
def installation (d : Linkerd τ) (c : Cluster τ) (upgrading : Bool) : Op τ Unit :=
  if upgrading then d.upgrade c else d.deploy c false

/-! ## The namespace -/

theorem emits_namespaceExists (c : Cluster τ) :
    (c.namespaceExists id).Emits (.asks namespaceRead fun o => (found o).bind fun a => .ok a.isSome) :=
  (emits_get c.connection .namespaceKind .null id).asks_bind fun a => emits_pure a.isSome

omit [Time τ] in
theorem absent_of_exists {x : Exchange τ} {b : Bool}
    (h : .ok b = (found x.outcome).bind fun a => .ok a.isSome) : x.absent = !b := by
  unfold Exchange.absent
  cases ho : x.outcome with
  | ok v =>
      simp only [ho, found, Except.bind] at h
      obtain rfl := Except.ok.inj h
      cases hv : v.isNull <;> simp [hv]
  | error e =>
      simp only [ho, found] at h
      cases he : e.isNotFound with
      | true =>
          simp only [he, if_true, Except.bind] at h
          obtain rfl := Except.ok.inj h
          exact he
      | false => simp only [he] at h; cases h

/-- The namespace is read first, and what follows depends on whether it is absent. -/
inductive AfterRead (T : Bool → Trace τ Unit) : Trace τ Unit where
  | unread {e : Failure τ} : AfterRead T [] (.error e)
  | read {x : Exchange τ} {ys : List (Exchange τ)} {o : Except (Failure τ) Unit} :
      x.request = namespaceRead → T x.absent ys o → AfterRead T (x :: ys) o

theorem emits_afterRead (c : Cluster τ) {f : Bool → Op τ Unit} {T : Bool → Trace τ Unit}
    (hf : ∀ absent, (f !absent).Emits (T absent)) (hT : ∀ absent e, T absent [] (.error e)) :
    (c.namespaceExists id >>= f).Emits (AfterRead T) := by
  have hf' (there : Bool) : (f there).Emits (T !there) := by
    have h := hf !there
    rwa [Bool.not_not] at h
  refine ((emits_namespaceExists c).asks_andThen hf').mono fun xs o h => ?_
  cases h with
  | unasked => exact .unread
  | stopped hx _ => exact .read hx (hT _ _)
  | onward hx hthere hrest =>
      refine .read hx ?_
      rw [absent_of_exists hthere.symm]
      exact hrest

theorem emits_createNamespace (c : Cluster τ) : (createNamespace c).Emits
    (AfterRead fun absent => .follows (if absent then [namespaceCreation] else [])) := by
  refine emits_afterRead c (fun absent => ?_) fun _ _ => ⟨List.nil_prefix, fun a ha => by cases ha⟩
  cases absent with
  | false => exact (emits_pure ()).mono fun _ _ => Trace.follows_silent
  | true =>
      obtain ⟨_, h⟩ := c.emits_createNamespace id
        (.obj [(Cluster.managedByLabel, Cluster.managedByValue)]) (.obj [("linkerd.io/inject", "enabled")])
      exact (h.asks_bind fun _ => emits_pure ()).mono
        fun _ _ => Trace.asks.follows (mutates_createRequest _ _ _)

/-! ## The job -/

/-- A failure of a step, as it is reported. -/
def reported (what : String) (e : Failure τ) : Failure τ :=
  if e.isCluster then .cluster (what ++ ": " ++ e.message) (some e) else e

theorem step_eq {α : Type} (what : String) (x : Op τ α) : step what x = x.onFailure fun e => fail (reported what e) :=
  congrArg x.onFailure (funext fun _ => (apply_ite fail _ _ _).symm)

theorem emits_step {α : Type} {x : Op τ α} {T : Trace τ α} (what : String) (h : x.Emits T) :
    (step what x).Emits fun xs o => ∃ r, T xs r ∧ o = r.mapError (reported what) := by
  rw [step_eq]
  refine (h.onFailure_silent fun e => emits_fail (reported what e)).mono ?_
  rintro xs _ ⟨r, ht, rfl⟩
  exact ⟨r, ht, by cases r <;> rfl⟩

/-- What is known when the job has been followed to its end: it was only read, and a success is due to the reads. -/
structure Concludes (job : String) (xs : List (Exchange τ)) (o : Except (Failure τ) Unit) : Prop where
  reads : ∀ x ∈ xs, x.request = jobRead job
  endsWell : o = .ok () → ∃ reads last v, xs = reads ++ [last] ∧
    (∃ y ∈ reads, ∃ u, y.outcome = .ok u ∧ u.Reports ["Failed", "Complete"]) ∧
    last.outcome = .ok v ∧ ¬ v.Reports ["Failed"]

theorem emits_conclude (d : Linkerd τ) (c : Cluster τ) (job : String) :
    (d.conclude c job).Emits (Concludes job) := by
  have hend (failed : Bool) : (if failed
      then Op.fail (.cluster ("Linkerd install job " ++ (job : Value).text ++ " failed") none)
      else Op.log .info "Linkerd deployed" : Op τ Unit).Emits fun xs o =>
        xs = [] ∧ (o = .ok () → failed = false) := by
    cases failed with
    | true => exact (emits_fail _).mono fun xs o ⟨hx, ho⟩ => ⟨hx, fun h => by rw [ho] at h; cases h⟩
    | false => exact (emits_log _ _).mono fun xs o ⟨hx, _⟩ => ⟨hx, fun _ => rfl⟩
  have hfailed := (c.emits_jobFailed id job).bind hend
  refine ((emits_step _ (c.emits_awaitJobDone id job d.limits)).bind fun _ => hfailed).mono fun xs o h => ?_
  cases h with
  | stopped hwait =>
      obtain ⟨_, hwait, _⟩ := hwait
      exact ⟨hwait.1, fun ho => by cases ho⟩
  | onward hwait hrest =>
      obtain ⟨r, hwait, hr⟩ := hwait
      cases hrest with
      | stopped hlook => exact ⟨fun x hx => (List.mem_append.1 hx).elim (hwait.1 x) (hlook.1 x), fun ho => by cases ho⟩
      | onward hlook hends =>
          obtain ⟨rfl, hno⟩ := hends
          rw [List.append_nil]
          refine ⟨fun x hx => (List.mem_append.1 hx).elim (hwait.1 x) (hlook.1 x), fun ho => ?_⟩
          obtain ⟨last, v, rfl, hv, hfailed⟩ := hlook.2 _ rfl
          refine ⟨_, last, v, rfl, hwait.2 (ok_of_mapError hr), hv, fun hreports => ?_⟩
          rw [hfailed.2 hreports] at hno
          cases hno ho

theorem emits_createJob_conclude (d : Linkerd τ) (c : Cluster τ) (job : String) :
    Emits (do let _ ← c.createJob id (.manifest d.installJob); d.conclude c job) fun xs o =>
      Trace.follows [jobCreation "linkerd" d.installJob] xs o ∧ Trace.concludes (d.EndsWell job) xs o := by
  have hmutations {x : Exchange τ} {reads : List (Exchange τ)}
      (hx : x.request = jobCreation "linkerd" d.installJob) (hreads : ∀ y ∈ reads, y.request = jobRead job) :
      mutationsOf (x :: reads) = [jobCreation "linkerd" d.installJob] := by
    have hnone : mutationsOf reads = [] := mutationsOf_eq_nil fun y hy => by
      rw [hreads y hy]
      exact mutates_jobRead job
    rw [mutationsOf_cons, hx, if_pos (mutates_jobCreation _ _), hnone]
  obtain ⟨_, hcreate⟩ := c.emits_createBody .job "create job" id (.manifest d.installJob)
  refine (hcreate.asks_andThen fun _ => d.emits_conclude c job).mono fun xs o h => ?_
  cases h with
  | unasked => exact ⟨⟨List.nil_prefix, fun a ha => by cases ha⟩, fun a ha => by cases ha⟩
  | stopped hx _ =>
      rw [Trace.follows, hmutations hx (List.forall_mem_nil _)]
      exact ⟨⟨List.prefix_rfl, fun _ _ => rfl⟩, fun a ha => by cases ha⟩
  | onward hx _ hconcludes =>
      rw [Trace.follows, hmutations hx hconcludes.reads]
      refine ⟨⟨List.prefix_rfl, fun _ _ => rfl⟩, fun u ho => ?_⟩
      obtain ⟨reads, last, v, rfl, hended, hv, hno⟩ := hconcludes.endsWell ho
      exact ⟨[], _, rfl, .intro hx hconcludes.reads hended hv hno⟩

/-! ## Runs -/

/-- After the second read the run follows the plan, and if it succeeds the job ends well. -/
def installing (d : Linkerd τ) (creations : List Request) (job : String) (absent : Bool) : Trace τ Unit :=
  fun xs o => Trace.follows (d.plan absent creations job) xs o ∧ Trace.concludes (d.EndsWell job) xs o

theorem install_eq {d : Linkerd τ} {job : String} (h : Manifest.name d.installJob = .ok (.str job)) (c : Cluster τ) :
    d.install c = (do createNamespace c; c.applyManifests d.uninstallNs d.roles; d.replaceJob c job) := by
  simp only [install, h]
  rfl

theorem emits_install {d : Linkerd τ} {creations : List Request} {job : String}
    (hroles : List.Forall₂ (Manifest.Creates d.uninstallNs) d.roles creations)
    (hjob : Manifest.name d.installJob = .ok (.str job)) (c : Cluster τ) :
    (d.install c).Emits (AfterRead (d.installing creations job)) := by
  rw [install_eq hjob]
  -- After the second read the same parts give the order of the mutations and the end of the run.
  have hrest := (c.follows_applyManifests hroles).follows_bind fun _ =>
    (c.follows_deleteJob id job).follows_bind fun _ =>
      (d.emits_createJob_conclude c job).mono fun _ _ h => h.1
  have hend := (c.follows_applyManifests hroles).concludes_bind fun _ =>
    (c.follows_deleteJob id job).concludes_bind fun _ =>
      (d.emits_createJob_conclude c job).mono fun _ _ h => h.2
  refine ((emits_createNamespace c).bind fun _ => hrest.and hend).mono fun xs o h => ?_
  cases h with
  | stopped hfirst =>
      cases hfirst with
      | unread => exact .unread
      | read hx hfollows =>
          refine .read hx ⟨⟨?_, fun a ha => by cases ha⟩, fun a ha => by cases ha⟩
          exact hfollows.1.trans (List.prefix_append _ _)
  | onward hfirst hz =>
      cases hfirst with
      | read hx hfollows =>
          refine .read hx ⟨Trace.follows.andThen (.onward hfollows hz.1), fun u hu => ?_⟩
          obtain ⟨front, rest, rfl, hend⟩ := hz.2 u hu
          exact ⟨_ ++ front, rest, (List.append_assoc _ front rest).symm, hend⟩

/-- The run goes on only where the first read finds the namespace as it must be. -/
inductive Entering (d : Linkerd τ) (upgrading : Bool) (creations : List Request) (job : String) (absent : Bool) :
    Trace τ Unit where
  | refused {e : Failure τ} : Entering d upgrading creations job absent [] (.error e)
  | entered {xs : List (Exchange τ)} {o : Except (Failure τ) Unit} :
      absent ≠ upgrading → AfterRead (d.installing creations job) xs o →
      Entering d upgrading creations job absent xs o

theorem installation_eq (d : Linkerd τ) (c : Cluster τ) (upgrading : Bool) :
    ∃ (message : String) (e : Failure τ), d.installation c upgrading = (do
      let there ← c.namespaceExists id
      if there = upgrading then do
        Op.log .info message
        d.install c
      else Op.fail e) := by
  cases upgrading with
  | true => exact ⟨_, _, rfl⟩
  | false =>
      refine ⟨"Deploying Linkerd...", .cluster ("Namespace " ++ id ++ " present already") none, ?_⟩
      refine congrArg (c.namespaceExists id >>= ·) (funext fun there => ?_)
      cases there <;> rfl

omit [Time τ] in
theorem mutationsOf_reads {xs : List (Exchange τ)} (h : ∀ x ∈ xs, x.request = namespaceRead) :
    mutationsOf xs = [] :=
  mutationsOf_eq_nil fun x hx => by rw [h x hx]; exact mutates_namespaceRead

omit [Time τ] in
theorem follows_of_reads {d : Linkerd τ} {upgrading : Bool} {creations : List Request} {job : String}
    {xs : List (Exchange τ)} {e : Failure τ} (h : ∀ x ∈ xs, x.request = namespaceRead) :
    d.Follows upgrading creations job xs (.error e) := by
  have hnone := mutationsOf_reads h
  refine ⟨fun x hx => h x (List.mem_of_mem_take hx), fun _ _ _ => hnone, ?_, ?_, ?_⟩
  · rw [hnone]
    exact List.nil_prefix
  · exact fun ho => by cases ho
  · exact fun ho => by cases ho

omit [Time τ] in
theorem follows_of_installing {d : Linkerd τ} {upgrading : Bool} {creations : List Request} {job : String}
    {x y : Exchange τ} {ys : List (Exchange τ)} {o : Except (Failure τ) Unit}
    (hx : x.request = namespaceRead) (hgo : x.absent ≠ upgrading) (hy : y.request = namespaceRead)
    (h : d.installing creations job y.absent ys o) :
    d.Follows upgrading creations job (x :: y :: ys) o := by
  have hmutations : mutationsOf (x :: y :: ys) = mutationsOf ys := by
    rw [mutationsOf_cons, mutationsOf_cons, hx, hy]
    rfl
  refine ⟨?_, ?_, ?_, ?_, ?_⟩
  · simp [hx, hy]
  · rintro _ ⟨⟩ hno
    exact absurd hno hgo
  · rw [hmutations]
    exact h.1.1
  · rintro rfl
    rw [hmutations]
    exact h.1.2 () rfl
  · rintro rfl
    obtain ⟨front, rest, rfl, hend⟩ := h.2 () rfl
    exact ⟨x :: y :: front, rest, rfl, hend⟩

theorem emits_installation {d : Linkerd τ} {creations : List Request} {job : String}
    (hroles : List.Forall₂ (Manifest.Creates d.uninstallNs) d.roles creations)
    (hjob : Manifest.name d.installJob = .ok (.str job)) (c : Cluster τ) (upgrading : Bool) :
    (d.installation c upgrading).Emits (d.Follows upgrading creations job) := by
  obtain ⟨message, e, heq⟩ := d.installation_eq c upgrading
  rw [heq]
  have hrest (absent : Bool) : Emits (if (!absent) = upgrading then do Op.log .info message; d.install c
      else Op.fail e) (d.Entering upgrading creations job absent) := by
    split
    · rename_i hgo
      refine ((emits_install hroles hjob c).log_bind .info message).mono fun xs o h => .entered ?_ h
      simp [← hgo]
    · refine (emits_fail e).mono ?_
      rintro _ _ ⟨rfl, rfl⟩
      exact .refused
  refine (emits_afterRead c hrest fun _ _ => .refused).mono fun xs o h => ?_
  cases h with
  | unread => exact follows_of_reads (List.forall_mem_nil _)
  | read hx henters =>
      cases henters with
      | refused => exact follows_of_reads (List.forall_mem_singleton.2 hx)
      | entered hgo hinstall =>
          cases hinstall with
          | unread => exact follows_of_reads (List.forall_mem_singleton.2 hx)
          | read hy hinstalls => exact follows_of_installing hx hgo hy hinstalls

/-- A deployment or an upgrade, whose job is described and whose roles are as well and of supported kinds. Each role
has one request that creates it, the job has a name, and in every world and through every connection the run follows the
plan that these make. -/
theorem installation_follows_plan (d : Linkerd τ) {metadata : List (String × Value)}
    (hjob : Manifest.Described d.installJob metadata) (hroles : ∀ m ∈ d.roles, Manifest.Supported m) :
    ∃ creations job, List.Forall₂ (Manifest.Creates d.uninstallNs) d.roles creations ∧
      (metadata.lookup "name").getD "" = .str job ∧
      ∀ (c : Cluster τ) (upgrading : Bool),
        (d.installation c upgrading).Emits (d.Follows upgrading creations job) := by
  obtain ⟨job, hname, hread⟩ := hjob.exists_name
  obtain ⟨creations, hcreations⟩ := exists_forall₂ fun m hm => (hroles m hm).exists_creation d.uninstallNs
  exact ⟨creations, job, hcreations, hname, emits_installation hcreations hread⟩

def oneRole : Linkerd Rat where
  installJob := .obj [("metadata", .obj [("name", "linkerd-install")])]
  uninstallJob := .obj [("metadata", .obj [])]
  roles := [.obj [("kind", "ServiceAccount"), ("metadata", .obj [("namespace", "jobs")])]]

/-- A cluster without the namespace, where every job completes. -/
def completing : World Rat :=
  (World.initial [(Kind.job.endpoint .read id, [⟨.ok (.obj [("status", .obj [("conditions",
      .list [.obj [("type", "Complete"), ("status", "True")]])])]), 0⟩])] []).connected

theorem supported_oneRole : ∀ m ∈ oneRole.roles, Manifest.Supported m := by
  intro m hm
  obtain rfl := List.mem_singleton.1 hm
  exact ⟨⟨_, rfl, fun v hv => by cases hv⟩, _, rfl⟩

/-- A deployment with one role that succeeds. -/
theorem installation_follows_plan_of_oneRole :
    let run := oneRole.installation .watchful false completing
    run.1 = .ok () ∧ ∃ creations xs, run.2.exchanges = completing.exchanges ++ xs ∧
      List.Forall₂ (Manifest.Creates "default") oneRole.roles creations ∧
      mutationsOf xs = oneRole.plan true creations "linkerd-install" ∧
      oneRole.Follows false creations "linkerd-install" xs run.1 := by
  intro run
  have hjob : Manifest.Described oneRole.installJob [("name", "linkerd-install")] :=
    ⟨rfl, fun v hv => ⟨"linkerd-install", (Option.some.inj hv).symm⟩⟩
  obtain ⟨creations, job, hcreations, hname, hrun⟩ := installation_follows_plan oneRole hjob supported_oneRole
  obtain rfl : "linkerd-install" = job := Value.str.inj hname
  obtain ⟨xs, hxs, hfollows⟩ := hrun .watchful false completing
  have hok : run.1 = .ok () := eq_ok_of_isOk (by decide +kernel)
  have hsecond : xs[1]?.any Exchange.absent = true := by
    have hexchanges : run.2.exchanges = xs := hxs
    rw [← hexchanges]
    decide +kernel
  refine ⟨hok, creations, xs, hxs, hcreations, ?_, hfollows⟩
  rw [hfollows.whole hok, hsecond]

end Linkerd

end ClusterControl
