import ClusterControl.Proofs.Mesh.Runs

/-!
# Jobs that earlier runs leave behind

An installation deletes a job of the same name before it creates its own. A removal creates its job without
that, so one that is still there from an earlier removal is in its way.
-/

namespace ClusterControl

/-! ## Requests for jobs -/

/-- The request creates a job. -/
def Request.createsJob (r : Request) : Prop := r.endpoint = ⟨.batch, "create_namespaced_job"⟩

/-- The request deletes the job that the other one creates. -/
def Request.clears (r s : Request) : Prop :=
  r.endpoint = ⟨.batch, "delete_namespaced_job"⟩ ∧ r.arg "namespace" = s.arg "namespace" ∧
    Manifest.name (s.arg "body") = .ok (r.arg "name")

namespace Resource

theorem not_createsJob_of_mutates {r : Request} (h : r.mutates = false) : ¬ r.createsJob := by
  intro hjob
  rw [Request.mutates, hjob] at h
  exact absurd h (by decide)

theorem not_createsJob_deleteRequest (k : Kind) (ns name policy : Value) :
    ¬ (deleteRequest k ns name policy).createsJob := by
  intro hjob
  have h := does_endpoint k .create .delete ns
  rw [show k.endpoint .delete ns = ⟨.batch, "create_namespaced_job"⟩ from hjob] at h
  exact absurd h (by decide)

end Resource

namespace Linkerd

variable {τ : Type}

open Op Resource

/-! ## Creations of jobs -/

theorem not_createsJob_jobDeletion (job : Value) : ¬ (jobDeletion job).createsJob :=
  not_createsJob_deleteRequest .job id job "Background"

theorem clears_jobDeletion {job body : Value} (h : Manifest.name body = .ok job) :
    (jobDeletion job).clears (jobCreation "linkerd" body) := by
  refine ⟨rfl, rfl, ?_⟩
  simpa [jobDeletion, jobCreation, Request.arg, List.lookup_cons] using h

theorem Prepares.creates_role {d : Linkerd τ} {r : Request} (h : d.Prepares r) (hjob : r.createsJob) :
    ∃ m ∈ d.roles, m.field? "kind" = .str "Job" ∧ r.arg "body" = m := by
  rcases h with h | rfl | ⟨m, hm, s, ns, hs, rfl⟩
  · exact absurd hjob (not_createsJob_of_mutates h)
  · cases congrArg Endpoint.group hjob
  · obtain ⟨hmem, hkind⟩ := Service.of?_eq_some hs
    refine ⟨m, hm, ?_, rfl⟩
    rw [hkind, Service.kind_of_batch s hmem (congrArg Endpoint.group hjob)]

theorem Replacing.cleared {d : Linkerd τ} {job : Value} {front back : List (Exchange τ)} {x : Exchange τ}
    (h : d.Replacing job (front ++ x :: back)) (hname : Manifest.name d.installJob = .ok job)
    (hx : x.request.createsJob) :
    x.request = jobCreation "linkerd" d.installJob ∧ ∃ y ∈ front, y.request.clears x.request := by
  generalize hxs : front ++ x :: back = xs at h
  cases h with
  | closed => simp at hxs
  | deleted hy =>
      cases front with
      | nil =>
          obtain rfl := (List.cons.inj hxs).1
          exact absurd (hy ▸ hx) (not_createsJob_jobDeletion job)
      | cons u front => simp at hxs
  | created hy hz hreads =>
      cases front with
      | nil =>
          obtain rfl := (List.cons.inj hxs).1
          exact absurd (hy ▸ hx) (not_createsJob_jobDeletion job)
      | cons u front =>
          obtain ⟨rfl, hrest⟩ := List.cons.inj hxs
          cases front with
          | nil =>
              obtain ⟨rfl, _⟩ := List.cons.inj hrest
              exact ⟨hz, u, List.mem_singleton_self u, by rw [hy, hz]; exact clears_jobDeletion hname⟩
          | cons v front =>
              obtain ⟨_, rfl⟩ := List.cons.inj hrest
              exact absurd hx (not_createsJob_of_mutates
                (hreads x (List.mem_append_right front List.mem_cons_self)))

/-- The jobs that an installation creates: its own, which is cleared first, and those among the roles. -/
theorem Installing.job_creation {d : Linkerd τ} {front back : List (Exchange τ)} {x : Exchange τ}
    (h : d.Installing (front ++ x :: back)) (hx : x.request.createsJob) :
    (x.request = jobCreation "linkerd" d.installJob ∧ ∃ y ∈ front, y.request.clears x.request) ∨
      (∃ m ∈ d.roles, m.field? "kind" = .str "Job" ∧ x.request.arg "body" = m) ∧
        ∀ y ∈ front, y.request.deletes = false := by
  obtain ⟨before, after, hsplit, hbefore, hafter⟩ := h
  rcases append_eq_split hsplit.symm with ⟨rest, rfl⟩ | ⟨more, rfl, rfl⟩
  · refine .inr ⟨(hbefore x (List.mem_append_right front List.mem_cons_self)).creates_role hx, ?_⟩
    exact fun y hy => (hbefore y (List.mem_append_left (x :: rest) hy)).deletes
  · rcases hafter with hnil | ⟨job, hname, hreplacing⟩
    · simp at hnil
    · obtain ⟨hown, y, hy, hclears⟩ := hreplacing.cleared hname hx
      exact .inl ⟨hown, y, List.mem_append_right before hy, hclears⟩

theorem not_createsJob_of_reads {xs : List (Exchange τ)} (h : ∀ x ∈ xs, x.request = namespaceRead) :
    ∀ x ∈ xs, ¬ x.request.createsJob := fun x hx =>
  not_createsJob_of_mutates (h x hx ▸ mutates_namespaceRead)

/-- A removal creates the job that removes the namespace, and changes nothing before. -/
theorem Removing.job_creation {d : Linkerd τ} {front back : List (Exchange τ)} {x : Exchange τ}
    {o : Except (Failure τ) Unit}
    (h : d.Removing (.only fun r => ¬ r.createsJob) (front ++ x :: back) o)
    (hx : x.request.createsJob) : x.request = d.removalJob ∧ ∀ y ∈ front, y.request.mutates = false := by
  have hmem : x ∈ front ++ x :: back := List.mem_append_right front List.mem_cons_self
  -- The job is the second thing asked for, and no job is created after it.
  have hsecond {u v : Exchange τ} {rest : List (Exchange τ)} (hu : u.request = namespaceRead)
      (hv : v.request = d.removalJob) (hrest : ∀ y ∈ rest, ¬ y.request.createsJob)
      (hxs : front ++ x :: back = u :: v :: rest) :
      x.request = d.removalJob ∧ ∀ y ∈ front, y.request.mutates = false := by
    cases front with
    | nil =>
        obtain rfl := (List.cons.inj hxs).1
        exact absurd hx (not_createsJob_of_mutates (hu ▸ mutates_namespaceRead))
    | cons a front =>
        obtain ⟨rfl, htail⟩ := List.cons.inj hxs
        cases front with
        | nil =>
            obtain ⟨rfl, _⟩ := List.cons.inj htail
            exact ⟨hv, List.forall_mem_singleton.2 (hu ▸ mutates_namespaceRead)⟩
        | cons b front =>
            obtain ⟨_, rfl⟩ := List.cons.inj htail
            exact absurd hx (hrest x (List.mem_append_right front List.mem_cons_self))
  generalize hxs : front ++ x :: back = xs at h hmem
  cases h with
  | broken e hreads => exact absurd hx (not_createsJob_of_reads hreads x hmem)
  | skipped hread _ =>
      rw [List.mem_singleton.1 hmem] at hx
      exact absurd hx (not_createsJob_of_mutates (hread ▸ mutates_namespaceRead))
  | managed hread _ hclear =>
      cases hclear with
      | closed e =>
          rw [List.mem_singleton.1 hmem] at hx
          exact absurd hx (not_createsJob_of_mutates (hread ▸ mutates_namespaceRead))
      | waiting e hjob hreads => exact hsecond hread hjob (not_createsJob_of_reads hreads) hxs
      | deleting hjob hreads _ hrest =>
          refine hsecond hread hjob (fun y hy => ?_) hxs
          exact (List.mem_append.1 hy).elim (not_createsJob_of_reads hreads y) (hrest y)

variable [Time τ]

/-- Every creation of a job in a run, whatever the manifests are. The job of an installation is created after
one of its name was deleted, and a job among the roles before anything was deleted. The job of a removal is
created before anything was changed. -/
theorem job_creations (d : Linkerd τ) (c : Cluster τ) (a : Action) :
    (d.perform c a).Emits fun xs _ => ∀ front x back, xs = front ++ x :: back → x.request.createsJob →
      if a = .delete then x.request = d.removalJob ∧ ∀ y ∈ front, y.request.mutates = false
      else (x.request = jobCreation "linkerd" d.installJob ∧ ∃ y ∈ front, y.request.clears x.request) ∨
        (∃ m ∈ d.roles, m.field? "kind" = .str "Job" ∧ x.request.arg "body" = m) ∧
          ∀ y ∈ front, y.request.deletes = false := by
  by_cases ha : a = .delete
  · subst ha
    have hdeletions : (c.deleteManifests d.uninstallNs d.roles).Emits (.only fun r => ¬ r.createsJob) := by
      refine (c.only_deleteManifests d.uninstallNs d.roles).mono fun xs o h x hx => ?_
      obtain ⟨k, ns, name, hr⟩ := h x hx
      exact hr ▸ not_createsJob_deleteRequest k ns name .null
    refine (emits_delete hdeletions).mono ?_
    rintro _ o h front x back rfl hx
    rw [if_pos rfl]
    exact h.job_creation hx
  · refine (d.emits_perform_installing c ha).mono ?_
    rintro _ o h front x back rfl hx
    rw [if_neg ha]
    exact h.job_creation hx

/-- A cluster with a managed namespace, where the job of an earlier removal is still there. -/
def blocked : World Rat :=
  let conflict : Response Rat := ⟨.error (.rejected ⟨.int 409, "AlreadyExists", .null⟩), 0⟩
  { clearing with script := clearing.script.put ⟨.batch, "create_namespaced_job"⟩ [conflict] }

/-- A removal that fails at a leftover job, which it did not delete. -/
theorem removal_meets_leftover :
    let run := oneRole.perform .watchful .delete blocked
    run.1.isOk = false ∧
      run.2.requests.map Request.endpoint = [⟨.core, "read_namespace"⟩, ⟨.batch, "create_namespaced_job"⟩] := by
  decide +kernel

end Linkerd

end ClusterControl
