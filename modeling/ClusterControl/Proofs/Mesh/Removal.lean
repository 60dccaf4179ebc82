import ClusterControl.Proofs.Mesh.Installation

/-!
# The order of a removal

A removal changes nothing unless its first read shows a namespace that this library manages. It then creates
the job that removes the namespace, and deletes the roles in order once a read shows that the namespace is
gone. A run that returns has done either nothing or all of this.
-/

namespace ClusterControl

variable {τ : Type}

/-- The answer to a read of a namespace shows the label that this library puts on its own. -/
def Exchange.Managed (x : Exchange τ) : Prop :=
  ∃ ns, x.outcome = .ok ns ∧
    ((ns.field? "metadata").field? "labels").field? "app.kubernetes.io/managed-by" = .str "paas"

namespace Linkerd

open Op Resource

/-! ## What a removal does -/

def removalJob (d : Linkerd τ) : Request := jobCreation d.uninstallNs d.uninstallJob

/-- How the exchanges of a removal fit its outcome and the requests that delete the roles. -/
structure Removes (d : Linkerd τ) (deletions : List Request) (xs : List (Exchange τ))
    (o : Except (Failure τ) Unit) : Prop where
  managed : mutationsOf xs ≠ [] → ∃ x, xs.head? = some x ∧ x.request = namespaceRead ∧ x.Managed
  isPrefix : mutationsOf xs <+: d.removalJob :: deletions
  /-- What is deleted is deleted after a read that shows the namespace gone, itself made after the job was
  created. -/
  gone : ∀ front y back, xs = front ++ y :: back → y.request.deletes = true →
    ∃ before created since, front = before ++ created :: since ∧ created.request = d.removalJob ∧
      ∃ x ∈ since, x.request = namespaceRead ∧ x.absent = true
  whole : o = .ok () → mutationsOf xs = [] ∨ mutationsOf xs = d.removalJob :: deletions

/-! ## The course of a removal -/

/-- The removal of a managed namespace: the job is created, the namespace is read until it is gone, and the
rest deletes the roles. -/
inductive Clearing (d : Linkerd τ) (deleting : Trace τ Unit) : Trace τ Unit where
  | closed (e : Failure τ) : Clearing d deleting [] (.error e)
  | waiting {y : Exchange τ} {reads : List (Exchange τ)} (e : Failure τ) :
      y.request = d.removalJob → (∀ x ∈ reads, x.request = namespaceRead) →
      Clearing d deleting (y :: reads) (.error e)
  | deleting {y : Exchange τ} {reads rest : List (Exchange τ)} {o : Except (Failure τ) Unit} :
      y.request = d.removalJob → (∀ x ∈ reads, x.request = namespaceRead) →
      (∃ x ∈ reads, x.absent = true) → deleting rest o →
      Clearing d deleting (y :: (reads ++ rest)) o

/-- The namespace is read first, and nothing follows unless it is managed. -/
inductive Removing (d : Linkerd τ) (deleting : Trace τ Unit) : Trace τ Unit where
  | broken {xs : List (Exchange τ)} (e : Failure τ) :
      (∀ x ∈ xs, x.request = namespaceRead) → Removing d deleting xs (.error e)
  | skipped {x : Exchange τ} :
      x.request = namespaceRead → ¬ x.Managed → Removing d deleting [x] (.ok ())
  | managed {x : Exchange τ} {ys : List (Exchange τ)} {o : Except (Failure τ) Unit} :
      x.request = namespaceRead → x.Managed → Clearing d deleting ys o →
      Removing d deleting (x :: ys) o

theorem managed_of_managedAnswer {x : Exchange τ} {b : Bool}
    (h : .ok b = Cluster.managedAnswer x.outcome) : b = true ↔ x.Managed := by
  cases hx : x.outcome with
  | error e =>
      simp only [hx, Cluster.managedAnswer, found] at h
      split at h
      · obtain rfl : b = false := Except.ok.inj h
        simp [Exchange.Managed, hx]
      · cases h
  | ok ns =>
      simp only [hx, Cluster.managedAnswer, found] at h
      cases hn : ns.isNull with
      | true =>
          rw [hn] at h
          obtain rfl : b = false := Except.ok.inj h
          cases ns <;> simp_all [Exchange.Managed, Value.field?, Value.isNull]
      | false =>
          simp only [hn, Except.bind, Bool.false_eq_true, if_false] at h
          cases hm : Cluster.isManaged ns with
          | error m => rw [hm] at h; cases h
          | ok b' =>
              rw [hm] at h
              obtain rfl : b = b' := Except.ok.inj h
              rw [Cluster.isManaged_eq_ok hm]
              simp [Exchange.Managed, hx, Cluster.managedByLabel, Cluster.managedByValue]

theorem deletes_eq_false {d : Linkerd τ} {r : Request} (h : r = namespaceRead ∨ r = d.removalJob) :
    r.deletes = false := by
  rcases h with rfl | rfl
  · exact Request.deletes_of_mutates mutates_namespaceRead
  · exact deletes_jobCreation _ _

theorem removes_of_reads {d : Linkerd τ} {deletions : List Request} {xs : List (Exchange τ)}
    {o : Except (Failure τ) Unit} (h : ∀ x ∈ xs, x.request = namespaceRead) :
    d.Removes deletions xs o := by
  have hnone := mutationsOf_reads h
  refine ⟨fun hsome => absurd hnone hsome, ?_, ?_, fun _ => .inl hnone⟩
  · rw [hnone]
    exact List.nil_prefix
  · rintro front y back rfl hy
    have hread := h y (List.mem_append_right front List.mem_cons_self)
    rw [deletes_eq_false (d := d) (.inl hread)] at hy
    cases hy

/-- The job was created and the namespace was read; what follows are deletions of the roles, if any. -/
theorem removes_of_deletions {d : Linkerd τ} {deletions : List Request} {x y : Exchange τ}
    {reads rest : List (Exchange τ)} {o : Except (Failure τ) Unit} (hx : x.request = namespaceRead)
    (hm : x.Managed) (hy : y.request = d.removalJob) (hreads : ∀ x ∈ reads, x.request = namespaceRead)
    (hgone : rest = [] ∨ ∃ x ∈ reads, x.absent = true) (hrest : Trace.follows deletions rest o) :
    d.Removes deletions (x :: y :: (reads ++ rest)) o := by
  have hmutations : mutationsOf (x :: y :: (reads ++ rest)) = d.removalJob :: mutationsOf rest := by
    have hcreate : d.removalJob.mutates = true := mutates_jobCreation _ _
    simp [mutationsOf_cons, hx, hy, mutates_namespaceRead, hcreate, mutationsOf_reads hreads]
  refine ⟨fun _ => ⟨x, rfl, hx, hm⟩, ?_, ?_, fun ho => .inr ?_⟩
  · rw [hmutations]
    exact (List.prefix_cons_inj d.removalJob).2 hrest.1
  · intro front z back hsplit hz
    have hparts : (x :: y :: reads) ++ rest = front ++ z :: back := hsplit
    rcases append_eq_split hparts with ⟨more, hmore⟩ | ⟨since, rfl, hsince⟩
    · have hasked : z.request = namespaceRead ∨ z.request = d.removalJob := by
        have hmem : z ∈ x :: y :: reads := hmore ▸ List.mem_append_right front List.mem_cons_self
        rcases List.mem_cons.1 hmem with rfl | hmem
        · exact .inl hx
        · rcases List.mem_cons.1 hmem with rfl | hmem
          · exact .inr hy
          · exact .inl (hreads z hmem)
      rw [deletes_eq_false hasked] at hz
      cases hz
    · have hsome : rest ≠ [] := by
        rw [hsince]
        simp
      obtain ⟨u, hu, habsent⟩ := hgone.resolve_left hsome
      exact ⟨[x], y, reads ++ since, rfl, hy, u, List.mem_append_left since hu, hreads u hu, habsent⟩
  · rw [hmutations, hrest.2 () ho]

theorem Removing.removes {d : Linkerd τ} {deletions : List Request} {xs : List (Exchange τ)}
    {o : Except (Failure τ) Unit} (h : d.Removing (.follows deletions) xs o) : d.Removes deletions xs o := by
  cases h with
  | broken e hreads => exact removes_of_reads hreads
  | skipped hx _ => exact removes_of_reads (List.forall_mem_singleton.2 hx)
  | managed hx hm hclear =>
      cases hclear with
      | closed e => exact removes_of_reads (List.forall_mem_singleton.2 hx)
      | waiting e hy hreads =>
          have h := removes_of_deletions hx hm hy hreads (.inl rfl)
            (⟨List.nil_prefix, fun a ha => by cases ha⟩ : Trace.follows deletions [] (.error e))
          rwa [List.append_nil] at h
      | deleting hy hreads hgone hrest => exact removes_of_deletions hx hm hy hreads (.inr hgone) hrest

variable [Time τ]

theorem emits_clear {d : Linkerd τ} {c : Cluster τ} {T : Trace τ Unit}
    (h : (c.deleteManifests d.uninstallNs d.roles).Emits T) : (d.clear c).Emits (d.Clearing T) := by
  obtain ⟨_, hcreate⟩ := c.emits_createBody .job "create job" d.uninstallNs (.manifest d.uninstallJob)
  have hwait := emits_step ("failed to delete namespace " ++ id)
    (c.emits_awaitNamespaceAbsent id d.limits (some d.sink))
  refine (hcreate.asks_andThen fun _ => hwait.bind fun _ => h.bind_log .info "Linkerd removed").mono fun xs o h => ?_
  cases h with
  | unasked => exact .closed _
  | stopped hy _ => exact .waiting _ hy (List.forall_mem_nil _)
  | onward hy _ hrest =>
      cases hrest with
      | stopped hreads =>
          obtain ⟨_, hreads, _⟩ := hreads
          exact .waiting _ hy hreads.1
      | onward hreads ht =>
          obtain ⟨r, hreads, hr⟩ := hreads
          exact .deleting hy hreads.1 (hreads.2 (ok_of_mapError hr)) ht

theorem emits_delete {d : Linkerd τ} {c : Cluster τ} {T : Trace τ Unit}
    (h : (c.deleteManifests d.uninstallNs d.roles).Emits T) : (d.delete c).Emits (d.Removing T) := by
  have hrest (managed : Bool) : (if managed then d.clear c else Op.log .warning
      "Skipping Linkerd because namespace either doesn't exist or is not owned by us").Emits fun xs o =>
        if managed then d.Clearing T xs o else xs = [] ∧ o = .ok () := by
    cases managed with
    | true => exact emits_clear h
    | false => exact emits_log _ _
  refine (((c.emits_namespaceManaged id).asks_andThen hrest).log_bind .info "Removing Linkerd...").mono fun xs o h => ?_
  cases h with
  | unasked => exact .broken _ (List.forall_mem_nil _)
  | stopped hx _ => exact .broken _ (List.forall_mem_singleton.2 hx)
  | @onward _ managed _ _ hx hanswer hz =>
      have hmanaged := managed_of_managedAnswer hanswer.symm
      cases managed with
      | true => exact .managed hx (hmanaged.1 rfl) hz
      | false =>
          obtain ⟨rfl, rfl⟩ := hz
          exact .skipped hx fun hm => by cases hmanaged.2 hm

/-- A removal of a mesh whose roles are described and of supported kinds. Each role has one request that
deletes it, and in every world and through every connection the run removes the mesh by these requests. -/
theorem removal_is_orderly (d : Linkerd τ)
    (hroles : ∀ m ∈ d.roles, Manifest.Supported m) :
    ∃ deletions, List.Forall₂ (Manifest.Deletes d.uninstallNs) d.roles deletions ∧
      ∀ c : Cluster τ, (d.delete c).Emits (d.Removes deletions) := by
  obtain ⟨deletions, hdeletions⟩ := exists_forall₂ fun m hm =>
    (hroles m hm).exists_deletion d.uninstallNs
  exact ⟨deletions, hdeletions, fun c =>
    (emits_delete (c.follows_deleteManifests hdeletions)).mono fun _ _ h => h.removes⟩

/-- A cluster with a managed namespace, which is gone once the job was created. -/
def clearing : World Rat :=
  (World.initial [(Kind.namespaceKind.endpoint .read .null,
      [⟨.ok (.obj [("metadata", .obj [("labels",
        .obj [(Cluster.managedByLabel, Cluster.managedByValue)])])]), 0⟩,
       ⟨.error (.rejected ⟨.int 404, "Not Found", .null⟩), 0⟩])] []).connected

/-- A removal of a mesh with one role that does all there is to do. -/
theorem removal_is_orderly_of_oneRole :
    let run := oneRole.delete .watchful clearing
    run.1 = .ok () ∧ run.2.mutations.length = 2 ∧
      ∃ deletions xs, run.2.exchanges = clearing.exchanges ++ xs ∧ oneRole.Removes deletions xs run.1 := by
  intro run
  obtain ⟨deletions, _, hrun⟩ := removal_is_orderly oneRole supported_oneRole
  obtain ⟨xs, hxs, hremoves⟩ := hrun .watchful clearing
  exact ⟨eq_ok_of_isOk (by decide +kernel), by decide +kernel, deletions, xs, hxs, hremoves⟩

end Linkerd

end ClusterControl
