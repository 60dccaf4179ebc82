import ClusterControl.Proofs.Mesh.Runs

/-!
# Roles over several runs

Roles are deleted only by a removal that found the namespace managed. One that fails on the way leaves the
roles to the next, which deletes them only if the namespace is still there.
-/

namespace ClusterControl.Linkerd

variable {τ : Type}

open Op Resource

/-! ## The deletions of one removal -/

/-- What a removal deletes are the first roles of its plan. -/
theorem Removes.deleted {d : Linkerd τ} {deletions : List Request} {xs : List (Exchange τ)}
    {o : Except (Failure τ) Unit} (h : d.Removes deletions xs o) :
    ∃ done, done <+: deletions ∧ (∀ r ∈ done, r ∈ xs.map Exchange.request) ∧
      ∀ r ∈ xs.map Exchange.request, r.deletes = true → r ∈ done := by
  have hmutates {r : Request} (hr : r ∈ xs.map Exchange.request) (hdelete : r.deletes = true) :
      r ∈ mutationsOf xs :=
    List.mem_filter.2 ⟨hr, Bool.or_eq_true_iff.2 (.inr hdelete)⟩
  cases hm : mutationsOf xs with
  | nil =>
      refine ⟨[], List.nil_prefix, fun r hr => (by cases hr), fun r hr hdelete => ?_⟩
      have hmem := hmutates hr hdelete
      rwa [hm] at hmem
  | cons job done =>
      have hprefix := h.isPrefix
      rw [hm] at hprefix
      obtain ⟨rfl, hdone⟩ := List.cons_prefix_cons.1 hprefix
      refine ⟨done, hdone, fun r hr => ?_, fun r hr hdelete => ?_⟩
      · have hmem : r ∈ mutationsOf xs := hm ▸ List.mem_cons_of_mem _ hr
        exact (List.mem_filter.1 hmem).1
      · have hmem := hmutates hr hdelete
        rw [hm] at hmem
        refine (List.mem_cons.1 hmem).resolve_left ?_
        rintro rfl
        rw [deletes_eq_false (.inr rfl)] at hdelete
        cases hdelete

/-- A removal that returns has deleted the roles if it found the namespace managed, and else none. -/
theorem Removing.complete_iff {d : Linkerd τ} {deletions : List Request} {xs : List (Exchange τ)}
    (h : d.Removing (.follows deletions) xs (.ok ())) (hsome : deletions ≠ [])
    (hdeletes : ∀ r ∈ deletions, r.deletes = true) :
    (∀ r ∈ deletions, r ∈ xs.map Exchange.request) ↔ ∃ x, xs.head? = some x ∧ x.Managed := by
  cases h with
  | skipped hread hno =>
      constructor
      · intro hall
        obtain ⟨r, hr⟩ := List.exists_mem_of_ne_nil deletions hsome
        have hdelete := hdeletes r hr
        rw [List.mem_singleton.1 (hall r hr), deletes_eq_false (d := d) (.inl hread)] at hdelete
        cases hdelete
      · rintro ⟨y, hy, hm⟩
        obtain rfl := Option.some.inj hy
        exact absurd hm hno
  | managed hread hm hclear =>
      refine ⟨fun _ => ⟨_, rfl, hm⟩, fun _ r hr => ?_⟩
      cases hclear with
      | deleting hjob hreads hgone hrest =>
          rw [← hrest.2 () rfl] at hr
          have hmem := (List.mem_filter.1 hr).1
          simp only [List.map_cons, List.map_append]
          exact List.mem_cons_of_mem _ (List.mem_cons_of_mem _ (List.mem_append_right _ hmem))

variable [Time τ]

theorem removing_of_delete {d : Linkerd τ} {deletions : List Request}
    (h : List.Forall₂ (Manifest.Deletes d.uninstallNs) d.roles deletions) {r : Run τ}
    (hr : r.action = .delete) : d.Removing (.follows deletions) (d.exchangesOf r) (d.result r).1 := by
  apply trace_of_emits
  rw [hr]
  exact emits_delete (r.cluster.follows_deleteManifests h)

omit [Time τ] in
theorem eq_of_mem_deletions {default : Value} {ms : List Value} {deletions : List Request}
    (h : List.Forall₂ (Manifest.Deletes default) ms deletions) {r : Request} (hr : r ∈ deletions) :
    ∃ k ns name, r = deleteRequest k ns name .null := by
  induction h with
  | nil => cases hr
  | cons hm _ ih =>
      rcases List.mem_cons.1 hr with rfl | hr
      · exact hm.eq_deleteRequest
      · exact ih hr

omit [Time τ] in
theorem deletes_of_mem_deletions {default : Value} {ms : List Value} {deletions : List Request}
    (h : List.Forall₂ (Manifest.Deletes default) ms deletions) {r : Request} (hr : r ∈ deletions) :
    r.deletes = true := by
  obtain ⟨k, ns, name, rfl⟩ := eq_of_mem_deletions h hr
  exact deletes_deleteRequest k ns name .null

/-! ## Several runs -/

/-- The deletions that several runs make do not add up: of the roles deleted by all of them together, one of
them alone deleted as many. -/
theorem exists_deleted {d : Linkerd τ} {deletions : List Request}
    (h : List.Forall₂ (Manifest.Deletes d.uninstallNs) d.roles deletions) (runs : List (Run τ)) :
    ∃ done, done <+: deletions ∧
      (done = [] ∨ ∃ r ∈ runs, r.action = .delete ∧ ∀ q ∈ done, q ∈ d.requestsOf r) ∧
      ∀ q ∈ deletions, q ∈ runs.flatMap d.requestsOf → q ∈ done := by
  induction runs with
  | nil => exact ⟨[], List.nil_prefix, .inl rfl, fun q _ hq => hq⟩
  | cons r runs ih =>
      obtain ⟨done, hprefix, hby, hall⟩ := ih
      have hby' : done = [] ∨ ∃ r' ∈ r :: runs, r'.action = .delete ∧ ∀ q ∈ done, q ∈ d.requestsOf r' := by
        refine hby.imp_right ?_
        rintro ⟨r', hr', hrest⟩
        exact ⟨r', List.mem_cons_of_mem r hr', hrest⟩
      by_cases hr : r.action = .delete
      · obtain ⟨more, hmore, hmade, hcovers⟩ := (removing_of_delete h hr).removes.deleted
        -- Two first parts of one plan: the longer one holds what was deleted in either.
        rcases List.prefix_or_prefix_of_prefix hprefix hmore with hle | hle
        · refine ⟨more, hmore, .inr ⟨r, List.mem_cons_self, hr, hmade⟩, fun q hq hmem => ?_⟩
          rcases List.mem_append.1 (List.flatMap_cons ▸ hmem) with hmem | hmem
          · exact hcovers q hmem (deletes_of_mem_deletions h hq)
          · exact hle.subset (hall q hq hmem)
        · refine ⟨done, hprefix, hby', fun q hq hmem => ?_⟩
          rcases List.mem_append.1 (List.flatMap_cons ▸ hmem) with hmem | hmem
          · exact hle.subset (hcovers q hmem (deletes_of_mem_deletions h hq))
          · exact hall q hq hmem
      · refine ⟨done, hprefix, hby', fun q hq hmem => ?_⟩
        rcases List.mem_append.1 (List.flatMap_cons ▸ hmem) with hmem | hmem
        · obtain ⟨k, ns, name, rfl⟩ := eq_of_mem_deletions h hq
          have hinstalling := trace_of_emits (d.emits_perform_installing r.cluster hr)
          exact absurd hmem (hinstalling.keeps_roles k ns name)
        · exact hall q hq hmem

/-- Roles that are described and of supported kinds, after any runs and a removal that returned. All roles were
deleted exactly if that removal found the namespace managed, or one of the earlier removals alone had got to the
last role. So a removal that finds the namespace gone leaves the roles as an earlier one left them. -/
theorem roles_deleted_iff (d : Linkerd τ) (hroles : ∀ m ∈ d.roles, Manifest.Supported m)
    (hsome : d.roles ≠ []) :
    ∃ deletions, List.Forall₂ (Manifest.Deletes d.uninstallNs) d.roles deletions ∧
      ∀ (runs : List (Run τ)) (last : Run τ), last.action = .delete → (d.result last).1 = .ok () →
        ((∀ r ∈ deletions, r ∈ (runs ++ [last]).flatMap d.requestsOf) ↔
          (∃ x, (d.exchangesOf last).head? = some x ∧ x.Managed) ∨
            ∃ run ∈ runs, run.action = .delete ∧ ∀ r ∈ deletions, r ∈ d.requestsOf run) := by
  obtain ⟨deletions, hdeletions⟩ := exists_forall₂ fun m hm =>
    (hroles m hm).exists_deletion d.uninstallNs
  refine ⟨deletions, hdeletions, fun runs last hlast hok => ?_⟩
  have hne : deletions ≠ [] := by
    rintro rfl
    exact hsome (List.forall₂_nil_right_iff.1 hdeletions)
  have hcomplete : (∀ r ∈ deletions, r ∈ d.requestsOf last) ↔
      ∃ x, (d.exchangesOf last).head? = some x ∧ x.Managed := by
    have hremoving := removing_of_delete hdeletions hlast
    rw [hok] at hremoving
    exact hremoving.complete_iff hne fun r hr => deletes_of_mem_deletions hdeletions hr
  constructor
  · intro hall
    obtain ⟨done, _, hby, hcovers⟩ := exists_deleted hdeletions (runs ++ [last])
    rcases hby with rfl | ⟨run, hrun, hdelete, hmade⟩
    · obtain ⟨r, hr⟩ := List.exists_mem_of_ne_nil deletions hne
      cases hcovers r hr (hall r hr)
    · have hwhole : ∀ r ∈ deletions, r ∈ d.requestsOf run := fun r hr => hmade r (hcovers r hr (hall r hr))
      rcases List.mem_append.1 hrun with hrun | hrun
      · exact .inr ⟨run, hrun, hdelete, hwhole⟩
      · rw [List.mem_singleton.1 hrun] at hwhole
        exact .inl (hcomplete.1 hwhole)
  · rintro (hmanaged | ⟨run, hrun, _, hwhole⟩) r hr
    · exact List.mem_flatMap.2 ⟨last, by simp, hcomplete.2 hmanaged r hr⟩
    · exact List.mem_flatMap.2 ⟨run, List.mem_append_left [last] hrun, hwhole r hr⟩

/-- A removal that found the namespace managed has deleted the role. -/
theorem roles_deleted_iff_of_oneRole :
    let removal : Run Rat := ⟨.delete, .watchful, clearing⟩
    (∀ m ∈ oneRole.roles, Manifest.Supported m) ∧ (oneRole.result removal).1 = .ok () ∧
      ∃ deletions, List.Forall₂ (Manifest.Deletes oneRole.uninstallNs) oneRole.roles deletions ∧
        ∀ r ∈ deletions, r ∈ ([] ++ [removal]).flatMap oneRole.requestsOf := by
  intro removal
  have hok : (oneRole.result removal).1 = .ok () := eq_ok_of_isOk (by decide +kernel)
  obtain ⟨deletions, hdeletions, hiff⟩ := roles_deleted_iff oneRole supported_oneRole (by decide)
  have hremoves := (removing_of_delete hdeletions (show removal.action = .delete from rfl)).removes
  obtain ⟨x, hx, _, hmanaged⟩ := hremoves.managed (by decide +kernel)
  exact ⟨supported_oneRole, hok, deletions, hdeletions, (hiff [] removal rfl hok).2 (.inl ⟨x, hx, hmanaged⟩)⟩

/-- The mesh whose waits give up at once. -/
def impatient : Linkerd Rat := { oneRole with timeout := some (.whole 0) }

/-- The role is created. -/
def installed : Run Rat := ⟨.deploy false, .watchful, completing⟩

/-- The namespace is managed and stays, so that the removal gives up. -/
def stuck : Run Rat :=
  let managed : Value := .obj [("metadata", .obj [("labels",
    .obj [(Cluster.managedByLabel, Cluster.managedByValue)])])]
  ⟨.delete, .watchful, { (impatient.result installed).2 with
    script := [(Kind.namespaceKind.endpoint .read .null, [⟨.ok managed, 0⟩])] }⟩

/-- By now the namespace is gone. -/
def repeated : Run Rat := ⟨.delete, .watchful, { (impatient.result stuck).2 with script := [] }⟩

/-- An installation creates the role, a removal gives up, and the next removal returns as it finds the namespace
gone. Nothing ever deletes the role. -/
theorem role_outlives_mesh :
    (impatient.result installed).1.isOk = true ∧
      ⟨.core, "create_namespaced_service_account"⟩ ∈ (impatient.requestsOf installed).map Request.endpoint ∧
      (impatient.result stuck).1.isOk = false ∧ (impatient.result repeated).1.isOk = true ∧
      (impatient.exchangesOf repeated).any Exchange.absent = true ∧
      ∀ m ∈ impatient.roles, ∀ r, Manifest.Deletes impatient.uninstallNs m r →
        r ∉ [installed, stuck, repeated].flatMap impatient.requestsOf := by
  refine ⟨by decide +kernel, by decide +kernel, by decide +kernel, by decide +kernel, by decide +kernel, ?_⟩
  intro m hm r hr hmem
  obtain rfl := List.mem_singleton.1 hm
  obtain ⟨s, metadata, hs, _, rfl⟩ := hr
  obtain rfl := Option.some.inj hs
  have hnone : ⟨.core, "delete_namespaced_service_account"⟩ ∉
      ([installed, stuck, repeated].flatMap impatient.requestsOf).map Request.endpoint := by decide +kernel
  exact hnone (List.mem_map_of_mem hmem)

end ClusterControl.Linkerd
