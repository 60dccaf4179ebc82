import ClusterControl.Proofs.Cluster.Answers
import ClusterControl.Proofs.Mesh.Runs

/-!
# What an installation concludes from

An installation reads its job until it has ended, and then once more. The last read alone decides whether the run
succeeds, so a run that succeeds may have seen its job fail.
-/

namespace ClusterControl

variable {τ α β : Type}

open Op Resource

/-! ## Reads of a job -/

def Request.readsJob (r : Request) : Prop := r.endpoint = ⟨.batch, "read_namespaced_job"⟩

instance (object : Value) (types : List String) : Decidable (object.Reports types) :=
  match h : (object.field? "status").field? "conditions" with
  | .list conditions =>
    decidable_of_iff (∃ c ∈ conditions, (c.field? "status").same "True" = true ∧
        ∃ t ∈ types, (c.field? "type").same (.str t) = true) <| by
      simp [Value.Reports, h, Value.same_str_iff]
  | .null | .bool _ | .int _ | .float _ | .str _ | .obj _ => .isFalse fun ⟨_, hc, _⟩ => by cases h.symm.trans hc

namespace Exchange

/-- The answer is an object that reports one of the types. -/
def Shows (x : Exchange τ) (types : List String) : Prop := ∃ v, x.outcome = .ok v ∧ v.Reports types

/-- The answer is an object that reports none of the types. -/
def Lacks (x : Exchange τ) (types : List String) : Prop := ∃ v, x.outcome = .ok v ∧ ¬ v.Reports types

/-- A read of a job, with an answer by which the job failed. -/
def ShowsFailure (x : Exchange τ) : Prop := x.request.readsJob ∧ x.Shows ["Failed"]

instance (x : Exchange τ) (types : List String) : Decidable (x.Shows types) :=
  match h : x.outcome with
  | .ok v => decidable_of_iff (v.Reports types) (by simp [Shows, h])
  | .error _ => .isFalse fun ⟨_, hv, _⟩ => by cases h.symm.trans hv

instance (x : Exchange τ) : Decidable x.ShowsFailure :=
  inferInstanceAs (Decidable (x.request.endpoint = _ ∧ x.Shows _))

theorem Shows.mono {x : Exchange τ} {types types' : List String} (h : x.Shows types) (hle : types ⊆ types') :
    x.Shows types' := by
  obtain ⟨v, hv, conditions, hc, c, hmem, hstatus, t, ht, htype⟩ := h
  exact ⟨v, hv, conditions, hc, c, hmem, hstatus, t, hle ht, htype⟩

theorem Lacks.not_shows {x : Exchange τ} {types : List String} (h : x.Lacks types) : ¬ x.Shows types := by
  obtain ⟨v, hv, hno⟩ := h
  rintro ⟨u, hu, hr⟩
  obtain rfl := Except.ok.inj (hv.symm.trans hu)
  exact hno hr

end Exchange

theorem Resource.not_readsJob_of_mutates {r : Request} (h : r.mutates = true) : ¬ r.readsJob := by
  intro hjob
  rw [Request.mutates, hjob] at h
  exact absurd h (by decide)

namespace Op

theorem Trace.Tried.of_looks_ok {r : Request} {types : List String} {xs : List (Exchange τ)} {a : Value}
    (h : Trace.Tried (.looks r types) xs (.ok a)) :
    ∃ misses shown, xs = misses ++ [shown] ∧ (∀ x ∈ misses, x.Lacks types) ∧ shown.Shows types := by
  generalize ho : (Except.ok a : Except (Failure τ) Value) = o at h
  induction h with
  | ended e => cases ho
  | failed _ => cases ho
  | yielded ht =>
      obtain ⟨x, v, rfl, hv, hr⟩ := ht.2 _ rfl
      exact ⟨[], x, rfl, List.forall_mem_nil _, v, hv, hr.1 rfl⟩
  | missed ht _ ih =>
      obtain ⟨x, v, rfl, hv, hr⟩ := ht.2 _ rfl
      obtain ⟨misses, shown, rfl, hmisses, hshown⟩ := ih ho
      have hx : x.Lacks types := ⟨v, hv, fun hreports => by cases hr.2 hreports⟩
      exact ⟨x :: misses, shown, rfl, List.forall_mem_cons.2 ⟨hx, hmisses⟩, hshown⟩

/-- If the run succeeds, its exchanges fit its result. -/
def Trace.yields (P : α → List (Exchange τ) → Prop) : Trace τ α := fun xs o => ∀ a, o = .ok a → P a xs

theorem Emits.yields_bind {x : Op τ α} {f : α → Op τ β} {P : α → List (Exchange τ) → Prop}
    {Q : α → β → List (Exchange τ) → Prop} (hx : x.Emits (.yields P))
    (hf : ∀ a, (f a).Emits (.yields (Q a))) :
    (x >>= f).Emits (.yields fun b xs => ∃ a ys zs, xs = ys ++ zs ∧ P a ys ∧ Q a b zs) := by
  refine (hx.bind hf).mono fun xs o h b hb => ?_
  cases h with
  | stopped _ => cases hb
  | onward hp hq => exact ⟨_, _, _, rfl, hp _ rfl, hq b hb⟩

theorem Emits.yields_mono {x : Op τ α} {P Q : α → List (Exchange τ) → Prop} (hx : x.Emits (.yields P))
    (h : ∀ a xs, P a xs → Q a xs) : x.Emits (.yields Q) :=
  hx.mono fun xs _ hp a ha => h a xs (hp a ha)

theorem yields_fail (e : Failure τ) (P : α → List (Exchange τ) → Prop) :
    (fail e : Op τ α).Emits (.yields P) := by
  refine (emits_fail e).mono ?_
  rintro xs o ⟨_, rfl⟩ a ha
  cases ha

end Op

variable [Time τ]

/-! ## Looks at a job -/

theorem Condition.emits_of_reports {c : Connection} {k : Kind} {types : List String} {what : String}
    {ns name : Value} {condition : Condition τ} (h : reports c k types what ns name = .valid condition) :
    condition.check.Emits (.looks (readRequest k ns name) types) := by
  unfold reports at h
  cases href : Ref.named k ns name with
  | invalid issues =>
      rw [href] at h
      cases h
  | valid ref =>
      rw [href] at h
      obtain rfl := Checked.valid.inj h
      obtain ⟨_, hns, hname⟩ := Ref.named_eq_valid href
      have hlook := emits_looking (τ := τ) c k types ref
      rwa [hns, hname] at hlook

namespace Cluster

variable (c : Cluster τ) (ns name : Value)

/-- A wait for a job that succeeds ends with the first read that shows that the job ended. -/
theorem yields_awaitJobDone (l : Limits τ) : (c.awaitJobDone ns name l).Emits <| .yields fun _ xs =>
    ∃ misses shown, xs = misses ++ [shown] ∧ (∀ x ∈ xs, x.request = readRequest .job ns name) ∧
      (∀ x ∈ misses, x.Lacks ["Failed", "Complete"]) ∧ shown.Shows ["Failed", "Complete"] := by
  unfold awaitJobDone wait
  cases hk : (Condition.jobDone c.connection ns name : Checked (Condition τ)) with
  | invalid issues => exact yields_fail (.invalid issues) _
  | valid k =>
      have hpoll := Poll.emits_run (Condition.emits_of_reports hk)
        ⟨k.description, c.interval, c.timeoutOf l.timeout, l.cancel⟩
      refine (hpoll.bind_pure fun _ => ()).mono ?_
      rintro xs _ ⟨r, ht, rfl⟩ u hu
      cases r with
      | error e => cases hu
      | ok a =>
          obtain ⟨misses, shown, rfl, hrest⟩ := ht.of_looks_ok
          exact ⟨misses, shown, rfl, ht.of_looks.1, hrest⟩

theorem yields_jobFailed : (c.jobFailed ns name).Emits <| .yields fun b xs =>
    ∃ x v, xs = [x] ∧ x.request = readRequest .job ns name ∧ x.outcome = .ok v ∧
      (b = true ↔ v.Reports ["Failed"]) := by
  unfold jobFailed
  cases hk : (Condition.jobFailed c.connection ns name : Checked (Condition τ)) with
  | invalid issues => exact yields_fail (.invalid issues) _
  | valid k =>
      refine ((Condition.emits_of_reports hk).bind_pure Option.isSome).mono ?_
      rintro xs _ ⟨r, ht, rfl⟩ b hb
      cases r with
      | error e => cases hb
      | ok a =>
          obtain rfl := Except.ok.inj hb
          obtain ⟨x, v, rfl, hv, hr⟩ := ht.2 a rfl
          exact ⟨x, v, rfl, ht.1 x (List.mem_singleton_self x), hv, hr⟩

end Cluster

namespace Linkerd

/-! ## The reads that decide -/

/-- How an installation succeeds. It reads its job until a read shows that the job ended, and then once more, which
shows no failure. -/
structure Passes (d : Linkerd τ) (front misses : List (Exchange τ)) (ended last : Exchange τ) : Prop where
  unread : ∀ x ∈ front, ¬ x.request.readsJob
  reads : ∃ job, Manifest.name d.installJob = .ok job ∧
    ∀ x ∈ misses ++ [ended, last], x.request = jobRead job
  missed : ∀ x ∈ misses, x.Lacks ["Failed", "Complete"]
  ended : ended.Shows ["Failed", "Complete"]
  passed : last.Lacks ["Failed"]

def Passed (d : Linkerd τ) (xs : List (Exchange τ)) : Prop :=
  ∃ front misses ended last, xs = front ++ (misses ++ [ended, last]) ∧ d.Passes front misses ended last

omit [Time τ] in
theorem Passed.prepend {d : Linkerd τ} {xs ys : List (Exchange τ)} (h : d.Passed ys)
    (hxs : ∀ x ∈ xs, ¬ x.request.readsJob) : d.Passed (xs ++ ys) := by
  obtain ⟨front, misses, ended, last, rfl, h⟩ := h
  refine ⟨xs ++ front, misses, ended, last, (List.append_assoc _ _ _).symm, { h with unread := fun x hx => ?_ }⟩
  exact (List.mem_append.1 hx).elim (hxs x) (h.unread x)

omit [Time τ] in
/-- Of all the exchanges only the one that showed the end can have shown a failure. -/
theorem Passes.showsFailure_iff {d : Linkerd τ} {front misses : List (Exchange τ)} {ended last : Exchange τ}
    (h : d.Passes front misses ended last) :
    (∃ x ∈ front ++ (misses ++ [ended, last]), x.ShowsFailure) ↔ ended.Shows ["Failed"] := by
  constructor
  · rintro ⟨x, hx, hread, hshows⟩
    simp only [List.mem_append, List.mem_cons, List.not_mem_nil, or_false] at hx
    rcases hx with hx | hx | rfl | rfl
    · exact absurd hread (h.unread x hx)
    · exact absurd (hshows.mono (List.cons_subset_cons _ (List.nil_subset _))) (h.missed x hx).not_shows
    · exact hshows
    · exact absurd hshows h.passed.not_shows
  · intro hshows
    obtain ⟨job, _, hreads⟩ := h.reads
    refine ⟨ended, by simp, ?_, hshows⟩
    rw [Request.readsJob, hreads ended (by simp)]
    rfl

theorem yields_step {x : Op τ α} {P : α → List (Exchange τ) → Prop} (what : String) (h : x.Emits (.yields P)) :
    (step what x).Emits (.yields P) := by
  refine (emits_step what h).mono ?_
  rintro xs _ ⟨r, h, rfl⟩ a ha
  exact h a (ok_of_mapError ha.symm)

omit [Time τ] in
theorem not_readsJob_namespaceRead : ¬ namespaceRead.readsJob := fun h => by cases congrArg Endpoint.group h

omit [Time τ] in
theorem passed_bind {d : Linkerd τ} {x : Op τ α} {f : α → Op τ Unit}
    (hx : x.Emits (.only fun r => ¬ r.readsJob)) (hf : ∀ a, (f a).Emits (.yields fun _ => d.Passed)) :
    (x >>= f).Emits (.yields fun _ => d.Passed) := by
  have hx : x.Emits (.yields fun _ xs => ∀ x ∈ xs, ¬ x.request.readsJob) := hx.mono fun _ _ h _ _ => h
  refine (hx.yields_bind hf).yields_mono ?_
  rintro _ xs ⟨_, ys, zs, rfl, hys, hzs⟩
  exact hzs.prepend hys

theorem unread_createNamespace (c : Cluster τ) :
    (createNamespace c).Emits (.only fun r => ¬ r.readsJob) := by
  obtain ⟨_, hcreate⟩ := c.emits_createNamespace id
    (.obj [(Cluster.managedByLabel, Cluster.managedByValue)]) (.obj [("linkerd.io/inject", "enabled")])
  have hread := (emits_namespaceExists c).mono fun _ _ h =>
    h.only (P := fun r => ¬ r.readsJob) not_readsJob_namespaceRead
  refine hread.only_bind fun there => ?_
  cases there with
  | true => exact (emits_pure ()).mono fun _ _ => Trace.only_silent
  | false =>
      exact (hcreate.asks_bind fun _ => emits_pure ()).mono fun _ _ h =>
        h.only (not_readsJob_of_mutates (mutates_createRequest _ _ _))

theorem passed_conclude {d : Linkerd τ} {job : Value} (hjob : Manifest.name d.installJob = .ok job)
    (c : Cluster τ) : (d.conclude c job).Emits (.yields fun _ => d.Passed) := by
  have hend (failed : Bool) : (if failed
      then Op.fail (.cluster ("Linkerd install job " ++ job.text ++ " failed") none)
      else Op.log .info "Linkerd deployed" : Op τ Unit).Emits (.yields fun _ xs => xs = [] ∧ failed = false) := by
    cases failed with
    | true => exact yields_fail _ _
    | false => exact (emits_log _ _).mono fun xs o ⟨hx, _⟩ _ _ => ⟨hx, rfl⟩
  have hwait := yields_step "failed waiting Linkerd install job to complete" (c.yields_awaitJobDone id job d.limits)
  refine (hwait.yields_bind fun _ => (c.yields_jobFailed id job).yields_bind hend).yields_mono ?_
  rintro _ _ ⟨_, _, rest, rfl, ⟨misses, ended, rfl, hreads, hmissed, hended⟩, hrest⟩
  obtain ⟨_, _, _, rfl, ⟨last, v, rfl, hlast, hv, hfailed⟩, rfl, rfl⟩ := hrest
  rw [List.append_nil, List.append_assoc]
  have hreads : ∀ x ∈ misses ++ [ended, last], x.request = jobRead job := by
    intro x hx
    rcases List.mem_append.1 (List.append_assoc misses [ended] [last] ▸ hx) with hx | hx
    · exact hreads x hx
    · exact List.mem_singleton.1 hx ▸ hlast
  exact ⟨[], misses, ended, last, rfl, List.forall_mem_nil _, ⟨job, hjob, hreads⟩, hmissed, hended,
    v, hv, fun h => by cases hfailed.2 h⟩

theorem passed_replaceJob {d : Linkerd τ} {job : Value} (hjob : Manifest.name d.installJob = .ok job)
    (c : Cluster τ) : (d.replaceJob c job).Emits (.yields fun _ => d.Passed) := by
  obtain ⟨_, hdelete⟩ := c.emits_deleteJob id job
  obtain ⟨_, hcreate⟩ := c.emits_createBody .job "create job" id (.manifest d.installJob)
  exact passed_bind (hdelete.mono fun _ _ h => h.only (not_readsJob_of_mutates (mutates_deleteRequest _ _ _ _)))
    fun _ => passed_bind (hcreate.mono fun _ _ h => h.only (not_readsJob_of_mutates (mutates_createRequest _ _ _)))
      fun _ => passed_conclude hjob c

theorem passed_install (d : Linkerd τ) (c : Cluster τ) : (d.install c).Emits (.yields fun _ => d.Passed) := by
  refine passed_bind (unread_createNamespace c) fun _ => passed_bind ?_ fun _ => ?_
  · refine (c.only_applyManifests d.uninstallNs d.roles).mono fun xs o h x hx => ?_
    obtain ⟨m, _, hcreates⟩ := h x hx
    obtain ⟨k, ns, hr⟩ := hcreates.eq_createRequest
    exact hr ▸ not_readsJob_of_mutates (mutates_createRequest k ns m)
  · cases hjob : Manifest.name d.installJob with
    | error m => exact yields_fail _ _
    | ok job => exact passed_replaceJob hjob c

theorem passed_installation (d : Linkerd τ) (c : Cluster τ) (upgrading : Bool) :
    (d.installation c upgrading).Emits (.yields fun _ => d.Passed) := by
  obtain ⟨message, e, heq⟩ := d.installation_eq c upgrading
  rw [heq]
  refine passed_bind ((emits_namespaceExists c).mono fun _ _ h => h.only not_readsJob_namespaceRead) fun there => ?_
  split
  · exact (d.passed_install c).log_bind .info message
  · exact yields_fail e _

/-- An installation that succeeds, whatever the manifests are, has seen its job fail exactly if the read that showed the
end of the job showed a failure. It succeeds because the read after that shows none. -/
theorem failure_seen_iff (d : Linkerd τ) (c : Cluster τ) (upgrading : Bool) :
    (d.installation c upgrading).Emits fun xs o => o = .ok () →
      ∃ front misses ended last, xs = front ++ (misses ++ [ended, last]) ∧ d.Passes front misses ended last ∧
        ((∃ x ∈ xs, x.ShowsFailure) ↔ ended.Shows ["Failed"]) := by
  refine (d.passed_installation c upgrading).mono fun xs o h ho => ?_
  obtain ⟨front, misses, ended, last, rfl, hpasses⟩ := h () ho
  exact ⟨front, misses, ended, last, rfl, hpasses, hpasses.showsFailure_iff⟩

/-- A cluster without the namespace, where a job is first shown as failed and then as complete. -/
def wavering : World Rat :=
  let ended (type : String) : Response Rat := ⟨.ok (.obj [("status", .obj [("conditions",
    .list [.obj [("type", .str type), ("status", "True")]])])]), 0⟩
  { completing with script := [(Kind.job.endpoint .read id, [ended "Failed", ended "Complete"])] }

/-- A deployment that saw its job fail and succeeds. -/
theorem success_after_failure :
    let run := oneRole.deploy .watchful false wavering
    run.1 = .ok () ∧ ∃ x ∈ run.2.exchanges, x.ShowsFailure := by
  intro run
  exact ⟨eq_ok_of_isOk (by decide +kernel), by decide +kernel⟩

end Linkerd

end ClusterControl
