import ClusterControl.Proofs.Cluster.Answers
import ClusterControl.Proofs.Mesh.Verdict
import ClusterControl.Proofs.Wait.Proper

/-!
# Which failures leave a run

A cluster that answers properly fails requests only by rejecting them. A rejection either is passed over, or ends the
run: as the cause of a failure that names the request, or, if it was a read that was rejected, as it is.
-/

namespace ClusterControl

variable {τ α β : Type}

/-- A failure that the library words itself, and that no rejection led to directly. -/
def Failure.Worded (e : Failure τ) : Prop := e.isCluster = true ∧ ∀ f, e.cause = some f → f.isCluster = true

/-- Only failures that the library words itself have a cause. -/
theorem Failure.cause_eq_none {e : Failure τ} (h : e.isCluster = false) : e.cause = none := by
  cases e <;> first | rfl | cases h

theorem Sink.Breaks.isCluster_eq {s : Sink τ} {e : Failure τ} (h : s.Breaks e) : e.isCluster = false := by
  cases s with
  | logger => cases h
  | relay refuses => cases e <;> first | rfl | cases h.1

/-- The interval of the handle and the timeout of a wait are in order, and are no whole numbers too large for the clock.
For an exact clock none is. -/
structure Cluster.Paced [Time τ] (c : Cluster τ) (given : Option (Seconds τ)) : Prop where
  interval : ¬ c.interval.amount ≤ 0
  timeout : ¬ (c.timeoutOf given).amount < 0
  inRange : (c.timeoutOf given).inRange = true ∧ c.interval.inRange = true

namespace Linkerd

open Op Resource

/-! ## What becomes of a rejection -/

/-- A role that is there already need not be created, and what is gone already need not be deleted. -/
def Tolerates (d : Linkerd τ) (q : Request) (r : Rejection) : Prop :=
  (r.isConflict = true ∧ ∃ m ∈ d.roles, Manifest.Creates d.uninstallNs m q) ∨
    (r.isNotFound = true ∧ q.deletes = true)

/-- The namespace and the two jobs, which are created by requests of their own. -/
def CreatesOwn (d : Linkerd τ) (q : Request) : Prop :=
  q = namespaceCreation ∨ q = jobCreation "linkerd" d.installJob ∨ q = d.removalJob

/-- A rejection that is not passed over. If it is about something that is there already, the run asked for that on its
own account, or did not ask for it to be created. -/
structure Fatal (d : Linkerd τ) (q : Request) (r : Rejection) : Prop where
  mutates : q.mutates = true
  notGone : r.isNotFound = true → q.deletes = false
  notThere : r.isConflict = true → d.CreatesOwn q ∨ q.deletes = true

/-- The reads that a run makes. -/
def Watches (d : Linkerd τ) (q : Request) : Prop :=
  q = namespaceRead ∨ ∃ job, Manifest.name d.installJob = .ok job ∧ q = jobRead job

/-- The request changed nothing, was accepted, or was rejected in a way that is passed over. -/
def Settled (d : Linkerd τ) (x : Exchange τ) : Prop :=
  x.request.mutates = true → ∀ r, x.outcome = .error (.rejected r) → d.Tolerates x.request r

/-- How the exchanges of a run, or of a part of it, account for its outcome. -/
inductive Accounts (d : Linkerd τ) : Trace τ α where
  | returned {xs : List (Exchange τ)} (a : α) : (∀ x ∈ xs, d.Settled x) → Accounts d xs (.ok a)
  | worded {xs : List (Exchange τ)} {e : Failure τ} : (∀ x ∈ xs, d.Settled x) → e.Worded ∨ d.sink.Breaks e →
      Accounts d xs (.error e)
  | refused {xs : List (Exchange τ)} {y : Exchange τ} {r : Rejection} (operation : String) (target : Value) :
      (∀ x ∈ xs, d.Settled x) → y.outcome = .error (.rejected r) → d.Fatal y.request r →
      Accounts d (xs ++ [y]) (.error (.refused operation target r.reason (some (.rejected r))))
  | escaped {xs : List (Exchange τ)} {y : Exchange τ} {r : Rejection} :
      (∀ x ∈ xs, d.Settled x) → d.Watches y.request → y.outcome = .error (.rejected r) →
      r.isNotFound = false → Accounts d (xs ++ [y]) (.error (.rejected r))

variable {d : Linkerd τ} {xs ys : List (Exchange τ)}

theorem Accounts.prepend {o : Except (Failure τ) α} (h : d.Accounts ys o) (hxs : ∀ x ∈ xs, d.Settled x) :
    d.Accounts (xs ++ ys) o := by
  have happend {zs : List (Exchange τ)} (hzs : ∀ x ∈ zs, d.Settled x) : ∀ x ∈ xs ++ zs, d.Settled x :=
    fun x hx => (List.mem_append.1 hx).elim (hxs x) (hzs x)
  cases h with
  | returned a hys => exact .returned a (happend hys)
  | worded hys he => exact .worded (happend hys) he
  | refused operation target hys hr hfatal =>
      rw [← List.append_assoc]
      exact .refused operation target (happend hys) hr hfatal
  | escaped hys hw hr hn =>
      rw [← List.append_assoc]
      exact .escaped (happend hys) hw hr hn

theorem Accounts.prepend_nil {o : Except (Failure τ) α} (h : d.Accounts ([] ++ xs) o) : d.Accounts xs o := h

theorem Accounts.retype {o : Except (Failure τ) α} (h : d.Accounts xs o) {e : Failure τ} (he : o = .error e) :
    d.Accounts xs (.error e : Except (Failure τ) β) := by
  cases h with
  | returned a hxs => cases he
  | worded hxs hw =>
      obtain rfl := Except.error.inj he
      exact .worded hxs hw
  | refused operation target hxs hr hfatal =>
      obtain rfl := Except.error.inj he
      exact .refused operation target hxs hr hfatal
  | escaped hxs hw hr hn =>
      obtain rfl := Except.error.inj he
      exact .escaped hxs hw hr hn

theorem Accounts.settled {o : Except (Failure τ) α} (h : d.Accounts xs o) {a : α} (ho : o = .ok a) :
    ∀ x ∈ xs, d.Settled x := by
  cases h with
  | returned _ hxs => exact hxs
  | _ => cases ho

theorem settled_of_read {x : Exchange τ} (h : x.request.mutates = false) : d.Settled x := fun hm => by
  rw [h] at hm
  cases hm

theorem Watches.mutates {q : Request} (h : d.Watches q) : q.mutates = false := by
  rcases h with rfl | ⟨job, _, rfl⟩
  · exact mutates_namespaceRead
  · exact mutates_jobRead job

theorem accounts_bind {c : Connection} {x : Op τ α} {f : α → Op τ β} (hx : x.Proceeds c d.Accounts)
    (hf : ∀ a, (f a).Proceeds c d.Accounts) : (x >>= f).Proceeds c d.Accounts := by
  refine (hx.bind hf).mono fun xs o h => ?_
  cases h with
  | stopped h => exact h.retype rfl
  | onward hxs hys => exact hys.prepend (hxs.settled rfl)

theorem accounts_pure (d : Linkerd τ) (c : Connection) (a : α) : (pure a : Op τ α).Proceeds c d.Accounts := by
  refine ((remarks_ofExcept (.ok a)).proceeds c).mono ?_
  rintro xs o ⟨rfl, rfl⟩
  exact .returned a (List.forall_mem_nil _)

theorem accounts_fail (d : Linkerd τ) (c : Connection) {e : Failure τ} (he : e.Worded) :
    (fail e : Op τ α).Proceeds c d.Accounts := by
  refine ((remarks_ofExcept (.error e)).proceeds c).mono ?_
  rintro xs o ⟨rfl, rfl⟩
  exact .worded (List.forall_mem_nil _) (.inl he)

theorem accounts_log (d : Linkerd τ) (c : Connection) (level : Level) (message : String) :
    (log level message : Op τ Unit).Proceeds c d.Accounts := by
  refine ((remarks_log level message).proceeds c).mono ?_
  rintro xs o ⟨rfl, rfl⟩
  exact .returned () (List.forall_mem_nil _)

/-! ## Reads -/

/-- An answer to a read that is proper is understood, unless it is a rejection that is not about absence. -/
structure Understands (q : Request) (answer : Except (Failure τ) Value → Except (Failure τ) α) : Prop where
  shown : ∀ v, q.endpoint.Answers (.ok v : Except (Failure τ) Value) →
    ∀ e, answer (.ok v) = .error e → e.Worded
  absent : ∀ r, r.isNotFound = true → ∀ e, answer (.error (.rejected r)) = .error e → e.Worded
  rejected : ∀ r, r.isNotFound = false → answer (.error (.rejected r)) = .error (.rejected r)

theorem accounts_of_worded {o : Except (Failure τ) α} (ho : ∀ e, o = .error e → e.Worded)
    (hxs : ∀ x ∈ xs, d.Settled x) : d.Accounts xs o := by
  cases o with
  | ok a => exact .returned a hxs
  | error e => exact .worded hxs (.inl (ho e rfl))

theorem Understands.accounts {q : Request} {answer : Except (Failure τ) Value → Except (Failure τ) α}
    (h : Understands q answer) (hq : d.Watches q) {y : Exchange τ} (hy : y.request = q)
    (ha : q.endpoint.Answers y.outcome) (hxs : ∀ x ∈ xs, d.Settled x) :
    d.Accounts (xs ++ [y]) (answer y.outcome) := by
  have hread : d.Settled y := settled_of_read (hy ▸ hq.mutates)
  have hall : ∀ x ∈ xs ++ [y], d.Settled x := fun x hx =>
    (List.mem_append.1 hx).elim (hxs x) fun hx => List.mem_singleton.1 hx ▸ hread
  cases ho : y.outcome with
  | ok v =>
      rw [ho] at ha
      exact accounts_of_worded (h.shown v ha) hall
  | error e =>
      rw [ho] at ha
      obtain ⟨r, rfl⟩ := ha
      cases hn : r.isNotFound with
      | true => exact accounts_of_worded (h.absent r hn) hall
      | false =>
          rw [h.rejected r hn]
          exact .escaped hxs (hy ▸ hq) ho hn

theorem understands_exists :
    Understands (τ := τ) namespaceRead fun o => (found o).bind fun a => .ok a.isSome where
  shown v _ e he := by cases he
  absent r hr e he := by simp [found, Failure.isNotFound, hr, Except.bind] at he
  rejected r hr := by simp [found, Failure.isNotFound, hr, Except.bind]

theorem isManaged_of_shaped {ns : Value} (h : ns.ShapedAsNamespace) (hn : ns.isNull = false) :
    ∃ b, Cluster.isManaged ns = .ok b := by
  rcases h with rfl | ⟨metadata, hmetadata, hlabels⟩
  · cases hn
  · cases ns with
    | obj fields =>
        have hfield : (Value.obj fields).field "metadata" = .ok (.obj metadata) := congrArg Except.ok hmetadata
        rcases hlabels with hnone | ⟨labels, hobj⟩
        · refine ⟨false, ?_⟩
          simp only [Cluster.isManaged, hfield, Value.field_obj, hnone, bind, Except.bind]
          rfl
        · simp only [Cluster.isManaged, hfield, Value.field_obj, hobj, bind, Except.bind]
          split
          · exact ⟨_, rfl⟩
          · exact ⟨_, rfl⟩
    | _ => cases hmetadata

theorem understands_managed : Understands (τ := τ) namespaceRead Cluster.managedAnswer where
  shown v hv e he := by
    cases hn : v.isNull with
    | true =>
        simp only [Cluster.managedAnswer, found, hn] at he
        cases he
    | false =>
        obtain ⟨b, hb⟩ := isManaged_of_shaped (hv.1 rfl) hn
        simp only [Cluster.managedAnswer, found, hn, Except.bind, Bool.false_eq_true, if_false, hb] at he
        cases he
  absent r hr e he := by simp [Cluster.managedAnswer, found, Failure.isNotFound, hr, Except.bind] at he
  rejected r hr := by simp [Cluster.managedAnswer, found, Failure.isNotFound, hr, Except.bind]

theorem understands_gone : Understands (τ := τ) namespaceRead Condition.gone where
  shown v _ e he := by cases he
  absent r hr e he := by simp [Condition.gone, found, Failure.isNotFound, hr, Except.bind] at he
  rejected r hr := by simp [Condition.gone, found, Failure.isNotFound, hr, Except.bind]

theorem worded_missing (kind : String) (name ns : Value) : (Failure.missing kind name ns : Failure τ).Worded :=
  ⟨rfl, fun f hf => by cases hf⟩

theorem understands_shown {q : Request} (hq : q.readsJob) (ref : Ref) (types : List String) :
    Understands (τ := τ) q (Condition.shown ref types) where
  shown v hv e he := by
    obtain ⟨b, hb⟩ := hasCondition_of_shaped (hv.2 hq) types
    simp only [Condition.shown, Condition.present, found, Except.bind] at he
    cases hn : v.isNull with
    | true =>
        simp only [hn, if_true] at he
        obtain rfl := Except.error.inj he
        exact worded_missing _ _ _
    | false =>
        simp only [hn, Bool.false_eq_true, if_false, hb] at he
        cases he
  absent r hr e he := by
    have hn : (Failure.rejected r : Failure τ).isNotFound = true := hr
    rw [Condition.shown_error, Failure.unlessAbsent, if_pos hn] at he
    obtain rfl := Except.error.inj he
    exact worded_missing _ _ _
  rejected r hr := by
    have hn : (Failure.rejected r : Failure τ).isNotFound = false := hr
    rw [Condition.shown_error, Failure.unlessAbsent, hn]
    rfl

variable [Time τ]

theorem accounts_of_consults {c : Connection} {x : Op τ α} {q : Request}
    {answer : Except (Failure τ) Value → Except (Failure τ) α} (hx : x.Consults c q answer) (hq : d.Watches q)
    (h : Understands q answer) : x.Proceeds c d.Accounts := by
  refine hx.proceeds.mono ?_
  rintro xs o ⟨y, rfl, hy, ha, rfl⟩
  exact Accounts.prepend_nil (h.accounts hq hy ha (List.forall_mem_nil _))

/-! ## Requests that change something -/

/-- An answer to a request that changes something is no failure, or one that names the request. -/
theorem accounts_of_mutation {c : Connection} {x : Op τ α} {q : Request}
    {answer : Except (Failure τ) Value → Except (Failure τ) α} (hx : x.Consults c q answer)
    (hok : ∀ v, ∃ a, answer (.ok v) = .ok a)
    (hrejected : ∀ r, (d.Tolerates q r ∧ ∃ a, answer (.error (.rejected r)) = .ok a) ∨
      d.Fatal q r ∧ ∃ operation target,
        answer (.error (.rejected r)) = .error (.refused operation target r.reason (some (.rejected r)))) :
    x.Proceeds c d.Accounts := by
  refine hx.proceeds.mono ?_
  rintro xs o ⟨y, rfl, rfl, ha, rfl⟩
  cases ho : y.outcome with
  | ok v =>
      obtain ⟨a, ha⟩ := hok v
      rw [ha]
      exact .returned a (List.forall_mem_singleton.2 fun _ r hr => by cases ho.symm.trans hr)
  | error e =>
      rw [ho] at ha
      obtain ⟨r, rfl⟩ := ha
      rcases hrejected r with ⟨htolerated, a, ha⟩ | ⟨hfatal, operation, target, he⟩
      · rw [ha]
        refine .returned a (List.forall_mem_singleton.2 fun _ r' hr' => ?_)
        obtain rfl : r = r' := Failure.rejected.inj (Except.error.inj (ho.symm.trans hr'))
        exact htolerated
      · rw [he]
        exact Accounts.prepend_nil (.refused operation target (List.forall_mem_nil _) ho hfatal)

omit [Time τ] in
theorem remarks_refuse (operation : String) (target : Value) (r : Rejection) :
    (Cluster.refuse operation target r : Op τ α).Remarks
      (.error (.refused operation target r.reason (some (.rejected r)))) :=
  remarks_ofExcept _

theorem consults_delete (c : Connection) (k : Kind) (ns name policy : Value) :
    (Resource.delete c k ns name policy : Op τ Bool).Consults c (deleteRequest k ns name policy) deleted := by
  have hsend : (do let _ ← c.send (deleteRequest k ns name policy); pure true : Op τ Bool).Consults c
      (deleteRequest k ns name policy) fun o => o.bind fun _ => .ok true :=
    (c.inquires_send _).consults.bind fun _ => remarks_ofExcept _
  have hhandle (r : Rejection) : (if r.isNotFound then pure false else fail (.rejected r) : Op τ Bool).Remarks
      (if r.isNotFound then .ok false else .error (.rejected r)) := by
    split
    · exact remarks_ofExcept _
    · exact remarks_ofExcept _
  refine (funext fun o => ?_ : deleted = _) ▸ hsend.onRejection hhandle
  rcases o with (_ | _) | _ <;> rfl

theorem accounts_creation {c : Connection} {k : Kind} {ns body : Value} (h : d.CreatesOwn (createRequest k ns body))
    (operation : String) (target : Value) :
    ((Resource.create c k ns body).onRejection (Cluster.refuse operation target) : Op τ Value).Proceeds c
      d.Accounts := by
  have hx := (c.inquires_send (τ := τ) (createRequest k ns body)).consults.onRejection
    (remarks_refuse operation target)
  refine accounts_of_mutation hx (fun v => ⟨v, rfl⟩) fun r => .inr ⟨?_, operation, target, rfl⟩
  exact ⟨mutates_createRequest k ns body, fun _ => deletes_createRequest k ns body, fun _ => .inl h⟩

/-- A deletion, of whose result the rest makes something without a further request. -/
theorem accounts_deletion (d : Linkerd τ) (c : Connection) (k : Kind) (ns name policy : Value) (g : Bool → α)
    (operation : String) (target : Value) :
    (Op.onRejection (do let b ← Resource.delete c k ns name policy; pure (g b))
      (Cluster.refuse operation target) : Op τ α).Proceeds c d.Accounts := by
  have hdelete : (do let b ← Resource.delete c k ns name policy; pure (g b) : Op τ α).Consults c _ _ :=
    (consults_delete c k ns name policy).bind fun b => remarks_ofExcept (.ok (g b))
  refine accounts_of_mutation (hdelete.onRejection (remarks_refuse operation target))
    (fun v => ⟨g true, rfl⟩) fun r => ?_
  cases hn : r.isNotFound with
  | true =>
      refine .inl ⟨.inr ⟨hn, deletes_deleteRequest k ns name policy⟩, g false, ?_⟩
      simp [deleted, Failure.isNotFound, hn, Except.bind, recovered]
  | false =>
      have hfatal : d.Fatal (deleteRequest k ns name policy) r :=
        ⟨mutates_deleteRequest k ns name policy, fun h => (by cases hn.symm.trans h),
          fun _ => .inr (deletes_deleteRequest k ns name policy)⟩
      refine .inr ⟨hfatal, operation, target, ?_⟩
      simp [deleted, Failure.isNotFound, hn, Except.bind, recovered, rejectedOr]

/-! ## Roles -/

theorem accounts_applyManifest {m : Value} (hm : m ∈ d.roles) (hs : Manifest.Supported m) (c : Cluster τ) :
    (c.applyManifest d.uninstallNs m).Proceeds c.connection d.Accounts := by
  obtain ⟨⟨metadata, hdescribed⟩, s, hs⟩ := hs
  obtain ⟨k, hserves, htarget⟩ := Cluster.target_eq (τ := τ) d.uninstallNs hs hdescribed
  rw [Cluster.applyManifest, htarget]
  let ns := (metadata.lookup "namespace").getD d.uninstallNs
  have hcreate : (do let _ ← Resource.create c.connection k ns m : Op τ Unit).Consults c.connection
      (createRequest k ns m) fun o => o.bind fun _ => .ok () :=
    (c.connection.inquires_send _).consults.bind fun _ => remarks_ofExcept (.ok ())
  have hhandle (r : Rejection) : (if r.isConflict then pure ()
      else Cluster.refuse ("create " ++ k.label) ((metadata.lookup "name").getD "") r : Op τ Unit).Remarks
      (if r.isConflict then .ok () else .error (.refused ("create " ++ k.label)
        ((metadata.lookup "name").getD "") r.reason (some (.rejected r)))) := by
    split
    · exact remarks_ofExcept _
    · exact remarks_refuse _ _ r
  refine accounts_of_mutation (hcreate.onRejection hhandle) (fun v => ⟨(), rfl⟩) fun r => ?_
  cases hc : r.isConflict with
  | true =>
      refine .inl ⟨.inl ⟨hc, m, hm, s, metadata, hs, hdescribed, hserves.creation_eq _ m⟩, (), ?_⟩
      simp [Except.bind, recovered, rejectedOr, hc]
  | false =>
      have hfatal : d.Fatal (createRequest k ns m) r :=
        ⟨mutates_createRequest k ns m, fun _ => deletes_createRequest k ns m, fun h => by cases hc.symm.trans h⟩
      refine .inr ⟨hfatal, "create " ++ k.label, (metadata.lookup "name").getD "", ?_⟩
      simp [Except.bind, recovered, rejectedOr, hc]

theorem accounts_applyManifests {ms : List Value} (hms : ms ⊆ d.roles) (hs : ∀ m ∈ ms, Manifest.Supported m)
    (c : Cluster τ) : (c.applyManifests d.uninstallNs ms).Proceeds c.connection d.Accounts := by
  induction ms with
  | nil => exact accounts_pure d c.connection ()
  | cons m ms ih =>
      obtain ⟨hm, hms⟩ := List.cons_subset.1 hms
      obtain ⟨hsm, hs⟩ := List.forall_mem_cons.1 hs
      exact accounts_bind (accounts_applyManifest hm hsm c) fun _ => ih hms hs

theorem accounts_deleteManifests {ms : List Value} (hs : ∀ m ∈ ms, Manifest.Supported m) (d : Linkerd τ)
    (c : Cluster τ) : (c.deleteManifests d.uninstallNs ms).Proceeds c.connection d.Accounts := by
  induction ms with
  | nil => exact accounts_pure d c.connection ()
  | cons m ms ih =>
      obtain ⟨⟨⟨_, hdescribed⟩, s, hm⟩, hs⟩ := List.forall_mem_cons.1 hs
      obtain ⟨k, _, htarget⟩ := Cluster.target_eq (τ := τ) d.uninstallNs hm hdescribed
      refine accounts_bind ?_ fun _ => ih hs
      rw [Cluster.deleteManifest, htarget]
      exact accounts_deletion d c.connection k _ _ .null (fun _ => ()) _ _

/-! ## Waits -/

/-- A part of a run that only reads. -/
def Reads (d : Linkerd τ) : Trace τ α := fun xs o => (∀ x ∈ xs, x.request.mutates = false) ∧ d.Accounts xs o

theorem worded_ending (p : Poll τ) (started : τ) (w : World τ) : (p.ending started w).Worded := by
  unfold Poll.ending
  split
  · exact ⟨rfl, fun f hf => by cases hf⟩
  · exact ⟨rfl, fun f hf => by cases hf⟩

theorem reads_poll {c : Cluster τ} {timeout : Option (Seconds τ)} (hp : c.Paced timeout) {q : Request}
    {answer : Except (Failure τ) Value → Except (Failure τ) (Option Value)} {k : Condition τ}
    (hk : k.check.Consults c.connection q answer) (hq : d.Watches q) (hu : Understands q answer) (cancel : Option τ) :
    (k.poll c.interval (c.timeoutOf timeout) cancel).Proceeds c.connection d.Reads := by
  refine (Condition.proceeds_poll hk hp.interval hp.timeout hp.inRange cancel).mono ?_
  rintro xs o ⟨hxs, hend⟩
  have hreads : ∀ x ∈ xs, x.request.mutates = false := fun x hx => (hxs x hx).1 ▸ hq.mutates
  refine ⟨hreads, ?_⟩
  have hsettled : ∀ x ∈ xs, d.Settled x := fun x hx => settled_of_read (hreads x hx)
  rcases hend with ⟨p, started, v, rfl⟩ | ⟨front, x, rfl, ha⟩
  · exact .worded hsettled (.inl (worded_ending p started v))
  · obtain ⟨hx, hanswers⟩ := hxs x (List.mem_append_right front List.mem_cons_self)
    have h := hu.accounts hq hx hanswers fun y hy => hsettled y (List.mem_append_left [x] hy)
    rw [ha] at h
    cases o with
    | ok a => exact .returned a hsettled
    | error e => exact h.retype rfl

theorem reads_withProgress {c : Connection} {body : Op τ α} (h : body.Proceeds c d.Reads) {sink : Option (Sink τ)}
    (hsink : ∀ s ∈ sink, s = d.sink) (message : String) :
    (withProgress sink message body).Proceeds c d.Reads := by
  refine (proceeds_withProgress h sink message).mono ?_
  rintro xs o (h | ⟨⟨e, rfl, s, hs, hbreaks⟩, hxs⟩)
  · exact h
  · obtain rfl := hsink s hs
    have hreads : ∀ x ∈ xs, x.request.mutates = false := by
      rcases hxs with rfl | ⟨_, hreads, _⟩
      · exact List.forall_mem_nil _
      · exact hreads
    exact ⟨hreads, .worded (fun x hx => settled_of_read (hreads x hx)) (.inr hbreaks)⟩

theorem reads_wait {c : Cluster τ} (hp : c.Paced d.timeout) {q : Request}
    {answer : Except (Failure τ) Value → Except (Failure τ) (Option Value)} {k : Condition τ}
    (hk : k.check.Consults c.connection q answer) (hq : d.Watches q) (hu : Understands q answer)
    {sink : Option (Sink τ)} (hsink : ∀ s ∈ sink, s = d.sink) (message : String) :
    (do let _ ← c.wait (.valid k) d.limits sink message : Op τ Unit).Proceeds c.connection d.Reads := by
  have hwait : (c.wait (.valid k) d.limits sink message).Proceeds c.connection d.Reads :=
    reads_withProgress (reads_poll hp hk hq hu none) hsink message
  refine (hwait.bind fun _ => (remarks_ofExcept (.ok ())).proceeds c.connection).mono fun xs o h => ?_
  cases h with
  | stopped h => exact ⟨h.1, h.2.retype rfl⟩
  | onward h hdone =>
      obtain ⟨rfl, rfl⟩ := hdone
      rw [List.append_nil]
      exact ⟨h.1, .returned () (h.2.settled rfl)⟩

theorem accounts_step {c : Connection} {x : Op τ α} (h : x.Proceeds c d.Reads) (what : String) :
    (step what x).Proceeds c d.Accounts := by
  rw [step_eq]
  refine (h.onFailure_fail (reported what)).mono ?_
  rintro xs _ ⟨r, ⟨hreads, h⟩, rfl⟩
  cases h with
  | returned a hxs => exact .returned a hxs
  | worded hxs he =>
      refine .worded hxs ?_
      rcases he with he | hbreaks
      · rw [reported, if_pos he.1]
        exact .inl ⟨rfl, fun f hf => Option.some.inj hf ▸ he.1⟩
      · rw [reported, if_neg (by rw [hbreaks.isCluster_eq]; exact Bool.false_ne_true)]
        exact .inr hbreaks
  | refused operation target hxs hr hfatal =>
      -- A wait changes nothing, so that it has nothing to be refused.
      cases (hreads _ (List.mem_append_right _ List.mem_cons_self)).symm.trans hfatal.mutates
  | escaped hxs hq hr hn => exact .escaped hxs hq hr hn

/-! ## Parts of a run -/

theorem accounts_namespaceExists (d : Linkerd τ) (c : Cluster τ) :
    (c.namespaceExists id).Proceeds c.connection d.Accounts := by
  have hx : (c.namespaceExists id).Inquires c.connection namespaceRead fun o => (found o).bind fun a => .ok a.isSome :=
    (Condition.inquires_get c.connection .namespaceKind .null id).bind fun _ => rfl
  exact accounts_of_consults hx.consults (.inl rfl) understands_exists

theorem accounts_namespaceManaged (d : Linkerd τ) (c : Cluster τ) :
    (c.namespaceManaged id).Proceeds c.connection d.Accounts := by
  have hx : (c.namespaceManaged id).Inquires c.connection namespaceRead Cluster.managedAnswer :=
    (Condition.inquires_get c.connection .namespaceKind .null id).bind fun found => by
      cases found with
      | none => rfl
      | some ns => rfl
  exact accounts_of_consults hx.consults (.inl rfl) understands_managed

theorem accounts_createNamespace (d : Linkerd τ) (c : Cluster τ) :
    (createNamespace c).Proceeds c.connection d.Accounts := by
  refine accounts_bind (d.accounts_namespaceExists c) fun there => ?_
  cases there with
  | true => exact d.accounts_pure c.connection ()
  | false =>
      have hcreate := accounts_creation (c := c.connection) (d := d) (.inl createRequest_namespace)
        "create namespace" id
      exact accounts_bind hcreate fun _ => d.accounts_pure c.connection ()

theorem accounts_createJob {c : Cluster τ} {ns body : Value} (hown : d.CreatesOwn (createRequest .job ns body))
    (hbody : ∃ metadata, Manifest.Described body metadata) :
    (c.createJob ns (.manifest body)).Proceeds c.connection d.Accounts := by
  obtain ⟨_, hbody⟩ := hbody
  obtain ⟨job, _, hname⟩ := hbody.exists_name
  have heq : c.createJob ns (.manifest body) = (Resource.create c.connection .job ns body).onRejection
      (Cluster.refuse "create job" job) := by
    simp only [Cluster.createJob, Cluster.createBody, Body.name, Body.value, hname]
    rfl
  rw [heq]
  exact accounts_creation hown _ _

theorem accounts_deleteJob (d : Linkerd τ) (c : Cluster τ) (ns name : Value) :
    (c.deleteJob ns name).Proceeds c.connection d.Accounts := by
  have h := d.accounts_deletion c.connection .job ns name "Background" (fun b => b) "delete job" name
  rwa [bind_pure] at h

omit [Time τ] in
theorem readsJob_readRequest (name : Value) : (readRequest .job id name).readsJob := rfl

theorem accounts_awaitJobDone {c : Cluster τ} (hp : c.Paced d.timeout) {job : String}
    (hjob : Manifest.name d.installJob = .ok (.str job)) (what : String) :
    (step what (c.awaitJobDone id job d.limits)).Proceeds c.connection d.Accounts := by
  obtain ⟨k, hk⟩ : ∃ k : Condition τ, Condition.jobDone c.connection id job = .valid k := ⟨_, rfl⟩
  obtain ⟨ref, _, hlook⟩ := Condition.consults_shown hk
  refine accounts_step ?_ what
  rw [Cluster.awaitJobDone, hk]
  exact reads_wait hp hlook (.inr ⟨job, hjob, rfl⟩) (understands_shown (readsJob_readRequest _) ref _)
    (fun s hs => by cases hs) _

theorem accounts_jobFailed {job : String} (hjob : Manifest.name d.installJob = .ok (.str job)) (c : Cluster τ) :
    (c.jobFailed id job).Proceeds c.connection d.Accounts := by
  obtain ⟨k, hk⟩ : ∃ k : Condition τ, Condition.jobFailed c.connection id job = .valid k := ⟨_, rfl⟩
  obtain ⟨ref, _, hlook⟩ := Condition.consults_shown hk
  have heq : c.jobFailed id job = (do pure (← k.check).isSome) := by
    rw [Cluster.jobFailed, hk]
    rfl
  rw [heq]
  refine accounts_bind ?_ fun a => d.accounts_pure c.connection a.isSome
  exact accounts_of_consults hlook (.inr ⟨job, hjob, rfl⟩) (understands_shown (readsJob_readRequest _) ref _)

theorem accounts_awaitNamespaceAbsent {c : Cluster τ} (hp : c.Paced d.timeout) (what : String) :
    (step what (c.awaitNamespaceAbsent id d.limits (some d.sink))).Proceeds c.connection d.Accounts := by
  obtain ⟨k, hk⟩ : ∃ k : Condition τ, Condition.namespaceAbsent c.connection id = .valid k := ⟨_, rfl⟩
  refine accounts_step ?_ what
  rw [Cluster.awaitNamespaceAbsent, hk]
  exact reads_wait hp (Condition.consults_namespaceAbsent hk) (.inl rfl) understands_gone
    (fun s hs => (Option.some.inj hs).symm) _

/-! ## Runs -/

omit [Time τ] in
theorem worded_cluster (text : String) : (Failure.cluster text none : Failure τ).Worded :=
  ⟨rfl, fun f hf => by cases hf⟩

/-- What a run relies on: the jobs are described, the roles are of supported kinds, and waits can begin. -/
structure WellFormed (d : Linkerd τ) (c : Cluster τ) : Prop where
  install : ∃ metadata, Manifest.Described d.installJob metadata
  uninstall : ∃ metadata, Manifest.Described d.uninstallJob metadata
  roles : ∀ m ∈ d.roles, Manifest.Supported m
  paced : c.Paced d.timeout

variable {c : Cluster τ}

theorem accounts_install (h : d.WellFormed c) : (d.install c).Proceeds c.connection d.Accounts := by
  obtain ⟨_, hdescribed⟩ := h.install
  obtain ⟨job, _, hjob⟩ := hdescribed.exists_name
  rw [install_eq hjob]
  refine accounts_bind (d.accounts_createNamespace c) fun _ =>
    accounts_bind (accounts_applyManifests (List.Subset.refl d.roles) h.roles c) fun _ =>
      accounts_bind (d.accounts_deleteJob c id job) fun _ =>
        accounts_bind (accounts_createJob (.inr (.inl rfl)) h.install) fun _ =>
          accounts_bind (accounts_awaitJobDone h.paced hjob _) fun _ =>
            accounts_bind (accounts_jobFailed hjob c) fun failed => ?_
  cases failed with
  | true => exact d.accounts_fail c.connection (worded_cluster _)
  | false => exact d.accounts_log c.connection _ _

theorem accounts_clear (h : d.WellFormed c) : (d.clear c).Proceeds c.connection d.Accounts :=
  accounts_bind (accounts_createJob (.inr (.inr rfl)) h.uninstall) fun _ =>
    accounts_bind (accounts_awaitNamespaceAbsent h.paced _) fun _ =>
      accounts_bind (accounts_deleteManifests h.roles d c) fun _ => d.accounts_log c.connection _ _

theorem accounts_perform (h : d.WellFormed c) (a : Action) :
    (d.perform c a).Proceeds c.connection d.Accounts := by
  cases a with
  | deploy skip =>
      cases skip with
      | true => exact d.accounts_log c.connection _ _
      | false =>
          refine accounts_bind (d.accounts_namespaceExists c) fun there => ?_
          cases there with
          | true => exact d.accounts_fail c.connection (worded_cluster _)
          | false => exact accounts_bind (d.accounts_log c.connection _ _) fun _ => accounts_install h
  | upgrade =>
      refine accounts_bind (d.accounts_namespaceExists c) fun there => ?_
      cases there with
      | true => exact accounts_bind (d.accounts_log c.connection _ _) fun _ => accounts_install h
      | false => exact d.accounts_fail c.connection (worded_cluster _)
  | delete =>
      refine accounts_bind (d.accounts_log c.connection _ _) fun _ =>
        accounts_bind (d.accounts_namespaceManaged c) fun managed => ?_
      cases managed with
      | true => exact accounts_clear h
      | false => exact d.accounts_log c.connection _ _

/-! ## What leaves a run -/

omit [Time τ] in
theorem Accounts.outcome_cases {o : Except (Failure τ) Unit} (h : d.Accounts xs o) :
    o = .ok () ∨ (∃ e, o = .error e ∧ (e.isCluster = true ∨ d.sink.Breaks e)) ∨
      ∃ front y r, xs = front ++ [y] ∧ d.Watches y.request ∧ r.isNotFound = false ∧
        y.outcome = .error (.rejected r) ∧ o = .error (.rejected r) := by
  cases h with
  | returned a _ => exact .inl rfl
  | worded _ he => exact .inr (.inl ⟨_, rfl, he.imp_left And.left⟩)
  | refused operation target _ _ _ => exact .inr (.inl ⟨_, rfl, .inl rfl⟩)
  | escaped _ hq hr hn => exact .inr (.inr ⟨_, _, _, rfl, hq, hn, hr, rfl⟩)

omit [Time τ] in
theorem cause_ne_rejected {e : Failure τ} (h : e.Worded ∨ d.sink.Breaks e) (r : Rejection) :
    e.cause ≠ some (.rejected r) := by
  intro hc
  rcases h with h | h
  · cases h.2 _ hc
  · cases (Failure.cause_eq_none h.isCluster_eq).symm.trans hc

omit [Time τ] in
theorem Accounts.rejection_cases {o : Except (Failure τ) Unit} (h : d.Accounts xs o) {front back : List (Exchange τ)}
    {y : Exchange τ} {r : Rejection} (hy : xs = front ++ y :: back) (hm : y.request.mutates = true)
    (hr : y.outcome = .error (.rejected r)) :
    (d.Tolerates y.request r ∧ (back = [] → ∀ e, o = .error e → e.cause ≠ some (.rejected r))) ∨
      back = [] ∧ d.Fatal y.request r ∧
        ∃ operation target, o = .error (.refused operation target r.reason (some (.rejected r))) := by
  cases h with
  | returned a hxs => exact .inl ⟨hxs y (by simp [hy]) hm r hr, fun _ e he => by cases he⟩
  | worded hxs he =>
      refine .inl ⟨hxs y (by simp [hy]) hm r hr, fun _ f hf => ?_⟩
      obtain rfl := Except.error.inj hf
      exact cause_ne_rejected he r
  | refused operation target hxs hr' hfatal =>
      rcases concat_eq_split hy with ⟨rfl, rfl⟩ | ⟨hback, hmem⟩
      · obtain rfl := Failure.rejected.inj (Except.error.inj (hr'.symm.trans hr))
        exact .inr ⟨rfl, hfatal, operation, target, rfl⟩
      · exact .inl ⟨hxs y hmem hm r hr, fun hnil => absurd hnil hback⟩
  | escaped hxs hq _ _ =>
      rcases concat_eq_split hy with ⟨rfl, rfl⟩ | ⟨hback, hmem⟩
      · cases hq.mutates.symm.trans hm
      · exact .inl ⟨hxs y hmem hm r hr, fun hnil => absurd hnil hback⟩

/-- A run that is well formed, through an open connection to a cluster that answers properly. It returns, or fails
as the library words it, or is broken off by its sink, or fails with the rejection of its last request, which then
was a read and was not rejected as not found. A rejection of a request that changes something is passed over, or it
answers the last request and is the direct cause of the failure. -/
theorem failures_leaving (d : Linkerd τ) (run : Run τ) (hd : d.WellFormed run.cluster)
    (hw : run.cluster.connection.Ready run.world) :
    let xs := d.exchangesOf run
    let o := (d.result run).1
    (o = .ok () ∨ (∃ e, o = .error e ∧ (e.isCluster = true ∨ d.sink.Breaks e)) ∨
      ∃ front y r, xs = front ++ [y] ∧ d.Watches y.request ∧ r.isNotFound = false ∧
        y.outcome = .error (.rejected r) ∧ o = .error (.rejected r)) ∧
      ∀ front y back r, xs = front ++ y :: back → y.request.mutates = true → y.outcome = .error (.rejected r) →
        (d.Tolerates y.request r ∧ (back = [] → ∀ e, o = .error e → e.cause ≠ some (.rejected r))) ∨
          back = [] ∧ d.Fatal y.request r ∧
            ∃ operation target, o = .error (.refused operation target r.reason (some (.rejected r))) := by
  obtain ⟨_, xs, hxs, haccounts⟩ := accounts_perform hd run.action run.world hw
  have heq : d.exchangesOf run = xs := by
    rw [exchangesOf, result, hxs, List.drop_left]
  rw [heq]
  exact ⟨haccounts.outcome_cases, fun front y back r hy hm hr => haccounts.rejection_cases hy hm hr⟩

/-- A cluster without the namespace, which fails to read jobs. -/
def faltering : World Rat :=
  { completing with script :=
      [(Kind.job.endpoint .read id, [⟨.error (.rejected ⟨.int 500, "Internal Server Error", .null⟩), 0⟩])] }

theorem wellFormed_oneRole : oneRole.WellFormed .watchful where
  install := ⟨_, rfl, fun v hv => ⟨"linkerd-install", (Option.some.inj hv).symm⟩⟩
  uninstall := ⟨_, rfl, fun v hv => by cases hv⟩
  roles := supported_oneRole
  paced := ⟨by decide, by decide, rfl, rfl⟩

theorem ready_faltering : Cluster.watchful.connection.Ready faltering where
  isOpen := rfl
  proper := by
    intro e a ha
    simp only [faltering, Script.queue, List.lookup_cons] at ha
    split at ha
    · obtain rfl := List.mem_singleton.1 ha
      exact ⟨_, rfl⟩
    · cases ha

/-- A deployment that fails as its last read was rejected. -/
theorem failures_leaving_of_faltering :
    let run : Run Rat := ⟨.deploy false, .watchful, faltering⟩
    oneRole.WellFormed run.cluster ∧ run.cluster.connection.Ready run.world ∧
      ∃ front y r, oneRole.exchangesOf run = front ++ [y] ∧ y.request.mutates = false ∧
        (oneRole.result run).1 = .error (.rejected r) := by
  intro run
  refine ⟨wellFormed_oneRole, ready_faltering, ?_⟩
  have hfails : (match (oneRole.result run).1 with
    | .error e => e.isCluster
    | .ok _ => true) = false := by decide +kernel
  obtain ⟨hok | ⟨e, he, hcluster | hbreaks⟩ | ⟨front, y, r, hxs, hy, _, _, hr⟩, _⟩ :=
    failures_leaving oneRole run wellFormed_oneRole ready_faltering
  · rw [hok] at hfails
    cases hfails
  · rw [he] at hfails
    cases hcluster.symm.trans hfails
  · cases hbreaks
  · exact ⟨front, y, r, hxs, hy.mutates, hr⟩

end Linkerd

end ClusterControl
