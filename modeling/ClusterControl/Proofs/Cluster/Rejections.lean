import ClusterControl.Proofs.Cluster.Manifests

/-!
# How a rejection is reported

Creating or deleting one resource sends one request. If the cluster rejects it, then the failure says what was tried
on what, and carries the rejection. The name of what was to be created may have to be looked up in the body, and a
body in which it cannot be looked up hides the rejection.
-/

namespace ClusterControl

open Op Resource

variable {τ α : Type} [Time τ]

/-! ## Operations that ask one question -/

namespace Op

variable {c : Connection} {r : Request} {answer : Except (Failure τ) Value → Except (Failure τ) α}

theorem Inquires.onRejection {x : Op τ α} {handle : Rejection → Op τ α} {next : Rejection → Except (Failure τ) α}
    (hx : x.Inquires c r answer) (hh : ∀ e, handle e = ofExcept (next e)) :
    (x.onRejection handle).Inquires c r fun o => recovered (rejectedOr next) (answer o) := by
  intro w
  rw [Op.onRejection, onFailure, hx w]
  cases c.serves r w with
  | false => rfl
  | true =>
      simp only [if_true]
      cases answer (w.exchange r).1 with
      | ok a => rfl
      | error e =>
          cases e with
          | rejected e => exact congrFun (hh e) (w.exchange r).2
          | _ => rfl

theorem Inquires.onNotFound {x otherwise : Op τ α} {o' : Except (Failure τ) α} (hx : x.Inquires c r answer)
    (ho : otherwise = ofExcept o') :
    (x.onNotFound otherwise).Inquires c r fun o =>
      recovered (rejectedOr fun e => if e.isNotFound then o' else .error (.rejected e)) (answer o) := by
  refine hx.onRejection fun e => ?_
  split
  · exact ho
  · rfl

end Op

namespace Resource

theorem inquires_create (c : Connection) (k : Kind) (ns body : Value) :
    (create c k ns body : Op τ Value).Inquires c (createRequest k ns body) fun o => o :=
  c.inquires_send _

theorem inquires_delete (c : Connection) (k : Kind) (ns name policy : Value) :
    (delete c k ns name policy : Op τ Bool).Inquires c (deleteRequest k ns name policy) fun o =>
      recovered (rejectedOr fun e => if e.isNotFound then .ok false else .error (.rejected e))
        (o.bind fun _ => .ok true) :=
  ((c.inquires_send _).bind fun _ => rfl).onNotFound rfl

end Resource

/-! ## Names of bodies -/

namespace Value

variable {v default : Value} {name : String}

theorem field_eq_error (hv : ∀ fields, v ≠ .obj fields) : v.field name = .error .field := by
  cases v with
  | obj fields => exact absurd rfl (hv fields)
  | _ => rfl

theorem fieldOr_eq_error (hv : ∀ fields, v ≠ .obj fields) : v.fieldOr name default = .error .field := by
  cases v with
  | obj fields => exact absurd rfl (hv fields)
  | _ => rfl

end Value

namespace Body

/-- The body has a place for a name: a manifest is an object, and so are its metadata if they are written; the
metadata of an object are written. -/
def Named : Body → Prop
  | .manifest v => ∃ fields, v = .obj fields ∧ ∀ m, fields.lookup "metadata" = some m → ∃ details, m = .obj details
  | .object v => ∃ details, v.field? "metadata" = .obj details

theorem Named.name_eq {body : Body} (h : body.Named) : ∃ name, body.name = .ok name := by
  cases body with
  | manifest v =>
      obtain ⟨fields, rfl, hmetadata⟩ := h
      cases hl : fields.lookup "metadata" with
      | none => exact ⟨"", by simp [name, Manifest.name, Manifest.metadata, Value.fieldOr, hl, bind, Except.bind]⟩
      | some m =>
          obtain ⟨details, rfl⟩ := hmetadata m hl
          have hdetails : (Value.obj fields).field? "metadata" = .obj details := by
            simp only [Value.field?, hl, Option.getD_some]
          exact ⟨_, Manifest.name_eq_lookup hdetails⟩
  | object v =>
      obtain ⟨details, hdetails⟩ := h
      cases v with
      | obj fields =>
          have hfield : (Value.obj fields).field "metadata" = .ok (.obj details) := congrArg Except.ok hdetails
          exact ⟨_, by simp only [name, hfield, bind, Except.bind, Value.field_obj]; rfl⟩
      | _ => cases hdetails

theorem name_eq_error {body : Body} (h : ¬ body.Named) : body.name = .error .field := by
  cases body with
  | manifest v =>
      cases v with
      | obj fields =>
          cases hl : fields.lookup "metadata" with
          | none => exact absurd ⟨fields, rfl, fun m hm => by rw [hl] at hm; cases hm⟩ h
          | some m =>
              have hm : ∀ details, m ≠ .obj details := fun details hm =>
                h ⟨fields, rfl, fun m' hm' => ⟨details, by rw [hl] at hm'; exact (Option.some.inj hm').symm.trans hm⟩⟩
              show (do (← (Value.obj fields).fieldOr "metadata" (.obj [])).fieldOr "name" "") = _
              rw [Value.fieldOr, hl]
              exact Value.fieldOr_eq_error hm
      | _ => rfl
  | object v =>
      cases v with
      | obj fields =>
          have hm : ∀ details, (Value.obj fields).field? "metadata" ≠ .obj details := fun details hm => h ⟨details, hm⟩
          exact Value.field_eq_error hm
      | _ => rfl

end Body

/-! ## Changes -/

namespace Cluster

/-- What an operation fails with if the cluster rejects its request: the name of the target is looked up first. -/
def refusal (operation : String) (target : Except Malformed Value) (r : Rejection) : Failure τ :=
  match target with
  | .ok name => .refused operation name r.reason (some (.rejected r))
  | .error m => .malformed m

theorem inquires_createBody (c : Cluster τ) (k : Kind) (operation : String) (ns : Value) (body : Body) :
    (c.createBody k operation ns body).Inquires c.connection (createRequest k ns body.value) fun o =>
      recovered (rejectedOr fun r => .error (refusal operation body.name r)) o := by
  refine (inquires_create c.connection k ns body.value).onRejection fun r => ?_
  cases body.name <;> rfl

/-- Only a rejection that says that the resource is not there is taken for a result. -/
theorem inquires_deletion (c : Cluster τ) (k : Kind) (operation : String) (ns name policy : Value) :
    ∃ answer, ((Resource.delete c.connection k ns name policy).onRejection (refuse operation name) : Op τ Bool).Inquires
        c.connection (deleteRequest k ns name policy) answer ∧
      ∀ r, r.isNotFound = false → answer (.error (.rejected r)) = .error (refusal operation (.ok name) r) := by
  refine ⟨_, (inquires_delete c.connection k ns name policy).onRejection fun _ => rfl, fun r hr => ?_⟩
  simp only [Except.bind, recovered, rejectedOr, hr, Bool.false_eq_true, if_false, refusal]

omit [Time τ] in
theorem name_secretBody (name data labels : Value) :
    (Body.object (secretBody name data labels)).name = .ok name.pruned := by
  have hmetadata : (secretBody name data labels).field "metadata" =
      .ok (.obj (Value.prunedFields [("name", name), ("labels", labels)])) := by
    cases data <;> rfl
  simp only [Body.name, hmetadata, bind, Except.bind, Value.field_obj]
  cases name <;> cases labels <;> rfl

/-- A change of one resource, as a caller asks for it. -/
inductive Change where
  | createNamespace (name labels annotations : Value)
  | createSecret (ns : Value) (body : Body)
  | createLabeledSecret (ns name data labels : Value)
  | deleteSecret (ns name : Value)
  | createJob (ns : Value) (body : Body)
  | deleteJob (ns name : Value)

/-- Carries out a change. What the cluster answers to it is dropped. -/
def change (c : Cluster τ) : Change → Op τ Unit
  | .createNamespace name labels annotations => do let _ ← c.createNamespace name labels annotations
  | .createSecret ns body => do let _ ← c.createSecret ns body
  | .createLabeledSecret ns name data labels => do let _ ← c.createLabeledSecret ns name data labels
  | .deleteSecret ns name => c.deleteSecret ns name
  | .createJob ns body => do let _ ← c.createJob ns body
  | .deleteJob ns name => do let _ ← c.deleteJob ns name

namespace Change

def request : Change → Request
  | createNamespace name labels annotations =>
    createRequest .namespaceKind .null (namespaceBody name labels annotations)
  | createSecret ns body => createRequest .secret ns body.value
  | createLabeledSecret ns name data labels => createRequest .secret ns (secretBody name data labels)
  | deleteSecret ns name => deleteRequest .secret ns name .null
  | createJob ns body => createRequest .job ns body.value
  | deleteJob ns name => deleteRequest .job ns name "Background"

def operation : Change → String
  | createNamespace .. => "create namespace"
  | createSecret .. | createLabeledSecret .. => "create secret"
  | deleteSecret .. => "delete secret"
  | createJob .. => "create job"
  | deleteJob .. => "delete job"

/-- The name of the resource: the one that is given, or else the one in the body. -/
def target : Change → Except Malformed Value
  | createNamespace name _ _ | deleteSecret _ name | deleteJob _ name => .ok name
  | createLabeledSecret _ name _ _ => .ok name.pruned
  | createSecret _ body | createJob _ body => body.name

/-- The name is given, or the body has a place for it. -/
def Named : Change → Prop
  | createSecret _ body | createJob _ body => body.Named
  | _ => True

/-- A rejection that is taken for a result: there is nothing to delete. -/
def tolerates : Change → Rejection → Bool
  | deleteSecret .., r | deleteJob .., r => r.isNotFound
  | _, _ => false

variable {x : Change}

theorem Named.target_eq (h : x.Named) : ∃ name, x.target = .ok name := by
  cases x with
  | createSecret ns body => exact Body.Named.name_eq h
  | createJob ns body => exact Body.Named.name_eq h
  | _ => exact ⟨_, rfl⟩

theorem target_eq_error (h : ¬ x.Named) : x.target = .error .field := by
  cases x with
  | createSecret ns body => exact Body.name_eq_error h
  | createJob ns body => exact Body.name_eq_error h
  | _ => exact absurd trivial h

end Change

/-- One request, and what comes of it if it is rejected. -/
theorem inquires_change (c : Cluster τ) (x : Change) :
    ∃ answer, (c.change x).Inquires c.connection x.request answer ∧
      ∀ r, x.tolerates r = false → answer (.error (.rejected r)) = .error (refusal x.operation x.target r) := by
  cases x with
  | createNamespace name labels annotations =>
      exact ⟨_, ((inquires_create c.connection _ _ _).onRejection fun _ => rfl).bind fun _ => rfl, fun _ _ => rfl⟩
  | createSecret ns body =>
      exact ⟨_, (c.inquires_createBody .secret _ ns body).bind fun _ => rfl, fun _ _ => rfl⟩
  | createLabeledSecret ns name data labels =>
      refine ⟨_, (c.inquires_createBody .secret _ ns (.object (secretBody name data labels))).bind fun _ => rfl,
        fun r _ => ?_⟩
      rw [name_secretBody]
      rfl
  | deleteSecret ns name =>
      obtain ⟨answer, hdelete, hanswer⟩ := c.inquires_deletion .secret "delete secret" ns name .null
      have hended (deleted : Bool) :
          (if deleted then pure () else fail (.refused "delete secret" name "not found" none) : Op τ Unit) =
            Op.ofExcept (if deleted then .ok () else .error (.refused "delete secret" name "not found" none)) := by
        cases deleted <;> rfl
      refine ⟨_, hdelete.bind hended, fun r hr => ?_⟩
      rw [hanswer r hr]
      rfl
  | createJob ns body =>
      exact ⟨_, (c.inquires_createBody .job _ ns body).bind fun _ => rfl, fun _ _ => rfl⟩
  | deleteJob ns name =>
      obtain ⟨answer, hdelete, hanswer⟩ := c.inquires_deletion .job "delete job" ns name "Background"
      refine ⟨_, hdelete.bind fun _ => rfl, fun r hr => ?_⟩
      rw [hanswer r hr]
      rfl

/-- A rejection is reported with what was tried on what, and as the cause of the failure, exactly if the target is
named. If the body has no place for its name, then looking for it fails, and the rejection is lost. -/
theorem change_rejected (c : Cluster τ) (x : Change) {w : World τ} {r : Rejection}
    (hw : c.connection.isOpen w = true) (hr : (w.exchange x.request).1 = .error (.rejected r))
    (ht : x.tolerates r = false) :
    (c.change x w).2 = (w.exchange x.request).2 ∧
    (x.Named → ∃ name, x.target = .ok name ∧
      (c.change x w).1 = .error (.refused x.operation name r.reason (some (.rejected r)))) ∧
    (¬ x.Named → (c.change x w).1 = .error (.malformed .field)) := by
  obtain ⟨answer, hchange, hanswer⟩ := c.inquires_change x
  have hrun : c.change x w = (.error (refusal x.operation x.target r), (w.exchange x.request).2) := by
    rw [hchange w, if_pos (Connection.serves_of_isOpen hw _), hr, hanswer r ht]
  rw [hrun]
  refine ⟨rfl, fun hnamed => ?_, fun hnamed => ?_⟩
  · obtain ⟨name, htarget⟩ := hnamed.target_eq
    exact ⟨name, htarget, by rw [htarget]; rfl⟩
  · rw [Change.target_eq_error hnamed]
    rfl

/-- A cluster that creates neither secrets nor jobs. -/
def rejecting : World Rat :=
  let refused : List (Response Rat) := [⟨.error (.rejected ⟨.int 422, "Invalid", .null⟩), 1⟩]
  (World.initial
    [(Kind.secret.endpoint .create "apps", refused), (Kind.job.endpoint .create "apps", refused)] []).connected

/-- A secret without metadata is one without a name, which is no obstacle. -/
theorem change_rejected_of_secret :
    (watchful.change (.createSecret "apps" (.manifest (.obj [("kind", "Secret")]))) rejecting).1 =
      .error (.refused "create secret" "" "Invalid" (some (.rejected ⟨.int 422, "Invalid", .null⟩))) := by
  have hnamed : Change.Named (.createSecret "apps" (.manifest (.obj [("kind", "Secret")]))) :=
    ⟨_, rfl, fun m hm => by cases hm⟩
  obtain ⟨_, hreport, _⟩ := change_rejected watchful (.createSecret "apps" (.manifest (.obj [("kind", "Secret")])))
    (w := rejecting) rfl rfl rfl
  obtain ⟨name, htarget, hrun⟩ := hreport hnamed
  obtain rfl : "" = name := Except.ok.inj htarget
  exact hrun

/-- A job whose metadata are written as nothing: that the cluster rejects it is not reported. -/
theorem rejection_lost_of_job :
    let job : Value := .obj [("kind", "Job"), ("metadata", .null)]
    let run := watchful.createJob "apps" (.manifest job) rejecting
    (rejecting.exchange (createRequest .job "apps" job)).1 = .error (.rejected ⟨.int 422, "Invalid", .null⟩) ∧
    ¬ ∃ operation target reason,
      run.1 = .error (.refused operation target reason (some (.rejected ⟨.int 422, "Invalid", .null⟩))) := by
  refine ⟨rfl, ?_⟩
  rintro ⟨operation, target, reason, hrun⟩
  have hlook : (watchful.createJob "apps" (.manifest (.obj [("kind", "Job"), ("metadata", .null)])) rejecting).1 =
      .error (.malformed .field) := rfl
  cases hlook.symm.trans hrun

end Cluster

end ClusterControl
