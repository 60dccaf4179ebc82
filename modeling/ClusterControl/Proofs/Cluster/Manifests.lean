import ClusterControl.Proofs.Cluster.Answers
import ClusterControl.Proofs.Cluster.Resources

/-!
# Lists of manifests are worked through in order

Creation and deletion go through a list of manifests the same way: one request for each, in order, up to the first
manifest of an unsupported kind or the first answer that is not tolerated. They differ in the request, in the
rejection that they tolerate, and in the words of the failure.
-/

namespace ClusterControl

open Op Resource

variable {τ : Type}

/-! ## Worlds after several requests -/

namespace World

variable [Time τ]

/-- The cluster answers the requests one after the other. -/
def exchangeAll (w : World τ) (rs : List Request) : World τ := rs.foldl (fun w r => (w.exchange r).2) w

theorem exchangeAll_append (w : World τ) (rs qs : List Request) :
    w.exchangeAll (rs ++ qs) = (w.exchangeAll rs).exchangeAll qs :=
  List.foldl_append

theorem requests_exchangeAll (w : World τ) (rs : List Request) : (w.exchangeAll rs).requests = w.requests ++ rs := by
  induction rs generalizing w with
  | nil => exact (List.append_nil _).symm
  | cons r rs ih =>
      have hrest := ih (w.exchange r).2
      rw [requests_exchange, List.append_assoc, List.singleton_append] at hrest
      exact hrest

theorem isOpen_exchangeAll (w : World τ) (rs : List Request) (c : Connection) :
    c.isOpen (w.exchangeAll rs) = c.isOpen w := by
  induction rs generalizing w with
  | nil => rfl
  | cons r rs ih => exact ih (w.exchange r).2

end World

/-! ## What a manifest describes -/

namespace Manifest

/-- The manifest is an object, in which the metadata is one as well and the kind is a text, unless they are absent. -/
def Shaped (m : Value) : Prop :=
  ∃ fields, m = .obj fields ∧ (∀ v, fields.lookup "metadata" = some v → ∃ details, v = .obj details) ∧
    ∀ v, fields.lookup "kind" = some v → ∃ s, v = .str s

/-- The metadata, which is empty if it is absent. -/
def details (m : Value) : List (String × Value) :=
  match m.field? "metadata" with
  | .obj fields => fields
  | _ => []

def supported? (m : Value) : Option Kind :=
  match m.field? "kind" with
  | .str s => Kind.ofManifestLabel? s
  | _ => none

theorem Shaped.metadata_eq {m : Value} (h : Shaped m) : metadata m = .ok (.obj (details m)) := by
  obtain ⟨fields, rfl, hmetadata, _⟩ := h
  cases hl : fields.lookup "metadata" with
  | none => simp [metadata, Value.fieldOr, details, Value.field?, hl]
  | some v =>
      obtain ⟨details, rfl⟩ := hmetadata v hl
      simp [metadata, Value.fieldOr, Manifest.details, Value.field?, hl]

theorem Shaped.kind_eq {m : Value} (h : Shaped m) :
    (kind m : Except (Failure τ) Kind) =
      (supported? m).elim (.error (unsupported (m.field? "kind"))) .ok := by
  obtain ⟨fields, rfl, _, hkind⟩ := h
  cases hl : fields.lookup "kind" with
  | none => simp [kind, supported?, Value.field?, hl]
  | some v =>
      obtain ⟨s, rfl⟩ := hkind v hl
      cases hs : Kind.ofManifestLabel? s <;> simp [kind, supported?, Value.field?, hl, hs]

/-- A manifest has a service exactly if its kind is supported, and then the service is one for the kind. -/
theorem service_cases (m : Value) :
    (supported? m = none ∧ Service.of? m = none) ∨
      ∃ k s, supported? m = some k ∧ Service.of? m = some s ∧ s.Serves k := by
  cases hs : Service.of? m with
  | some s =>
      obtain ⟨k, label, hk, hfield, hserves⟩ := Service.exists_kind hs
      refine .inr ⟨k, s, ?_, rfl, hserves⟩
      rw [supported?, hfield]
      exact Kind.ofManifestLabel?_eq_some hk
  | none =>
      refine .inl ⟨?_, rfl⟩
      unfold supported?
      split
      · rename_i label hfield
        refine Option.eq_none_iff_forall_ne_some.2 fun k hk => ?_
        have hlabel : k.manifestLabel? = some label := by simpa using List.find?_some hk
        obtain ⟨s, hfound, _⟩ := Service.exists_serves hlabel
        rw [Service.of?, hfield] at hs
        cases hfound.symm.trans hs
      · rfl

end Manifest

namespace Cluster

/-- The resource that a manifest describes, if its kind is supported. -/
def targetOf (default m : Value) : Option Target :=
  (Manifest.supported? m).map fun k =>
    { kind := k
      ns := ((Manifest.details m).lookup "namespace").getD default
      name := ((Manifest.details m).lookup "name").getD "" }

theorem target_eq_targetOf {m : Value} (h : Manifest.Shaped m) (default : Value) :
    (target default m : Op τ Target) =
      (targetOf default m).elim (fail (Manifest.unsupported (m.field? "kind"))) pure := by
  have hname : Manifest.name m = .ok (((Manifest.details m).lookup "name").getD "") := by
    simp [Manifest.name, h.metadata_eq, bind, Except.bind, Value.fieldOr]
  have hns : Manifest.ns m default = .ok (((Manifest.details m).lookup "namespace").getD default) := by
    simp [Manifest.ns, h.metadata_eq, bind, Except.bind, Value.fieldOr]
  simp only [target, h.kind_eq, hname, hns, targetOf]
  cases Manifest.supported? m <;> rfl

/-- One way to work through manifests: what is asked for the resource that each describes, which rejection is
tolerated, and what a failure says was tried. -/
structure Handling where
  request (manifest : Value) (t : Target) : Request
  tolerates : Rejection → Bool
  verb : String

namespace Handling

/-- What is there already is not created again. -/
def creation : Handling where
  request m t := createRequest t.kind t.ns m
  tolerates := Rejection.isConflict
  verb := "create"

/-- What is gone already need not be deleted. -/
def deletion : Handling where
  request _ t := deleteRequest t.kind t.ns t.name .null
  tolerates := Rejection.isNotFound
  verb := "delete"

/-- The request for a manifest, unless its kind is unsupported. -/
def request? (h : Handling) (default m : Value) : Option Request := (targetOf default m).map (h.request m)

/-- The requests for a list of manifests. -/
def requests (h : Handling) (default : Value) (ms : List Value) : List Request := ms.filterMap (h.request? default)

/-- What becomes of a manifest by the answer to its request. -/
def verdict (h : Handling) (t : Target) : Except (Failure τ) Value → Except (Failure τ) Unit
  | .ok _ => .ok ()
  | .error (.rejected r) =>
    if h.tolerates r then .ok ()
    else .error (.refused (h.verb ++ " " ++ t.kind.label) t.name r.reason (some (.rejected r)))
  | .error e => .error e

variable [Time τ]

/-- What becomes of a manifest that is reached in the world. -/
def outcome (h : Handling) (default m : Value) (w : World τ) : Except (Failure τ) Unit :=
  match targetOf default m with
  | none => .error (Manifest.unsupported (m.field? "kind"))
  | some t => h.verdict t (w.exchange (h.request m t)).1

/-- The world in which manifest `j` is reached, if none before it fails. -/
def before (h : Handling) (default : Value) (ms : List Value) (w : World τ) (j : Nat) : World τ :=
  w.exchangeAll (h.requests default (ms.take j))

/-- None of the first manifests fails. -/
def Passes (h : Handling) (default : Value) (ms : List Value) (w : World τ) (j : Nat) : Prop :=
  ∀ i < j, ∀ m, ms[i]? = some m → h.outcome default m (h.before default ms w i) = .ok ()

/-- The run asks for the manifests in order, once each, up to the first that fails, and ends as that one does. -/
structure Folds (h : Handling) (default : Value) (ms : List Value) (w : World τ)
    (run : Except (Failure τ) Unit × World τ) : Prop where
  returns : h.Passes default ms w ms.length → (h.requests default ms).length = ms.length ∧
    run = (.ok (), w.exchangeAll (h.requests default ms))
  stops {j : Nat} {m : Value} {e : Failure τ} : h.Passes default ms w j → ms[j]? = some m →
    h.outcome default m (h.before default ms w j) = .error e →
      (h.requests default (ms.take j)).length = j ∧
      run = (.error e, w.exchangeAll (h.requests default (ms.take j) ++ (h.request? default m).toList))

variable {h : Handling} {default m : Value} {ms : List Value} {w : World τ} {e : Failure τ}

theorem request?_of_outcome (ho : h.outcome default m w = .ok ()) : ∃ r, h.request? default m = some r := by
  cases ht : targetOf default m with
  | none => simp [outcome, ht] at ho
  | some t => exact ⟨h.request m t, by rw [request?, ht]; rfl⟩

theorem requests_take_succ {j : Nat} (hm : ms[j]? = some m) :
    h.requests default (ms.take (j + 1)) = h.requests default (ms.take j) ++ (h.request? default m).toList := by
  rw [List.take_add_one, hm, requests, List.filterMap_append]
  cases hr : h.request? default m <;> simp [requests, hr]

theorem before_succ {j : Nat} (hm : ms[j]? = some m) :
    h.before default ms w (j + 1) = (h.before default ms w j).exchangeAll (h.request? default m).toList := by
  rw [before, before, requests_take_succ hm, World.exchangeAll_append]

section

variable {c : Connection} (all : List Value → Op τ Unit) {one : Value → Op τ Unit}
  (hcons : ∀ m ms, all (m :: ms) = (one m >>= fun _ => all ms))
  (hone : ∀ m w, Manifest.Shaped m → c.isOpen w = true →
    one m w = (h.outcome default m w, w.exchangeAll (h.request? default m).toList))

include hcons hone

theorem all_run (hms : ∀ m ∈ ms, Manifest.Shaped m) (hw : c.isOpen w = true) {j : Nat} (hm : ms[j]? = some m) :
    all (ms.drop j) (h.before default ms w j) =
      match h.outcome default m (h.before default ms w j) with
      | .ok () => all (ms.drop (j + 1)) (h.before default ms w (j + 1))
      | .error e => (.error e, h.before default ms w (j + 1)) := by
  obtain ⟨hj, rfl⟩ := List.getElem?_eq_some_iff.1 hm
  have hopen : c.isOpen (h.before default ms w j) = true := (w.isOpen_exchangeAll _ c).trans hw
  rw [List.drop_eq_getElem_cons hj, hcons, bind_run, hone _ _ (hms _ (List.getElem_mem hj)) hopen, ← before_succ hm]
  cases h.outcome default ms[j] (h.before default ms w j) <;> rfl

/-- After the first manifests have passed, the rest are left, in the world after one request for each. -/
theorem run_of_passes (hms : ∀ m ∈ ms, Manifest.Shaped m) (hw : c.isOpen w = true) {j : Nat} (hj : j ≤ ms.length)
    (hpasses : h.Passes default ms w j) :
    (h.requests default (ms.take j)).length = j ∧ all ms w = all (ms.drop j) (h.before default ms w j) := by
  induction j with
  | zero => exact ⟨rfl, rfl⟩
  | succ j ih =>
      obtain ⟨hlength, hrun⟩ := ih (Nat.le_of_succ_le hj) fun i hi => hpasses i (Nat.lt_succ_of_lt hi)
      have hm := List.getElem?_eq_getElem hj
      have ho := hpasses j (Nat.lt_succ_self j) _ hm
      obtain ⟨r, hr⟩ := request?_of_outcome ho
      refine ⟨?_, ?_⟩
      · rw [requests_take_succ hm, hr, List.length_append, hlength]
        rfl
      · rw [hrun, all_run all hcons hone hms hw hm, ho]

theorem folds (hnil : all [] = pure ()) (hms : ∀ m ∈ ms, Manifest.Shaped m) (hw : c.isOpen w = true) :
    h.Folds default ms w (all ms w) where
  returns hpasses := by
    obtain ⟨hlength, hrun⟩ := run_of_passes all hcons hone hms hw (Nat.le_refl _) hpasses
    rw [List.take_length] at hlength
    rw [hrun, List.drop_length, hnil, before, List.take_length]
    exact ⟨hlength, rfl⟩
  stops {j m e} hpasses hm ho := by
    obtain ⟨hj, _⟩ := List.getElem?_eq_some_iff.1 hm
    obtain ⟨hlength, hrun⟩ := run_of_passes all hcons hone hms hw (Nat.le_of_lt hj) hpasses
    refine ⟨hlength, ?_⟩
    rw [hrun, all_run all hcons hone hms hw hm, ho, before_succ hm, before, World.exchangeAll_append]

end

/-- A manifest is looked at first, and what it describes is then handled by one request. -/
theorem outcome_run {handle : Target → Op τ Unit} (hm : Manifest.Shaped m)
    (hhandle : ∀ t, handle t w = (h.verdict t (w.exchange (h.request m t)).1, (w.exchange (h.request m t)).2)) :
    (target default m >>= handle) w = (h.outcome default m w, w.exchangeAll (h.request? default m).toList) := by
  rw [target_eq_targetOf hm, outcome, request?]
  cases targetOf default m with
  | none => rfl
  | some t => exact hhandle t

end Handling

/-! ## Creation and deletion -/

section

variable [Time τ] {c : Cluster τ} {w : World τ} {m : Value}

theorem send_run (hw : c.connection.isOpen w = true) (r : Request) : c.connection.send r w = w.exchange r := by
  rw [c.connection.inquires_send r w, if_pos (Connection.serves_of_isOpen hw r)]

theorem applyManifest_run (hm : Manifest.Shaped m) (hw : c.connection.isOpen w = true) (default : Value) :
    c.applyManifest default m w =
      (Handling.creation.outcome default m w, w.exchangeAll (Handling.creation.request? default m).toList) := by
  refine Handling.outcome_run hm fun t => ?_
  rw [onRejection, onFailure, bind_run, Resource.create, send_run hw]
  show _ = (Handling.creation.verdict t (w.exchange (createRequest t.kind t.ns m)).1,
    (w.exchange (createRequest t.kind t.ns m)).2)
  rcases w.exchange (createRequest t.kind t.ns m) with ⟨e | v, u⟩
  · cases e with
    | rejected r => cases hr : r.isConflict <;> simp [Handling.verdict, Handling.creation, hr, refuse]
    | _ => rfl
  · rfl

/-- That there is nothing to delete is tolerated below the list of manifests, by the deletion itself. -/
theorem deleteManifest_run (hm : Manifest.Shaped m) (hw : c.connection.isOpen w = true) (default : Value) :
    c.deleteManifest default m w =
      (Handling.deletion.outcome default m w, w.exchangeAll (Handling.deletion.request? default m).toList) := by
  refine Handling.outcome_run hm fun t => ?_
  rw [onRejection, onFailure, bind_run, Resource.delete, onNotFound, onRejection, onFailure, bind_run, send_run hw]
  show _ = (Handling.deletion.verdict t (w.exchange (deleteRequest t.kind t.ns t.name .null)).1,
    (w.exchange (deleteRequest t.kind t.ns t.name .null)).2)
  rcases w.exchange (deleteRequest t.kind t.ns t.name .null) with ⟨e | v, u⟩
  · cases e with
    | rejected r => cases hr : r.isNotFound <;> simp [Handling.verdict, Handling.deletion, hr, refuse]
    | _ => rfl
  · rfl

/-- Creation and deletion work through any list of manifests in order and stop at the first real failure. For each
manifest they call the two methods that serve its kind, if it is supported, both for the namespace that it names or else
the given one; the one passes the manifest itself, the other its name. -/
theorem manifests_fold (c : Cluster τ) (default : Value) {ms : List Value} (hms : ∀ m ∈ ms, Manifest.Shaped m)
    {w : World τ} (hw : c.connection.isOpen w = true) :
    Handling.creation.Folds default ms w (c.applyManifests default ms w) ∧
    Handling.deletion.Folds default ms w (c.deleteManifests default ms w) ∧
    ∀ m ∈ ms,
      let ns := ((Manifest.details m).lookup "namespace").getD default
      let name := ((Manifest.details m).lookup "name").getD ""
      Handling.creation.request? default m = (Service.of? m).map (·.creation ns m) ∧
        Handling.deletion.request? default m = (Service.of? m).map (·.deletion ns name) := by
  refine ⟨?_, ?_, fun m _ => ?_⟩
  · exact Handling.folds (c.applyManifests default) (fun _ _ => rfl)
      (fun _ _ hm hw => applyManifest_run hm hw default) rfl hms hw
  · exact Handling.folds (c.deleteManifests default) (fun _ _ => rfl)
      (fun _ _ hm hw => deleteManifest_run hm hw default) rfl hms hw
  · rcases Manifest.service_cases m with ⟨hnone, hs⟩ | ⟨k, s, hk, hs, hserves⟩
    · simp [Handling.request?, targetOf, hnone, hs]
    · simp [Handling.request?, targetOf, hk, hs, Handling.creation, Handling.deletion, hserves.creation_eq,
        hserves.deletion_eq]

end

/-- Two manifests of supported kinds, the first without any metadata, and one of a kind that is not supported. -/
def mixedManifests : List Value :=
  [.obj [("kind", "ConfigMap")],
   .obj [("kind", "Secret"), ("metadata", .obj [("name", "token"), ("namespace", "jobs")])],
   .obj [("kind", "Widget"), ("metadata", .obj [("name", "last")])]]

/-- A cluster that has the configuration already. -/
def configured : World Rat :=
  (World.initial
    [(Kind.configMap.endpoint .create "apps", [⟨.error (.rejected ⟨.int 409, "Conflict", .null⟩), 1⟩])] []).connected

/-- The conflict is tolerated, and the last manifest stops the creation. -/
theorem manifests_fold_of_mixed :
    let run := watchful.applyManifests "apps" mixedManifests configured
    run.1 = .error (.argument "Unsupported manifest kind: Widget") ∧
      run.2.requests = Handling.creation.requests "apps" (mixedManifests.take 2) ∧ run.2.requests.length = 2 := by
  intro run
  have hms : ∀ m ∈ mixedManifests, Manifest.Shaped m := by
    simp [mixedManifests, Manifest.Shaped, List.lookup_cons]
  obtain ⟨hcreation, _, _⟩ := manifests_fold watchful "apps" hms (w := configured) rfl
  have hpasses : Handling.creation.Passes "apps" mixedManifests configured 2 := by
    intro i hi m hm
    rcases i with _ | _ | i
    · obtain rfl := Option.some.inj hm
      rfl
    · obtain rfl := Option.some.inj hm
      rfl
    · omega
  obtain ⟨hlength, hrun⟩ := hcreation.stops hpasses (m := mixedManifests[2]) rfl rfl
  have hrequests : run.2.requests = Handling.creation.requests "apps" (mixedManifests.take 2) := by
    show (watchful.applyManifests "apps" mixedManifests configured).2.requests = _
    rw [hrun, World.requests_exchangeAll]
    exact List.append_nil _
  have herror : run.1 = .error (.argument "Unsupported manifest kind: Widget") := by
    show (watchful.applyManifests "apps" mixedManifests configured).1 = _
    rw [hrun]
    rfl
  exact ⟨herror, hrequests, hrequests ▸ hlength⟩

end Cluster

end ClusterControl
