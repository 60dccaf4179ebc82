import ClusterControl.Proofs.Resource.Access
import ClusterControl.Wait.Condition

/-!
# What a wait sees

A wait on an object looks at it again and again, and each look is one read. The read that a wait ends with
shows what was waited for.
-/

namespace ClusterControl

variable {τ α : Type}

/-! ## Reported conditions -/

/-- Among the conditions in the status of the object is one of the types that is true. -/
def Value.Reports (object : Value) (types : List String) : Prop :=
  ∃ conditions, (object.field? "status").field? "conditions" = .list conditions ∧
    ∃ c ∈ conditions, c.field? "status" = .str "True" ∧ ∃ t ∈ types, c.field? "type" = .str t

namespace Value

theorem same_str_iff {v : Value} {s : String} : v.same (.str s) = true ↔ v = .str s := by
  cases v <;> simp [same, sameNumber, number?]

end Value

/-- Whether one condition is of one of the types and true. -/
def fulfils (types : List String) (c : Value) : Except Malformed Bool := do
  let status ← c.field "status"
  let type ← c.field "type"
  pure (status.same "True" && types.any fun t => type.same t)

theorem fulfils_eq_ok {types : List String} {c : Value} {b : Bool} (h : fulfils types c = .ok b) :
    b = true ↔ c.field? "status" = .str "True" ∧ ∃ t ∈ types, c.field? "type" = .str t := by
  cases c with
  | obj fields =>
      obtain rfl : _ = b := Except.ok.inj h
      simp [Value.field?, Value.same_str_iff]
  | _ => cases h

theorem field?_of_itemsOrNone {v : Value} {items : List Value} (h : v.itemsOrNone = .ok items)
    (hv : ∀ vs, v ≠ .list vs) {c : Value} (hc : c ∈ items) (name : String) : c.field? name = .null := by
  cases v with
  | list vs => exact absurd rfl (hv vs)
  | obj fields => cases h
  | str s =>
      simp only [Value.itemsOrNone, Value.items] at h
      split at h
      · obtain rfl := Except.ok.inj h
        obtain ⟨_, _, rfl⟩ := List.mem_map.1 hc
        rfl
      · obtain rfl := Except.ok.inj h
        cases hc
  | _ =>
      simp only [Value.itemsOrNone, Value.items] at h
      split at h
      · cases h
      · obtain rfl := Except.ok.inj h
        cases hc

theorem itemsOrNone_list (vs : List Value) : (Value.list vs).itemsOrNone = .ok vs := by
  cases vs <;> rfl

theorem hasCondition_eq_ok {object : Value} {types : List String} {b : Bool}
    (h : hasCondition object types = .ok b) : b = true ↔ object.Reports types := by
  have h' : ((object.field? "status").field? "conditions").itemsOrNone.bind
    (·.anyM (fulfils types)) = .ok b := h
  unfold Value.Reports
  generalize (object.field? "status").field? "conditions" = conditions at h'
  cases hi : conditions.itemsOrNone with
  | error m => rw [hi] at h'; cases h'
  | ok items =>
      rw [hi] at h'
      rw [anyM_eq_ok fulfils_eq_ok h']
      constructor
      · rintro ⟨c, hc, hstatus, htype⟩
        cases conditions with
        | list vs =>
            obtain rfl : vs = items := Except.ok.inj ((itemsOrNone_list vs).symm.trans hi)
            exact ⟨vs, rfl, c, hc, hstatus, htype⟩
        | _ =>
            rw [field?_of_itemsOrNone hi (by simp) hc] at hstatus
            cases hstatus
      · rintro ⟨vs, rfl, hc⟩
        obtain rfl : vs = items := Except.ok.inj ((itemsOrNone_list vs).symm.trans hi)
        exact hc

/-! ## Tries -/

namespace Op

/-- Misses, and after them a failure or what the last try yields. -/
inductive Trace.Tried (T : Trace τ (Option α)) : Trace τ α where
  | ended (e : Failure τ) : Tried T [] (.error e)
  | failed {xs : List (Exchange τ)} {e : Failure τ} : T xs (.error e) → Tried T xs (.error e)
  | yielded {xs : List (Exchange τ)} {a : α} : T xs (.ok (some a)) → Tried T xs (.ok a)
  | missed {xs ys : List (Exchange τ)} {o : Except (Failure τ) α} :
      T xs (.ok none) → Tried T ys o → Tried T (xs ++ ys) o

theorem Trace.Tried.mono {T U : Trace τ (Option α)} {xs : List (Exchange τ)} {o : Except (Failure τ) α}
    (h : Trace.Tried T xs o) (hT : ∀ xs o, T xs o → U xs o) : Trace.Tried U xs o := by
  induction h with
  | ended e => exact .ended e
  | failed ht => exact .failed (hT _ _ ht)
  | yielded ht => exact .yielded (hT _ _ ht)
  | missed ht _ ih => exact .missed (hT _ _ ht) ih

theorem Trace.Tried.only {P : Request → Prop} {xs : List (Exchange τ)} {o : Except (Failure τ) α}
    (h : Trace.Tried (.only P) xs o) : Trace.only P xs o := by
  induction h with
  | ended e => exact List.forall_mem_nil _
  | failed ht => exact ht
  | yielded ht => exact ht
  | missed ht _ ih => exact fun x hx => (List.mem_append.1 hx).elim (ht x) (ih x)

/-- One request, and a try yields something only if an exchange shows what is looked for. -/
def Trace.spots (r : Request) (P : Exchange τ → Prop) : Trace τ (Option α) := fun xs o =>
  Trace.only (· = r) xs o ∧ ∀ a, o = .ok (some a) → ∃ x ∈ xs, P x

/-- Tries that end well end with an exchange that shows what was looked for. -/
theorem Trace.Tried.of_spots {r : Request} {P : Exchange τ → Prop} {xs : List (Exchange τ)}
    {o : Except (Failure τ) α} (h : Trace.Tried (.spots r P) xs o) :
    Trace.only (· = r) xs o ∧ ∀ a, o = .ok a → ∃ x ∈ xs, P x := by
  refine ⟨(h.mono fun _ _ ht => ht.1).only, ?_⟩
  induction h with
  | ended e => exact fun a ha => by cases ha
  | failed ht => exact fun a ha => by cases ha
  | yielded ht =>
      intro a ha
      obtain rfl := Except.ok.inj ha
      exact ht.2 _ rfl
  | missed ht _ ih =>
      intro a ha
      obtain ⟨x, hx, hp⟩ := ih a ha
      exact ⟨x, List.mem_append_right _ hx, hp⟩

end Op

open Op

variable [Time τ]

namespace Poll

theorem emits_loop {check : Op τ (Option α)} {T : Trace τ (Option α)} (h : check.Emits T) (p : Poll τ)
    (started : τ) (left : Nat) : (p.loop (.ofOp check) started left).Emits (.Tried T) := by
  induction left with
  | zero => exact fun w => ⟨[], (List.append_nil _).symm, .ended _⟩
  | succ left ih =>
      intro w
      rw [loop_ofOp]
      split
      · exact ⟨[], (List.append_nil _).symm, .ended _⟩
      · obtain ⟨xs, hxs, ht⟩ := h w
        rcases hr : check w with ⟨e | _ | a, v⟩
        · rw [hr] at hxs ht
          exact ⟨xs, hxs, .failed ht⟩
        · rw [hr] at hxs ht
          simp only
          split
          · exact ⟨xs ++ [], by rw [hxs, List.append_nil], .missed ht (.ended _)⟩
          · obtain ⟨ys, hys, hl⟩ := ih (v.pause p.interval.amount p.cancel)
            refine ⟨xs ++ ys, ?_, .missed ht hl⟩
            rw [hys, World.exchanges_pause, hxs, List.append_assoc]
        · rw [hr] at hxs ht
          exact ⟨xs, hxs, .yielded ht⟩

theorem emits_run {check : Op τ (Option α)} {T : Trace τ (Option α)} (h : check.Emits T) (p : Poll τ) :
    (p.run check).Emits (.Tried T) := by
  unfold run wait
  split
  · exact (emits_fail _).mono fun xs o ⟨hx, ho⟩ => by rw [hx, ho]; exact .ended _
  · exact fun w => emits_loop h p w.now p.checks w

end Poll

/-! ## Looks at an object -/

/-- One read of an object, which shows whether the object reports one of the types. -/
def Op.Trace.looks (r : Request) (types : List String) : Trace τ (Option Value) := fun xs o =>
  (∀ x ∈ xs, x.request = r) ∧
    ∀ a, o = .ok a → ∃ x v, xs = [x] ∧ x.outcome = .ok v ∧ (a.isSome ↔ v.Reports types)

omit [Time τ] in
/-- A wait only reads the object, and ends well with a read that shows what was waited for. -/
theorem Op.Trace.Tried.of_looks {r : Request} {types : List String} {xs : List (Exchange τ)}
    {o : Except (Failure τ) Value} (h : Trace.Tried (.looks r types) xs o) :
    (∀ x ∈ xs, x.request = r) ∧
      ∀ a, o = .ok a → ∃ x ∈ xs, ∃ v, x.outcome = .ok v ∧ v.Reports types := by
  refine Trace.Tried.of_spots (P := fun x => ∃ v, x.outcome = .ok v ∧ v.Reports types) (h.mono ?_)
  intro ys o' ht
  refine ⟨ht.1, fun a ha => ?_⟩
  obtain ⟨x, v, rfl, hv, hr⟩ := ht.2 _ ha
  exact ⟨x, List.mem_singleton_self x, v, hv, hr.1 rfl⟩

namespace Condition

open Resource

/-- An answer to the read of an object that must exist. -/
def present (ref : Ref) (o : Except (Failure τ) Value) : Except (Failure τ) Value :=
  (found o).bind fun
    | some object => .ok object
    | none => .error (.missing ref.kind (.ofOption ref.name) (.ofOption ref.ns))

omit [Time τ] in
theorem present_eq_ok {ref : Ref} {o : Except (Failure τ) Value} {v : Value}
    (h : present ref o = .ok v) : o = .ok v := by
  cases o with
  | error e =>
      simp only [present, found] at h
      split at h <;> cases h
  | ok u =>
      simp only [present, found] at h
      split at h
      · cases h
      · exact h

theorem emits_existing (c : Connection) (k : Kind) (ref : Ref) :
    (existing c k ref : Op τ Value).Emits
      (.asks (readRequest k (.ofOption ref.ns) (.ofOption ref.name)) (present ref)) := by
  apply (emits_get c k _ _).asks_bind
  intro a
  cases a with
  | none => exact emits_fail _
  | some object => exact emits_pure object

def shown (ref : Ref) (types : List String) (o : Except (Failure τ) Value) :
    Except (Failure τ) (Option Value) :=
  ((present ref o).bind fun v => (hasCondition v types).mapError .malformed).bind fun b =>
    .ok (if b then some .null else none)

omit [Time τ] in
theorem shown_eq_ok {ref : Ref} {types : List String} {o : Except (Failure τ) Value} {a : Option Value}
    (h : shown ref types o = .ok a) : ∃ v, o = .ok v ∧ (a.isSome ↔ v.Reports types) := by
  unfold shown at h
  cases hv : present ref o with
  | error e => rw [hv] at h; cases h
  | ok v =>
      rw [hv] at h
      cases hb : hasCondition v types with
      | error m => simp only [Except.bind, hb] at h; cases h
      | ok b =>
          simp only [Except.bind, hb] at h
          obtain rfl := Except.ok.inj h
          refine ⟨v, present_eq_ok hv, ?_⟩
          rw [← hasCondition_eq_ok hb]
          cases b <;> simp

/-- One look at an object that must exist. -/
theorem emits_looking (c : Connection) (k : Kind) (types : List String) (ref : Ref) :
    (holds do Op.look (hasCondition (← existing c k ref) types) : Op τ (Option Value)).Emits
      (.looks (readRequest k (.ofOption ref.ns) (.ofOption ref.name)) types) := by
  have h : Emits _ (.asks _ (shown _ types)) :=
    ((emits_existing (τ := τ) c k ref).asks_bind fun v =>
      emits_ofExcept ((hasCondition v types).mapError .malformed)).asks_bind fun b =>
        emits_pure (if b then some Value.null else none)
  refine h.mono fun xs o h => ?_
  cases h with
  | unasked => exact ⟨List.forall_mem_nil _, fun a ha => by cases ha⟩
  | asked hx ho =>
      refine ⟨List.forall_mem_singleton.2 hx, fun a ha => ?_⟩
      obtain ⟨v, hv, hr⟩ := shown_eq_ok (ho.symm.trans ha)
      exact ⟨_, v, rfl, hv, hr⟩

theorem emits_reports (c : Connection) (k : Kind) (types : List String) (what ns name : String) :
    ∃ condition : Condition τ, reports c k types what ns name = .valid condition ∧
      condition.check.Emits (.looks (readRequest k ns name) types) :=
  ⟨_, rfl, emits_looking c k types ⟨k.label, some name, some ns, none⟩⟩

/-- Whatever the name, looking at an object changes nothing. -/
theorem only_reports {c : Connection} {k : Kind} {types : List String} {what : String} {ns name : Value}
    {condition : Condition τ} (h : reports c k types what ns name = .valid condition) :
    condition.check.Emits (.only fun r => r.mutates = false) := by
  unfold reports at h
  cases hr : Ref.named k ns name with
  | invalid issues => rw [hr] at h; cases h
  | valid ref =>
      rw [hr] at h
      cases h
      refine (emits_looking c k types ref).mono fun xs o hlook x hx => ?_
      rw [hlook.1 x hx]
      exact mutates_readRequest _ _ _

theorem emits_namespaceAbsent (c : Connection) (name : String) :
    ∃ condition : Condition τ, namespaceAbsent c name = .valid condition ∧
      condition.check.Emits (.spots (readRequest .namespaceKind .null name) fun x => x.absent = true) := by
  refine ⟨_, rfl, ?_⟩
  have h := ((emits_get (τ := τ) c .namespaceKind .null name).asks_bind fun a => emits_pure a.isNone).asks_bind
    fun b => emits_pure (if b then some Value.null else none)
  refine h.mono ?_
  intro xs o ht
  refine ⟨ht.only (P := (· = readRequest .namespaceKind .null name)) rfl, ?_⟩
  rintro a rfl
  cases ht with
  | @asked x _ _ ha =>
      refine ⟨x, List.mem_singleton_self x, found_eq_none_iff.1 ?_⟩
      cases hf : found x.outcome with
      | error e => simp only [hf] at ha; cases ha
      | ok v =>
          cases v with
          | none => rfl
          | some v => simp only [hf] at ha; cases ha

end Condition

end ClusterControl
