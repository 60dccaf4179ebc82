import ClusterControl.Proofs.Cluster.Awaits
import ClusterControl.Proofs.Wait.Answers
import ClusterControl.Proofs.Wait.TwoPhases

/-!
# What each wait of a cluster makes of a failed request

The waits share one way to poll, but the same failure means different things to them. That nothing is there
ends some waits with a failure and one with success, and others go on.
-/

namespace ClusterControl

open Op Resource

variable {τ : Type}

/-! ## References -/

namespace Checked

variable {α β : Type}

theorem seq_eq_valid {f : Checked (α → β)} {x : Checked α} {b : β} (h : f <*> x = .valid b) :
    ∃ g a, f = .valid g ∧ x = .valid a ∧ g a = b := by
  cases f with
  | valid g =>
      cases x with
      | valid a => exact ⟨g, a, rfl, rfl, Checked.valid.inj h⟩
      | invalid issues => cases h
  | invalid issues => cases x <;> cases h

theorem map_valid {f : α → β} {x : Checked α} {b : β} (h : f <$> x = .valid b) :
    ∃ a, x = .valid a ∧ f a = b := by
  cases x with
  | valid a => exact ⟨a, rfl, Checked.valid.inj h⟩
  | invalid issues => cases h

theorem under_valid {name : String} {x : Checked α} {a : α} (h : x.under name = .valid a) : x = .valid a := by
  cases x with
  | valid b => exact h
  | invalid issues => cases h

end Checked

namespace Ref

theorem ofOption_orNone {v : Value} {o : Option String} (h : Record.orNone Record.text v = .valid o) :
    Value.ofOption o = v := by
  cases v with
  | null =>
      obtain rfl := Checked.valid.inj h
      rfl
  | str s =>
      obtain rfl := Checked.valid.inj h
      rfl
  | _ => cases h

/-- A reference that is accepted holds just what it was made from. -/
theorem named_eq_valid {k : Kind} {ns name : Value} {ref : Ref} (h : named k ns name = .valid ref) :
    ref.kind = k.label ∧ Value.ofOption ref.ns = ns ∧ Value.ofOption ref.name = name := by
  obtain ⟨withNs, selector, h, _, href⟩ := Checked.seq_eq_valid h
  obtain ⟨withName, ns', h, hns, hwithNs⟩ := Checked.seq_eq_valid h
  obtain ⟨withKind, name', h, hname, hwithName⟩ := Checked.seq_eq_valid h
  obtain ⟨kind, hkind, hwithKind⟩ := Checked.map_valid h
  have hkind : (Record.text k.label).under "kind" = .valid kind := hkind
  have hns : (Record.orNone Record.text ns).under "namespace" = .valid ns' := hns
  have hname : (Record.orNone Record.text name).under "name" = .valid name' := hname
  obtain rfl := Checked.valid.inj (Checked.under_valid hkind)
  subst href hwithNs hwithName hwithKind
  exact ⟨rfl, ofOption_orNone (Checked.under_valid hns), ofOption_orNone (Checked.under_valid hname)⟩

end Ref

/-! ## What each wait asks -/

def Failure.isRejection : Failure τ → Bool
  | .rejected _ => true
  | _ => false

/-- That nothing is there means `v`, and other failures stay what they are. -/
def Failure.unlessAbsent {α : Type} (e : Failure τ) (v : Except (Failure τ) α) : Except (Failure τ) α :=
  if e.isNotFound then v else .error e

namespace Cluster

/-- What a wait makes of a failed request, which for a wait for a definition depends on whether the definition
was seen before: it fails, it succeeds, or it goes on, which is `none`. -/
def Await.verdict (a : Await τ) (seen : Bool) (e : Failure τ) : Except (Failure τ) (Option Value) :=
  match a with
  | .jobDone ns name | .jobCompleted ns name => e.unlessAbsent (.error (.missing Kind.job.label name ns))
  | .deployment ns name _ => e.unlessAbsent (.error (.missing Kind.deployment.label name ns))
  | .namespaceAbsent _ _ => e.unlessAbsent (.ok (some .null))
  | .secret _ _ => e.unlessAbsent (.ok none)
  | .podsAbsent _ _ tolerant => if tolerant && e.isRejection then .ok (some .null) else .error e
  | .definition name _ _ =>
    e.unlessAbsent (if seen then .error (.missing Kind.definition.label name .null) else .ok none)

end Cluster

variable [Time τ]

/-- How a wait words a failure. Only a wait for a definition reports it together with the phase, and not if it
is an interrupt. -/
def Cluster.Await.worded (a : Await τ) (seen : Bool) (e : Failure τ) : Failure τ :=
  match a with
  | .definition name _ _ =>
    if e.isInterrupt then e
    else .definition name (if seen then Phase.awaitingEstablished else .awaitingExistence).label e.message (some e)
  | _ => e

/-! ## Conditions -/

theorem Connection.inquires_send (c : Connection) (r : Request) :
    (c.send r : Op τ Value).Inquires c r fun o => o :=
  c.send_run r

namespace Condition

variable {c : Connection} {condition : Condition τ}

omit [Time τ] in
theorem found_error (e : Failure τ) : found (.error e) = e.unlessAbsent (.ok none) := rfl

omit [Time τ] in
theorem shown_error (ref : Ref) (types : List String) (e : Failure τ) :
    shown ref types (.error e) =
      e.unlessAbsent (.error (.missing ref.kind (.ofOption ref.name) (.ofOption ref.ns))) := by
  rw [shown, present, found_error, Failure.unlessAbsent, Failure.unlessAbsent]
  cases e.isNotFound <;> rfl

theorem consults_holds {x : Op τ Bool} {r : Request} {answer : Except (Failure τ) Value → Except (Failure τ) Bool}
    (h : x.Consults c r answer) :
    (holds x).Consults c r fun o => (answer o).bind fun b => .ok (if b then some .null else none) :=
  h.bind fun _ => remarks_ofExcept _

theorem consults_shown {k : Kind} {types : List String} {what : String} {ns name : Value}
    (h : reports c k types what ns name = .valid condition) :
    ∃ ref : Ref, (ref.kind = k.label ∧ Value.ofOption ref.ns = ns ∧ Value.ofOption ref.name = name) ∧
      condition.check.Consults c (readRequest k ns name) (shown ref types) := by
  unfold reports at h
  cases href : Ref.named k ns name with
  | invalid issues =>
      rw [href] at h
      cases h
  | valid ref =>
      rw [href] at h
      obtain rfl := Checked.valid.inj h
      obtain ⟨hkind, hns, hname⟩ := Ref.named_eq_valid href
      have hlook : (do Op.look (hasCondition (← existing c k ref) types) : Op τ Bool).Consults c
          (readRequest k (.ofOption ref.ns) (.ofOption ref.name)) fun o =>
            (present ref o).bind fun v => (hasCondition v types).mapError .malformed :=
        ((inquires_existing c k ref).bind fun _ => rfl).consults
      rw [hns, hname] at hlook
      exact ⟨ref, ⟨hkind, hns, hname⟩, consults_holds hlook⟩

theorem consults_reports {k : Kind} {types : List String} {what : String} {ns name : Value}
    (h : reports c k types what ns name = .valid condition) :
    ∃ answer, condition.check.Consults c (readRequest k ns name) answer ∧
      ∀ e, answer (.error e) = e.unlessAbsent (.error (.missing k.label name ns)) := by
  obtain ⟨ref, ⟨hkind, hns, hname⟩, hlook⟩ := consults_shown h
  refine ⟨shown ref types, hlook, fun e => ?_⟩
  rw [shown_error, hkind, hns, hname]

/-- What an answer to a read says about the absence that is waited for. -/
def gone (o : Except (Failure τ) Value) : Except (Failure τ) (Option Value) :=
  ((found o).bind fun object => .ok object.isNone).bind fun b => .ok (if b then some .null else none)

omit [Time τ] in
theorem gone_error (e : Failure τ) : gone (.error e) = e.unlessAbsent (.ok (some .null)) := by
  rw [gone, found_error, Failure.unlessAbsent, Failure.unlessAbsent]
  cases e.isNotFound <;> rfl

theorem consults_namespaceAbsent {name : Value} (h : namespaceAbsent c name = .valid condition) :
    condition.check.Consults c (readRequest .namespaceKind .null name) gone := by
  obtain ⟨ref, rfl⟩ := Checked.map_eq_valid h
  have hlook : (do pure (← get c .namespaceKind .null name).isNone : Op τ Bool).Consults c
      (readRequest .namespaceKind .null name) fun o => (found o).bind fun object => .ok object.isNone :=
    ((inquires_get c .namespaceKind .null name).bind fun _ => rfl).consults
  exact consults_holds hlook

theorem consults_secretPresent {ns name : Value} (h : secretPresent c ns name = .valid condition) :
    ∃ answer, condition.check.Consults c (readRequest .secret ns name) answer ∧
      ∀ e, answer (.error e) = e.unlessAbsent (.ok none) := by
  obtain ⟨ref, rfl⟩ := Checked.map_eq_valid h
  exact ⟨found, (inquires_get c .secret ns name).consults, fun e => rfl⟩

omit [Time τ] in
theorem existence_error (e : Failure τ) : existence (.error e) = e.unlessAbsent (.ok none) := by
  rw [existence, found_error, Failure.unlessAbsent]
  cases e.isNotFound <;> rfl

omit [Time τ] in
theorem existence_error_cases (e : Failure τ) :
    existence (.error e) = .ok none ∨ existence (.error e) = .error e := by
  rw [existence_error, Failure.unlessAbsent]
  split
  · exact .inl rfl
  · exact .inr rfl

theorem consults_podAbsent {ns selector : Value} {tolerant : Bool}
    (h : podAbsent c ns selector tolerant = .valid condition) :
    ∃ answer, condition.check.Consults c (listRequest .pod ns selector) answer ∧
      ∀ e, answer (.error e) = if tolerant && e.isRejection then .ok (some .null) else .error e := by
  obtain ⟨ref, rfl⟩ := Checked.map_eq_valid h
  have hlist : (some <$> Resource.list c .pod ns selector : Op τ (Option Value)).Consults c
      (listRequest .pod ns selector) fun o =>
        (o.bind fun v => (v.field "items").mapError .malformed).bind fun pods => .ok (some pods) :=
    (((c.inquires_send _).bind fun _ => rfl).bind fun _ => rfl).consults
  have hhandle (r : Rejection) : (if tolerant then do
        Op.log .warning ("Listing " ++ ref.text ++ " failed, treating pods as gone: " ++ r.reason.text)
        pure none
      else Op.fail (.rejected r) : Op τ (Option Value)).Remarks
        (if tolerant then .ok none else .error (.rejected r)) := by
    cases tolerant with
    | false => exact remarks_ofExcept _
    | true => exact (remarks_log _ _).bind fun _ => remarks_ofExcept (.ok none)
  have hcount (pods : Value) : (do pure ((← Op.look pods.count) == 0) : Op τ Bool).Remarks
      ((pods.count.mapError .malformed).bind fun n => .ok (n == 0)) :=
    (remarks_ofExcept _).bind fun _ => remarks_ofExcept _
  refine ⟨_, consults_holds ((hlist.onRejection hhandle).bind (g := fun listed => listed.elim (.ok true)
    fun pods => (pods.count.mapError .malformed).bind fun n => .ok (n == 0)) fun listed => ?_), fun e => ?_⟩
  · cases listed with
    | none => exact remarks_ofExcept _
    | some pods => exact hcount pods
  · cases e with
    | rejected r => cases tolerant <;> rfl
    | _ => cases tolerant <;> rfl

end Condition

/-! ## Reads -/

def Exchange.present (x : Exchange τ) : Bool :=
  match x.outcome with
  | .ok v => !v.isNull
  | .error _ => false

omit [Time τ] in
theorem Exchange.present_of_existence {x : Exchange τ} {a : Option Value}
    (h : Condition.existence x.outcome = .ok a) : x.present = a.isSome := by
  unfold present
  cases hx : x.outcome with
  | ok v =>
      rw [hx] at h
      simp only [Condition.existence, found, Except.bind] at h
      obtain rfl := Except.ok.inj h
      cases hv : v.isNull <;> simp [hv]
  | error e =>
      rw [hx, Condition.existence_error, Failure.unlessAbsent] at h
      split at h
      · obtain rfl := Except.ok.inj h
        rfl
      · cases h

namespace Cluster

/-- Each of the exchanges is the question of the wait again, and where it failed the wait did what its verdict says,
at once, or went on until it was `overdue`. How it ended is told by `ends`, and it left the world `v`. -/
def Await.Judges (a : Await τ) (xs : List (Exchange τ)) (ends : Except (Failure τ) Value → Prop) (overdue : Prop)
    (v : World τ) : Prop :=
  ∀ front x back, xs = front ++ x :: back → x.request = a.question ∧ ∀ e, x.outcome = .error e →
    match a.verdict (front.any Exchange.present) e with
    | .error f => back = [] ∧ x.Final v ∧ ends (.error (a.worded (front.any Exchange.present) f))
    | .ok (some _) => back = [] ∧ x.Final v ∧ ends (.ok .null)
    | .ok none => back = [] → (∃ f, f.InVain ∧ ends (.error f)) ∧ overdue

variable {a : Await τ} {c : Connection} {k : Condition τ}

theorem Await.consults (h : a.condition c = .valid k) :
    ∃ answer, k.check.Consults c a.question answer ∧ ∀ e, answer (.error e) = a.verdict false e := by
  cases a with
  | jobDone ns name => exact Condition.consults_reports h
  | jobCompleted ns name => exact Condition.consults_reports h
  | deployment ns name sink => exact Condition.consults_reports h
  | namespaceAbsent name sink => exact ⟨_, Condition.consults_namespaceAbsent h, Condition.gone_error⟩
  | podsAbsent ns selector tolerant => exact Condition.consults_podAbsent h
  | secret ns name => exact Condition.consults_secretPresent h
  | definition name establishedTimeout sink =>
      obtain rfl := Checked.valid.inj h
      exact ⟨Condition.existence, (Condition.inquires_existence c name).consults, Condition.existence_error⟩

theorem Await.Judges.mono {xs : List (Exchange τ)} {ends ends' : Except (Failure τ) Value → Prop}
    {overdue overdue' : Prop} {v v' : World τ} (h : a.Judges xs ends overdue v) (he : ∀ o, ends o → ends' o)
    (ho : overdue → overdue') (hv : v.Noted v') : a.Judges xs ends' overdue' v' := by
  intro front x back hx
  obtain ⟨hr, hall⟩ := h front x back hx
  refine ⟨hr, fun e hxe => ?_⟩
  have hjudged := hall e hxe
  rcases hverdict : a.verdict (front.any Exchange.present) e with f | _ | b
  · rw [hverdict] at hjudged
    obtain ⟨hback, hfinal, hend⟩ := hjudged
    exact ⟨hback, hfinal.noted hv, he _ hend⟩
  · rw [hverdict] at hjudged
    intro hback
    obtain ⟨⟨f, hf, hend⟩, hover⟩ := hjudged hback
    exact ⟨⟨f, hf, he _ hend⟩, ho hover⟩
  · rw [hverdict] at hjudged
    obtain ⟨hback, hfinal, hend⟩ := hjudged
    exact ⟨hback, hfinal.noted hv, he _ hend⟩

theorem Await.judges_nil (a : Await τ) (ends : Except (Failure τ) Value → Prop) (overdue : Prop) (v : World τ) :
    a.Judges [] ends overdue v := by
  intro front x back hx
  cases front <;> cases hx

/-- On an exact clock, with answers that take no negative time: the wait has gone on for so long, or is cancelled. -/
def Overdue (w : World τ) (timeout : Seconds τ) (cancel : Option τ) (v : World τ) : Prop :=
  Time.Exact τ → w.script.Forward → timeout.amount ≤ v.now - w.now ∨ v.reached cancel = true

theorem inVain_ending (p : Poll τ) (started : τ) (v : World τ) : (p.ending started v).InVain := by
  refine ⟨_, .inl rfl, ?_⟩
  unfold Poll.ending
  split
  · exact .inr rfl
  · exact .inl rfl

/-- A wait for a definition tells by the cause of its failure that it ended in vain. -/
theorem Await.inVain_worded (a : Await τ) (seen : Bool) (p : Poll τ) (started : τ) (v : World τ) :
    (a.worded seen (p.ending started v)).InVain := by
  obtain ⟨e, hv, he⟩ := inVain_ending p started v
  have hi : (p.ending started v).isInterrupt = false := by
    unfold Poll.ending
    split <;> rfl
  cases a with
  | definition name establishedTimeout sink =>
      obtain rfl : p.ending started v = e := hv.resolve_right fun hc => by
        unfold Poll.ending at hc
        split at hc <;> cases hc
      rw [worded, hi]
      exact ⟨_, .inr rfl, he⟩
  | _ => exact ⟨e, hv, he⟩

/-! ## Waits with one phase -/

/-- All waits but the one for a definition judge a failure alike at every read. -/
theorem Await.verdict_eq (ha : ∀ name establishedTimeout sink, a ≠ .definition name establishedTimeout sink)
    (seen : Bool) (e : Failure τ) : a.verdict seen e = a.verdict false e ∧ a.worded seen e = e := by
  cases a with
  | definition name establishedTimeout sink => exact absurd rfl (ha name establishedTimeout sink)
  | _ => exact ⟨rfl, rfl⟩

omit [Time τ] in
/-- A failure that ends a wait well leaves it without anything to hand back. -/
theorem Await.result_of_verdict {seen : Bool} {e : Failure τ} {b : Value} (h : a.verdict seen e = .ok (some b))
    (v : Value) : a.result v = .null := by
  cases a with
  | secret ns name =>
      simp only [verdict, Failure.unlessAbsent] at h
      split at h <;> cases h
  | _ => rfl

theorem Await.judges_poll {w : World τ}
    (ha : ∀ name establishedTimeout sink, a ≠ .definition name establishedTimeout sink)
    (hk : a.condition c = .valid k) (ho : c.serves a.question w = true) (interval timeout : Seconds τ)
    (cancel : Option τ) :
    let run := k.poll interval timeout cancel w
    ∃ xs, run.2.exchanges = w.exchanges ++ xs ∧
      a.Judges xs (fun o => run.1.map a.result = o) (Overdue w timeout cancel run.2) run.2 := by
  intro run
  obtain ⟨answer, hcheck, hanswer⟩ := Await.consults hk
  have hrun : run = k.poll interval timeout cancel w := rfl
  rcases Condition.poll_course hcheck ho interval timeout cancel with ⟨e, hpoll⟩ | ⟨hp, xs, hcourse⟩
  · exact ⟨[], by rw [hrun, hpoll, List.append_nil], a.judges_nil _ _ _⟩
  · refine ⟨xs, hcourse.exchanges, fun front x back hx => ⟨(hcourse.atRead hx).1, fun e he => ?_⟩⟩
    have hdecides := hcourse.decides hp hx
    obtain ⟨hseen, hworded⟩ := Await.verdict_eq ha (front.any Exchange.present) e
    rw [he, hanswer] at hdecides
    rw [hseen]
    rcases hverdict : a.verdict false e with f | _ | b
    · rw [hverdict] at hdecides
      obtain ⟨hback, hfinal, hend⟩ := hdecides
      refine ⟨hback, hfinal, ?_⟩
      rw [(Await.verdict_eq ha _ f).2, hrun, hend]
      rfl
    · rw [hverdict] at hdecides
      intro hback
      obtain ⟨hend, hover⟩ := hdecides hback
      refine ⟨⟨_, inVain_ending _ _ _, by rw [hrun, hend]; rfl⟩, fun hexact hw => ?_⟩
      exact (Bool.or_eq_true_iff.1 (hover hexact hw)).imp_left of_decide_eq_true
    · rw [hverdict] at hdecides
      obtain ⟨hback, hfinal, hend⟩ := hdecides
      refine ⟨hback, hfinal, ?_⟩
      rw [hrun, hend]
      exact congrArg Except.ok (Await.result_of_verdict hverdict b)

/-! ## Waits for a definition -/

section Definition

variable (c : Connection) (name : Value) (interval timeout : Seconds τ) (establishedTimeout : Option (Seconds τ))
  (sink : Option (Sink τ)) (cancel : Option τ) (w : World τ)

/-- The wait once it found the definition. -/
def lookingOn : DefinitionWait τ := (DefinitionWait.start c name interval).inPhase .awaitingEstablished

theorem wait_start : (DefinitionWait.start c name interval).wait timeout establishedTimeout cancel w =
    match (Condition.definitionExists c name).poll interval timeout cancel w with
    | (.error e, v) => (.error ((Await.definition name establishedTimeout sink).worded false e), v)
    | (.ok _, v) => (lookingOn c name interval).finish (establishedTimeout.getD timeout) cancel v := by
  simp only [DefinitionWait.wait_eq, bind_run, DefinitionWait.existence, DefinitionWait.start, DefinitionWait.poll_run]
  rcases (Condition.definitionExists c name).poll interval timeout cancel w with ⟨e | b, v⟩
  · rfl
  · rfl

theorem finish_lookingOn {k : Condition τ} (hk : Condition.definitionEstablished c name = .valid k) :
    (lookingOn c name interval).finish timeout cancel w =
      match k.poll interval timeout cancel w with
      | (.error e, v) => (.error ((Await.definition name establishedTimeout sink).worded true e), v)
      | (.ok _, v) => (.ok (), v.record (.log .info ("CRD " ++ name.text ++ " is established"))) := by
  simp only [DefinitionWait.finish_run, DefinitionWait.established, lookingOn, DefinitionWait.inPhase,
    DefinitionWait.start, bind_run, ofChecked, hk, Checked.outcome, ofExcept_run, DefinitionWait.poll_run]
  rcases k.poll interval timeout cancel w with ⟨e | b, v⟩
  · rfl
  · rfl

omit [Time τ] in
theorem any_present_eq_false {front : List (Exchange τ)}
    (h : ∀ y ∈ front, Condition.existence y.outcome = .ok none) : front.any Exchange.present = false := by
  rw [List.any_eq_false]
  intro y hy
  rw [Exchange.present_of_existence (h y hy)]
  exact Bool.false_ne_true

omit [Time τ] in
theorem verdict_definition (seen : Bool) (e : Failure τ) :
    (Await.definition name establishedTimeout sink).verdict seen e =
      if seen then e.unlessAbsent (.error (.missing Kind.definition.label name .null))
      else Condition.existence (.error e) := by
  rw [Condition.existence_error]
  cases seen <;> rfl

/-- No read of the second phase fails without ending the wait. -/
theorem finish_decides {w : World τ} (ho : c.serves (readRequest .definition .null name) w = true) :
    let a := Await.definition name establishedTimeout sink
    let run := (lookingOn c name interval).finish timeout cancel w
    ∃ xs, run.2.exchanges = w.exchanges ++ xs ∧
      ∀ front x back, xs = front ++ x :: back → x.request = a.question ∧ ∀ e, x.outcome = .error e →
        ∃ f, a.verdict true e = .error f ∧ back = [] ∧ x.Final run.2 ∧ run.1 = .error (a.worded true f) := by
  intro a run
  have hnil : ∀ {P : Prop} {front back : List (Exchange τ)} {x : Exchange τ}, [] = front ++ x :: back → P := by
    intro P front back x hx
    cases front <;> cases hx
  cases hk : (Condition.definitionEstablished c name : Checked (Condition τ)) with
  | invalid issues =>
      have hrun : run = (.error (.invalid issues), w) := by
        simp only [run, DefinitionWait.finish_run, DefinitionWait.established, lookingOn, DefinitionWait.inPhase,
          DefinitionWait.start, bind_run, ofChecked, hk, Checked.outcome, ofExcept_run]
      exact ⟨[], by rw [hrun, List.append_nil], fun _ _ _ hx => hnil hx⟩
  | valid k =>
      have hrun : run = _ := finish_lookingOn c name interval timeout establishedTimeout sink cancel w hk
      obtain ⟨answer, hcheck, hanswer⟩ := Condition.consults_reports hk
      rcases Condition.poll_course hcheck ho interval timeout cancel with ⟨e, hpoll⟩ | ⟨hp, xs, hcourse⟩
      · rw [hpoll] at hrun
        exact ⟨[], by rw [hrun, List.append_nil], fun _ _ _ hx => hnil hx⟩
      · have hxs : run.2.exchanges = w.exchanges ++ xs := by
          rw [← hcourse.exchanges, hrun]
          rcases k.poll interval timeout cancel w with ⟨e | b, v⟩
          · rfl
          · exact (World.exchanges_record v _).trans (List.append_nil _)
        refine ⟨xs, hxs, fun front x back hx => ⟨(hcourse.atRead hx).1, fun e he => ?_⟩⟩
        obtain ⟨f, hf⟩ : ∃ f, e.unlessAbsent (.error (.missing Kind.definition.label name .null)) =
            (.error f : Except (Failure τ) (Option Value)) := by
          unfold Failure.unlessAbsent
          split <;> exact ⟨_, rfl⟩
        have hdecides := hcourse.decides hp hx
        rw [he, hanswer, hf] at hdecides
        obtain ⟨hback, hfinal, hend⟩ := hdecides
        rcases hpoll : k.poll interval timeout cancel w with ⟨o, v⟩
        rw [hpoll] at hfinal hend hrun
        obtain rfl : o = .error f := hend
        rw [hrun]
        exact ⟨f, by rw [verdict_definition, if_pos rfl, hf], hback, hfinal, rfl⟩

section

variable {name establishedTimeout sink w}

theorem judges_unfound {p : Poll τ} {xs : List (Exchange τ)} {e : Failure τ} {v : World τ}
    (h : p.Course (readRequest .definition .null name) Condition.existence w.now p.checks w xs (.error e, v))
    (hp : p.obstacle? = none) :
    let a := Await.definition name establishedTimeout sink
    a.Judges xs (.error (a.worded false e) = ·) (Overdue w p.timeout p.cancel v) v := by
  intro a front x back hx
  obtain ⟨hr, hfront, _⟩ := h.atRead hx
  have hdecides := h.decides hp hx
  refine ⟨hr, fun f hf => ?_⟩
  rw [hf] at hdecides
  rw [any_present_eq_false hfront, verdict_definition, if_neg Bool.false_ne_true]
  rcases Condition.existence_error_cases f with hgoes | hfails
  · rw [hgoes] at hdecides ⊢
    intro hback
    obtain ⟨hend, hover⟩ := hdecides hback
    obtain rfl : e = p.ending w.now v := Except.error.inj hend
    refine ⟨⟨_, a.inVain_worded false p w.now v, rfl⟩, fun hexact hw => ?_⟩
    exact (Bool.or_eq_true_iff.1 (hover hexact hw)).imp_left of_decide_eq_true
  · rw [hfails] at hdecides ⊢
    obtain ⟨hback, hfinal, hend⟩ := hdecides
    exact ⟨hback, hfinal, by rw [Except.error.inj hend]⟩

theorem judges_found {p : Poll τ} {xs ys : List (Exchange τ)} {b : Value} {v u : World τ} {overdue : Prop}
    {ends : Except (Failure τ) Value → Prop}
    (h : p.Course (readRequest .definition .null name) Condition.existence w.now p.checks w xs (.ok b, v))
    (hp : p.obstacle? = none) :
    let a := Await.definition name establishedTimeout sink
    (∀ front x back, ys = front ++ x :: back → x.request = a.question ∧ ∀ e, x.outcome = .error e →
      ∃ f, a.verdict true e = .error f ∧ back = [] ∧ x.Final u ∧ ends (.error (a.worded true f))) →
      a.Judges (xs ++ ys) ends overdue u := by
  intro a hlater front x back hx
  obtain ⟨reads, found, hreads, hfound⟩ := h.yielded rfl
  rcases append_eq_split hx with ⟨rest, hxs⟩ | ⟨more, rfl, hys⟩
  · -- The read that finds the definition comes later, so this one was not there to decide.
    obtain ⟨hr, hfront, _⟩ := h.atRead hxs
    have hdecides := h.decides hp hxs
    refine ⟨hr, fun e he => ?_⟩
    rw [he] at hdecides
    rw [any_present_eq_false hfront, verdict_definition, if_neg Bool.false_ne_true]
    rcases Condition.existence_error_cases e with hgoes | hfails
    · rw [hgoes] at hdecides ⊢
      intro hback
      have hrest : rest ++ ys = back := by
        rw [hxs, List.append_assoc, List.cons_append] at hx
        exact (List.cons.inj (List.append_cancel_left hx)).2
      rw [hback] at hrest
      cases (hdecides (List.append_eq_nil_iff.1 hrest).1).1
    · rw [hfails] at hdecides
      cases hdecides.2.2
  · obtain ⟨hr, hall⟩ := hlater more x back hys
    refine ⟨hr, fun e he => ?_⟩
    have hseen : (xs ++ more).any Exchange.present = true := by
      rw [List.any_eq_true]
      refine ⟨found, ?_, Exchange.present_of_existence hfound⟩
      rw [hreads]
      simp
    obtain ⟨f, hf, hend⟩ := hall e he
    rw [hseen, hf]
    exact hend

end

theorem judges_wait {w : World τ} (ho : c.serves (readRequest .definition .null name) w = true) :
    let run := (DefinitionWait.start c name interval).wait timeout establishedTimeout cancel w
    ∃ xs, run.2.exchanges = w.exchanges ++ xs ∧ (Await.definition name establishedTimeout sink).Judges xs
      (fun o => run.1.map (fun _ => Value.null) = o) (Overdue w timeout cancel run.2) run.2 := by
  intro run
  have hrun : run = _ := wait_start c name interval timeout establishedTimeout sink cancel w
  have hcheck : Op.Consults c _ _ (Condition.definitionExists c name : Condition τ).check :=
    (Condition.inquires_existence c name).consults
  rcases Condition.poll_course hcheck ho interval timeout cancel with ⟨e, hpoll⟩ | ⟨hp, xs, hcourse⟩
  · rw [hpoll] at hrun
    exact ⟨[], by rw [hrun, List.append_nil], Await.judges_nil _ _ _ _⟩
  · have hxs := hcourse.exchanges
    have hserves := (Connection.has_congr hcourse.apis_eq c _).trans ho
    rcases hpoll : (Condition.definitionExists c name).poll interval timeout cancel w with ⟨e | b, v⟩
    · rw [hpoll] at hrun hxs hcourse
      rw [hrun]
      exact ⟨xs, hxs, judges_unfound hcourse hp⟩
    · rw [hpoll] at hrun hxs hcourse hserves
      obtain ⟨ys, hys, hlater⟩ := finish_decides c name interval (establishedTimeout.getD timeout) establishedTimeout
        sink cancel hserves
      rw [hrun]
      refine ⟨xs ++ ys, ?_, judges_found hcourse hp fun front x back hx => ?_⟩
      · rw [hys, hxs, List.append_assoc]
      · obtain ⟨hr, hall⟩ := hlater front x back hx
        refine ⟨hr, fun e he => ?_⟩
        obtain ⟨f, hf, hback, hfinal, hend⟩ := hall e he
        exact ⟨f, hf, hback, hfinal, by rw [hend]; rfl⟩

end Definition

/-! ## All waits -/

theorem Overdue.of_noted {w u v v' : World τ} {timeout : Seconds τ} {cancel : Option τ}
    (h : Overdue u timeout cancel v) (hu : w.Noted u) (hv : v.Noted v') : Overdue w timeout cancel v' := by
  obtain ⟨notes, rfl, _⟩ := hu
  obtain ⟨more, rfl, _⟩ := hv
  exact h

/-- How a run ended, or would have ended if the sink of the wait had not broken it off. -/
def Await.Ended (a : Await τ) (o o' : Except (Failure τ) Value) : Prop :=
  o = o' ∨ ∃ e, o = .error e ∧ ∃ s ∈ a.sink, s.Breaks e

/-- The reports on a wait do not change what it makes of a failure. -/
theorem Await.judges_withProgress {α : Type} {w : World τ} {body : Op τ α} {f : α → Value} {timeout : Seconds τ}
    {cancel : Option τ} (ho : c.serves a.question w = true) (message : String)
    (h : ∀ u, c.serves a.question u = true → ∃ xs, (body u).2.exchanges = u.exchanges ++ xs ∧
      a.Judges xs (fun o => (body u).1.map f = o) (Overdue u timeout cancel (body u).2) (body u).2) :
    let run := (withProgress a.sink message body >>= fun b => pure (f b)) w
    ∃ xs, run.2.exchanges = w.exchanges ++ xs ∧
      a.Judges xs (a.Ended run.1) (Overdue w timeout cancel run.2) run.2 := by
  intro run
  have hrun : run = (withProgress a.sink message body >>= fun b => pure (f b)) w := rfl
  rw [bind_run] at hrun
  rcases withProgress_cases a.sink message body w with ⟨e, v, hstart, hv, _⟩ | ⟨u, v, o, hbody, hu, hv, ho'⟩
  · rw [hstart] at hrun
    exact ⟨[], by rw [hrun, List.append_nil]; exact hv.exchanges, a.judges_nil _ _ _⟩
  · obtain ⟨xs, hxs, hjudges⟩ := h u ((hu.has_eq c _).trans ho)
    have hend : run.1 = o.map f ∧ run.2 = v := by
      rw [hrun, hbody]
      cases o <;> exact ⟨rfl, rfl⟩
    refine ⟨xs, by rw [hend.2, hv.exchanges, hxs, hu.exchanges], ?_⟩
    rw [hend.1, hend.2]
    refine hjudges.mono (fun o' h' => ?_) (fun hover => hover.of_noted hu hv) hv
    rcases ho' with rfl | ⟨e, rfl, hbreaks⟩
    · exact .inl h'
    · exact .inr ⟨e, rfl, hbreaks⟩

/-- What a wait makes of a request that fails, at whichever of its reads: it ends at once as the table of verdicts
says, or goes on until its deadline or a cancellation. -/
theorem failures_are_judged (c : Cluster τ) (l : Limits τ) (a : Await τ) (w : World τ) :
    let run := c.await l a w
    ∃ xs, run.2.exchanges = w.exchanges ++ xs ∧
      a.Judges xs (a.Ended run.1) (Overdue w (c.timeoutOf l.timeout) l.cancel run.2) run.2 := by
  intro run
  have hrun : run = c.await l a w := rfl
  cases ho : c.connection.serves a.question w with
  | false =>
      obtain ⟨e, v, hrefused, hv, _⟩ := await_refused ho l
      rw [hrun, hrefused]
      exact ⟨[], by rw [List.append_nil]; exact hv.exchanges, a.judges_nil _ _ _⟩
  | true =>
      by_cases ha : ∃ name establishedTimeout sink, a = .definition name establishedTimeout sink
      · obtain ⟨name, establishedTimeout, sink, rfl⟩ := ha
        exact Await.judges_withProgress ho _ fun u hu =>
          judges_wait c.connection name c.interval _ establishedTimeout sink l.cancel hu
      · have hother : ∀ name establishedTimeout sink, a ≠ .definition name establishedTimeout sink :=
          fun name establishedTimeout sink h => ha ⟨name, establishedTimeout, sink, h⟩
        obtain ⟨message, heq⟩ := c.await_eq_wait l hother
        cases hk : a.condition c.connection with
        | invalid issues =>
            have hinvalid : run = (.error (.invalid issues), w) := by
              simp only [hrun, heq, wait, bind_run, ofChecked, hk, Checked.outcome, ofExcept_run]
            exact ⟨[], by rw [hinvalid, List.append_nil], a.judges_nil _ _ _⟩
        | valid k =>
            have hvalid : run = (withProgress a.sink message
                (k.poll c.interval (c.timeoutOf l.timeout) l.cancel) >>= fun v => pure (a.result v)) w := by
              simp only [hrun, heq, wait, bind_run, ofChecked, hk, Checked.outcome, ofExcept_run]
            rw [hvalid]
            exact Await.judges_withProgress ho message fun u hu => Await.judges_poll hother hk hu _ _ _

end Cluster

end ClusterControl
