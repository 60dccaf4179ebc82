import ClusterControl.Cluster.Waits
import ClusterControl.Proofs.Wait.Phases
import ClusterControl.Proofs.Wait.Success

/-!
# The two phases of a wait for a definition

A new wait for a definition is two polls, one after the other, with a budget each. The reads of the first one miss
the definition up to the read that finds it, and only then are there reads of the second one.
-/

namespace ClusterControl

variable {τ α : Type}

open Op Resource

/-! ## The looks of both phases -/

def Resource.SaysThere (o : Except (Failure τ) Value) : Prop := ∃ object, found o = .ok (some object)

/-- The answer to a read shows the definition, and whether it is established. -/
def Resource.SaysEstablished (established : Bool) (o : Except (Failure τ) Value) : Prop :=
  ∃ object, found o = .ok (some object) ∧ hasCondition object ["Established"] = .ok established

namespace Condition

def existence (o : Except (Failure τ) Value) : Except (Failure τ) (Option Value) :=
  ((found o).bind fun object => .ok object.isSome).bind fun b => .ok (if b then some .null else none)

theorem existence_eq_none_iff {o : Except (Failure τ) Value} : existence o = .ok none ↔ SaysAbsent o := by
  unfold existence SaysAbsent
  rcases found o with _ | _ | _ <;> simp [Except.bind]

theorem existence_eq_some_iff {o : Except (Failure τ) Value} :
    (∃ a, existence o = .ok (some a)) ↔ SaysThere o := by
  unfold existence SaysThere
  rcases found o with _ | _ | _ <;> simp [Except.bind]

theorem shown_eq_none_iff {ref : Ref} {o : Except (Failure τ) Value} :
    shown ref ["Established"] o = .ok none ↔ SaysEstablished false o := by
  unfold shown present SaysEstablished
  rcases found o with _ | _ | object
  · simp [Except.bind]
  · simp [Except.bind]
  · rcases h : hasCondition object ["Established"] with _ | _ | _ <;> simp [Except.bind, Except.mapError, h]

theorem shown_eq_some_iff {ref : Ref} {o : Except (Failure τ) Value} :
    (∃ a, shown ref ["Established"] o = .ok (some a)) ↔ SaysEstablished true o := by
  unfold shown present SaysEstablished
  rcases found o with _ | _ | object
  · simp [Except.bind]
  · simp [Except.bind]
  · rcases h : hasCondition object ["Established"] with _ | _ | _ <;> simp [Except.bind, Except.mapError, h]

variable [Time τ]

theorem inquires_get (c : Connection) (k : Kind) (ns name : Value) :
    (get c k ns name : Op τ (Option Value)).Inquires c (readRequest k ns name) found :=
  c.find_run (readRequest k ns name)

theorem inquires_existence (c : Connection) (name : Value) :
    (definitionExists c name : Condition τ).check.Inquires c (readRequest .definition .null name) existence :=
  ((inquires_get c .definition .null name).bind fun _ => rfl).bind fun _ => rfl

theorem inquires_existing (c : Connection) (k : Kind) (ref : Ref) :
    (existing c k ref : Op τ Value).Inquires c (readRequest k (.ofOption ref.ns) (.ofOption ref.name))
      (present ref) := by
  refine (inquires_get c k _ _).bind fun found => ?_
  cases found with
  | none => rfl
  | some object => rfl

/-- What `definitionEstablished` comes to with a name that is a text. -/
def established (c : Connection) (name : String) : Condition τ :=
  let ref : Ref := ⟨Kind.definition.label, some name, none, none⟩
  { description := ref.text ++ " " ++ "to be established"
    check := holds do Op.look (hasCondition (← existing c .definition ref) ["Established"]) }

theorem inquires_established (c : Connection) (name : String) :
    (established c name : Condition τ).check.Inquires c (readRequest .definition .null name)
      (shown ⟨Kind.definition.label, some name, none, none⟩ ["Established"]) :=
  ((inquires_existing c .definition ⟨Kind.definition.label, some name, none, none⟩).bind fun _ => rfl).bind
    fun _ => rfl

end Condition

namespace DefinitionWait

variable [Time τ]

/-! ## Both polls -/

def existencePhase (d : DefinitionWait τ) (u : Use τ) : Poll τ :=
  ⟨(Condition.definitionExists (τ := τ) d.connection d.name).description, d.interval, u.timeout, u.cancel⟩

def establishedPhase (d : DefinitionWait τ) (u : Use τ) : Poll τ :=
  ⟨(Condition.established (τ := τ) d.connection d.name.text).description, d.interval,
    u.establishedTimeout.getD u.timeout, u.cancel⟩

variable (c : Connection) (name : String) (interval : Seconds τ) (u : Use τ)

theorem existencePoll_eq :
    (start c name interval).existencePoll u = ((start c name interval).existencePhase u).run
      (Condition.definitionExists c name).check u.world := rfl

theorem establishedPoll_eq :
    (start c name interval).establishedPoll u = ((start c name interval).establishedPhase u).run
      (Condition.established c name).check ((start c name interval).existencePoll u).2 := rfl

theorem established_eq (ph : Phase) (timeout : Seconds τ) (cancel : Option τ) :
    ((start c name interval).inPhase ph).established timeout cancel =
      ((start c name interval).inPhase ph).poll (Condition.established c name) timeout cancel := rfl

/-- The failure of a poll as the wait reports it: with the phase, unless it is an interrupt. -/
def reported (d : DefinitionWait τ) (ph : Phase) (e : Failure τ) : Failure τ :=
  if e.isInterrupt then e else .definition d.name ph.label e.message (some e)

/-- How a new wait ends: with the failure of the first poll, with that of the second, or well. -/
inductive Course (d : DefinitionWait τ) (u : Use τ) : Except (Failure τ) Unit → Phase → World τ → Prop where
  | unfound {e : Failure τ} {v : World τ} : d.existencePoll u = (.error e, v) →
      Course d u (.error (d.reported .awaitingExistence e)) .awaitingExistence v
  | unestablished {a : Value} {e : Failure τ} {mid v : World τ} : d.existencePoll u = (.ok a, mid) →
      d.establishedPoll u = (.error e, v) →
      Course d u (.error (d.reported .awaitingEstablished e)) .awaitingEstablished v
  | done {a b : Value} {mid v : World τ} : d.existencePoll u = (.ok a, mid) → d.establishedPoll u = (.ok b, v) →
      Course d u (.ok ()) .done (v.record (.log .info ("CRD " ++ d.name.text ++ " is established")))

section

variable {d : DefinitionWait τ} {k : Condition τ} {timeout : Seconds τ} {cancel : Option τ} {w v : World τ}

theorem poll_of_ok {a : Value} (h : k.poll d.interval timeout cancel w = (.ok a, v)) :
    d.poll k timeout cancel w = (.ok (), v) := by
  rw [poll_run, h]

theorem poll_of_error {e : Failure τ} (h : k.poll d.interval timeout cancel w = (.error e, v)) :
    d.poll k timeout cancel w = (.error (d.named e), v) := by
  rw [poll_run, h]

end

theorem run_start :
    ∃ o ph v, (start c name interval).run u.timeout u.establishedTimeout u.cancel u.world =
        (.ok (o, (start c name interval).inPhase ph), v) ∧ (start c name interval).Course u o ph v := by
  rcases hp : (start c name interval).existencePoll u with ⟨e | a, mid⟩
  · have hexistence : (start c name interval).existence u.timeout u.cancel u.world =
        (.error ((start c name interval).named e), mid) := poll_of_error hp
    exact ⟨_, _, _, by simp only [run, bind_run, attempt, hexistence]; rfl, .unfound hp⟩
  · have hexistence : (start c name interval).existence u.timeout u.cancel u.world = (.ok (), mid) := poll_of_ok hp
    rcases hq : (start c name interval).establishedPoll u with ⟨e | b, v⟩
    · have hestablished : ((start c name interval).inPhase .awaitingEstablished).established
          (u.establishedTimeout.getD u.timeout) u.cancel mid =
          (.error (((start c name interval).inPhase .awaitingEstablished).named e), v) := by
        rw [establishedPoll_eq, hp] at hq
        rw [established_eq]
        exact poll_of_error hq
      refine ⟨_, _, _, ?_, .unestablished hp hq⟩
      simp only [run, bind_run, attempt, hexistence, finish_run, hestablished]
      rfl
    · have hestablished : ((start c name interval).inPhase .awaitingEstablished).established
          (u.establishedTimeout.getD u.timeout) u.cancel mid = (.ok (), v) := by
        rw [establishedPoll_eq, hp] at hq
        rw [established_eq]
        exact poll_of_ok hq
      refine ⟨_, _, _, ?_, .done hp hq⟩
      simp only [run, bind_run, attempt, hexistence, finish_run, hestablished]
      rfl

/-! ## The reads of both polls -/

/-- The reads of the first poll miss the definition up to the last one, if that shows anything else. -/
theorem existencePoll_reads :
    ∃ misses last, ((start c name interval).existencePoll u).2.exchanges = u.world.exchanges ++ (misses ++ last) ∧
      (∀ x ∈ misses ++ last, x.request = readRequest .definition .null name) ∧
      (∀ x ∈ misses, SaysAbsent x.outcome) ∧ (last = [] ∨ ∃ x, last = [x] ∧ ¬ SaysAbsent x.outcome) ∧
      ∀ a, ((start c name interval).existencePoll u).1 = .ok a → ∃ x, last = [x] ∧ SaysThere x.outcome := by
  rw [existencePoll_eq]
  obtain ⟨xs, hxs, htried⟩ := Poll.emits_run (Condition.inquires_existence c name).emits
    ((start c name interval).existencePhase u) u.world
  obtain ⟨misses, last, rfl, hmisses, hlast⟩ := htried.of_asks
  refine ⟨misses, last, hxs, ?_, fun x hx => Condition.existence_eq_none_iff.1 (hmisses x hx).2, ?_⟩
  · intro x hx
    rcases List.mem_append.1 hx with hx | hx
    · exact (hmisses x hx).1
    · rcases hlast with ⟨rfl, _⟩ | ⟨y, rfl, hy, _⟩
      · cases hx
      · rw [List.mem_singleton.1 hx, hy]
  · rcases hlast with ⟨rfl, e, he⟩ | ⟨x, rfl, _, hx⟩
    · exact ⟨.inl rfl, fun a ha => by rw [he] at ha; cases ha⟩
    · refine ⟨.inr ⟨x, rfl, fun habsent => ?_⟩, fun a ha => ⟨x, rfl, ?_⟩⟩
      · exact map_some_ne_none _ (hx.symm.trans (Condition.existence_eq_none_iff.2 habsent))
      · rw [ha] at hx
        exact Condition.existence_eq_some_iff.1 ⟨a, hx⟩

theorem establishedPoll_reads :
    ∃ later, ((start c name interval).establishedPoll u).2.exchanges =
        ((start c name interval).existencePoll u).2.exchanges ++ later ∧
      ∀ x ∈ later, x.request = readRequest .definition .null name := by
  rw [establishedPoll_eq]
  obtain ⟨xs, hxs, htried⟩ := Poll.emits_run (Condition.inquires_established c name).emits
    ((start c name interval).establishedPhase u) ((start c name interval).existencePoll u).2
  have honly := (htried.mono fun _ _ h => h.only (P := (· = readRequest .definition .null name)) rfl).only
  exact ⟨xs, hxs, honly⟩

section

variable {c name interval u} {mid v : World τ}

theorem existencePoll_sees {a : Value} (h : (start c name interval).existencePoll u = (.ok a, mid)) :
    ∃ xs, ((start c name interval).existencePhase u).Sees c (readRequest .definition .null name) SaysAbsent SaysThere
      u.world.now u.world xs mid := by
  obtain ⟨xs, hsees⟩ := Poll.sees_of_run (Condition.inquires_existence c name) h
  exact ⟨xs, hsees.congr (fun _ => Condition.existence_eq_none_iff) fun _ => Condition.existence_eq_some_iff⟩

theorem establishedPoll_sees {b : Value} (hmid : ((start c name interval).existencePoll u).2 = mid)
    (h : (start c name interval).establishedPoll u = (.ok b, v)) :
    ∃ ys, ((start c name interval).establishedPhase u).Sees c (readRequest .definition .null name)
      (SaysEstablished false) (SaysEstablished true) mid.now mid ys v := by
  rw [establishedPoll_eq, hmid] at h
  obtain ⟨ys, hsees⟩ := Poll.sees_of_run (Condition.inquires_established c name) h
  exact ⟨ys, hsees.congr (fun _ => Condition.shown_eq_none_iff) fun _ => Condition.shown_eq_some_iff⟩

variable [Time.Exact τ]

theorem existencePoll_of_sees (hi : 0 < interval.amount) (ht : 0 ≤ u.timeout.amount)
    (hw : u.world.script.Forward) {xs : List (Exchange τ)}
    (h : ((start c name interval).existencePhase u).Sees c (readRequest .definition .null name) SaysAbsent SaysThere
      u.world.now u.world xs mid) : ∃ a, (start c name interval).existencePoll u = (.ok a, mid) :=
  Poll.run_of_sees (Condition.inquires_existence c name) hi ht hw
    (h.congr (fun _ => Condition.existence_eq_none_iff.symm) fun _ => Condition.existence_eq_some_iff.symm)

theorem establishedPoll_of_sees (hi : 0 < interval.amount)
    (ht : 0 ≤ (u.establishedTimeout.getD u.timeout).amount) (hmid : ((start c name interval).existencePoll u).2 = mid)
    (hw : mid.script.Forward) {ys : List (Exchange τ)}
    (h : ((start c name interval).establishedPhase u).Sees c (readRequest .definition .null name)
      (SaysEstablished false) (SaysEstablished true) mid.now mid ys v) :
    ∃ b, (start c name interval).establishedPoll u = (.ok b, v) := by
  rw [establishedPoll_eq, hmid]
  exact Poll.run_of_sees (Condition.inquires_established c name) hi ht hw
    (h.congr (fun _ => Condition.shown_eq_none_iff.symm) fun _ => Condition.shown_eq_some_iff.symm)

end

/-! ## Both phases -/

/-- A read shows the definition within the first budget, and a read after it shows it established within the second
budget, which begins when the first poll ends. -/
def SeesBoth (d : DefinitionWait τ) (u : Use τ) (xs ys : List (Exchange τ)) : Prop :=
  ∃ mid v,
    (d.existencePhase u).Sees d.connection (readRequest .definition .null d.name) SaysAbsent SaysThere
      u.world.now u.world xs mid ∧
    (d.establishedPhase u).Sees d.connection (readRequest .definition .null d.name)
      (SaysEstablished false) (SaysEstablished true) mid.now mid ys v

/-- The reads of a new wait. Some miss the definition, one at most shows anything else, and only if it shows the
definition are there reads of the second poll. -/
structure ReadsInTurn (d : DefinitionWait τ) (u : Use τ) (v : World τ) (misses last later : List (Exchange τ)) :
    Prop where
  first : (d.existencePoll u).2.exchanges = u.world.exchanges ++ (misses ++ last)
  second : v.exchanges = (d.existencePoll u).2.exchanges ++ later
  requests : ∀ x ∈ misses ++ last ++ later, x.request = readRequest .definition .null d.name
  absent : ∀ x ∈ misses, SaysAbsent x.outcome
  once : last = [] ∨ ∃ x, last = [x] ∧ ¬ SaysAbsent x.outcome
  afterwards : later = [] ∨ ∃ x, last = [x] ∧ SaysThere x.outcome

/-- What a new wait for a definition does, and how it ends: with the outcome, in the phase, in the world. -/
structure TwoPhases (d : DefinitionWait τ) (u : Use τ) (o : Except (Failure τ) Unit) (ph : Phase)
    (v : World τ) : Prop where
  reads : ∃ misses last later, d.ReadsInTurn u v misses last later
  /-- A wait that succeeds sees the definition. -/
  sees : o = .ok () → ∃ xs ys, d.SeesBoth u xs ys ∧ v.exchanges = u.world.exchanges ++ xs ++ ys
  /-- On an exact clock, with answers that take no negative time and arguments in order, that is enough. -/
  succeeds : Time.Exact τ → u.world.script.Forward → 0 < d.interval.amount → 0 ≤ u.timeout.amount →
    0 ≤ (u.establishedTimeout.getD u.timeout).amount → (∃ xs ys, d.SeesBoth u xs ys) → o = .ok ()
  done_iff : o = .ok () ↔ ph = .done
  /-- After a first poll that failed nothing more is done. -/
  unfound : ∀ e mid, d.existencePoll u = (.error e, mid) →
    ph = .awaitingExistence ∧ v = mid ∧ o = .error (d.reported .awaitingExistence e)
  unestablished : ∀ a mid e seen, d.existencePoll u = (.ok a, mid) → d.establishedPoll u = (.error e, seen) →
    ph = .awaitingEstablished ∧ v = seen ∧ o = .error (d.reported .awaitingEstablished e)

namespace Course

variable {c name interval u} {o : Except (Failure τ) Unit} {ph : Phase} {v : World τ}

theorem reads (h : (start c name interval).Course u o ph v) :
    ∃ misses last later, (start c name interval).ReadsInTurn u v misses last later := by
  obtain ⟨misses, last, hfirst, hrequests, hmisses, hlast, hfound⟩ := existencePoll_reads c name interval u
  obtain ⟨later, hsecond, hlater⟩ := establishedPoll_reads c name interval u
  have hall : ∀ x ∈ misses ++ last ++ later, x.request = readRequest .definition .null name :=
    fun x hx => (List.mem_append.1 hx).elim (hrequests x) (hlater x)
  cases h with
  | unfound hp =>
      refine ⟨misses, last, [], hfirst, by rw [hp, List.append_nil], ?_, hmisses, hlast, .inl rfl⟩
      rwa [List.append_nil]
  | @unestablished a e mid v hp hq =>
      rw [hq] at hsecond
      exact ⟨misses, last, later, hfirst, hsecond, hall, hmisses, hlast, .inr (hfound a (by rw [hp]))⟩
  | @done a b mid v hp hq =>
      rw [hq] at hsecond
      refine ⟨misses, last, later, hfirst, ?_, hall, hmisses, hlast, .inr (hfound a (by rw [hp]))⟩
      rw [World.exchanges_record, List.append_nil]
      exact hsecond

theorem sees (h : (start c name interval).Course u o ph v) (ho : o = .ok ()) :
    ∃ xs ys, (start c name interval).SeesBoth u xs ys ∧ v.exchanges = u.world.exchanges ++ xs ++ ys := by
  subst ho
  cases h with
  | @done a b mid seen hp hq =>
      obtain ⟨xs, hxs⟩ := existencePoll_sees hp
      obtain ⟨ys, hys⟩ := establishedPoll_sees (congrArg Prod.snd hp) hq
      refine ⟨xs, ys, ⟨mid, seen, hxs, hys⟩, ?_⟩
      rw [World.exchanges_record, hys.exchanges, hxs.exchanges, List.append_nil]

theorem succeeds [Time.Exact τ] (h : (start c name interval).Course u o ph v) (hw : u.world.script.Forward)
    (hi : 0 < interval.amount) (ht : 0 ≤ u.timeout.amount) (he : 0 ≤ (u.establishedTimeout.getD u.timeout).amount)
    (hsees : ∃ xs ys, (start c name interval).SeesBoth u xs ys) : o = .ok () := by
  obtain ⟨xs, ys, mid, seen, hxs, hys⟩ := hsees
  obtain ⟨a, hp⟩ := existencePoll_of_sees hi ht hw hxs
  obtain ⟨b, hq⟩ := establishedPoll_of_sees hi he (congrArg Prod.snd hp) (hxs.forward hw) hys
  cases h with
  | unfound hp' => cases hp.symm.trans hp'
  | unestablished _ hq' => cases hq.symm.trans hq'
  | done => rfl

theorem twoPhases (h : (start c name interval).Course u o ph v) : (start c name interval).TwoPhases u o ph v where
  reads := h.reads
  sees := h.sees
  succeeds _ := h.succeeds
  done_iff := by cases h <;> simp
  unfound e mid hp := by
    cases h with
    | unfound hp' =>
        cases hp.symm.trans hp'
        exact ⟨rfl, rfl, rfl⟩
    | unestablished hp' _ => cases hp.symm.trans hp'
    | done hp' _ => cases hp.symm.trans hp'
  unestablished a mid e seen hp hq := by
    cases h with
    | unfound hp' => cases hp.symm.trans hp'
    | unestablished _ hq' =>
        cases hq.symm.trans hq'
        exact ⟨rfl, rfl, rfl⟩
    | done _ hq' => cases hq.symm.trans hq'

end Course

/-- A new wait for a definition, and the wait of a cluster for one, have two phases. -/
theorem wait_has_two_phases (h : Cluster τ) (name : String) (l : Cluster.Limits τ)
    (establishedTimeout : Option (Seconds τ)) (w : World τ) :
    let d := start h.connection name h.interval
    let u : Use τ := ⟨w, h.timeoutOf l.timeout, establishedTimeout, l.cancel⟩
    ∃ o ph v, d.run u.timeout u.establishedTimeout u.cancel w = (.ok (o, d.inPhase ph), v) ∧
      h.awaitDefinition name establishedTimeout l none w = (o, v) ∧ d.TwoPhases u o ph v := by
  intro d u
  obtain ⟨o, ph, v, hrun, hcourse⟩ := run_start h.connection name h.interval u
  have hawait : h.awaitDefinition name establishedTimeout l none w = (o, v) := by
    show (start h.connection name h.interval).wait u.timeout u.establishedTimeout u.cancel u.world = _
    rw [wait, bind_run, hrun]
    rfl
  exact ⟨o, ph, v, hrun, hawait, hcourse.twoPhases⟩

def watchful : Cluster Rat := ⟨0, ⟨0, {}⟩, Platform.generic, .real 1, .real 5⟩

/-- A definition that appears and then is established, with its answers a second each. -/
def appearing : List (Response Rat) :=
  let status (s : String) : Value := .obj [("status", .obj [("conditions",
    .list [.obj [("type", "Established"), ("status", s)]])])]
  [⟨.error (.rejected ⟨.int 404, "Not Found", .null⟩), 1⟩, ⟨.ok (status "False"), 1⟩, ⟨.ok (status "False"), 1⟩,
    ⟨.ok (status "True"), 1⟩]

def developing : World Rat :=
  (World.initial (Script.put [] (Kind.definition.endpoint .read .null) appearing) []).connected

/-- A wait that succeeds with its fourth read, in a world where the hypotheses of `succeeds` hold too. -/
theorem wait_has_two_phases_of_appearing :
    let d := start watchful.connection "apps.paas.io" watchful.interval
    let u : Use Rat := ⟨developing, .real 5, none, none⟩
    (watchful.awaitDefinition "apps.paas.io" none {} none developing).2.exchanges.length = 4 ∧
      developing.script.Forward ∧ (∃ xs ys, d.SeesBoth u xs ys) ∧ ∃ v, d.TwoPhases u (.ok ()) .done v := by
  intro d u
  have hok : (watchful.awaitDefinition "apps.paas.io" none {} none developing).1.isOk = true := by decide +kernel
  have hlength : (watchful.awaitDefinition "apps.paas.io" none {} none developing).2.exchanges.length = 4 := by
    decide +kernel
  have hforward : developing.script.Forward := Script.forward_nil.put _ (by decide +kernel)
  obtain ⟨o, ph, v, _, hawait, hphases⟩ := wait_has_two_phases watchful "apps.paas.io" {} none developing
  rw [hawait] at hok
  obtain rfl : o = .ok () := by
    cases o with
    | error e => cases hok
    | ok => rfl
  obtain rfl : ph = .done := hphases.done_iff.1 rfl
  obtain ⟨xs, ys, hsees, _⟩ := hphases.sees rfl
  exact ⟨hlength, hforward, ⟨xs, ys, hsees⟩, v, hphases⟩

/-- An interrupt during the first poll is not reported together with the phase, as other failures are. -/
theorem interrupt_is_not_reported :
    let d := start ⟨0, {}⟩ "apps.paas.io" (.real 1)
    let u := Use.answered (.error (.interrupt "stop"))
    (d.existencePoll u).1 = .error (.interrupt "stop") ∧ d.outcome u = (.error (.interrupt "stop"), d) ∧
      d.failedPhase? u = none :=
  ⟨rfl, rfl, rfl⟩

end DefinitionWait

end ClusterControl
