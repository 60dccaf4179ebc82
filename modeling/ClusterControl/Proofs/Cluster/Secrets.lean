import ClusterControl.Cluster.Waits
import ClusterControl.Proofs.Wait.Refusals
import ClusterControl.Proofs.Wait.TwoPhases

/-!
# What a watch for a secret hands back

A watched condition may be looked at by single checks and by polls, in any order and however they end. It always hands
back what the last read to find the secret found. A wait for a secret ends with the one read that finds it.
-/

namespace ClusterControl

variable {τ α : Type}

open Op Resource

/-! ## What was found last -/

def Exchange.object? (x : Exchange τ) : Option Value :=
  match x.outcome with
  | .ok v => if v.isNull then none else some v
  | .error _ => none

/-- The object that the last read to find one found, or `otherwise` if none did. -/
def lastFound (otherwise : Value) (xs : List (Exchange τ)) : Value :=
  ((xs.filterMap Exchange.object?).getLast?).getD otherwise

theorem lastFound_append (v : Value) (xs ys : List (Exchange τ)) :
    lastFound v (xs ++ ys) = lastFound (lastFound v xs) ys := by
  simp only [lastFound, List.filterMap_append, List.getLast?_append, Option.getD_or]

theorem lastFound_singleton (v : Value) (x : Exchange τ) : lastFound v [x] = x.object?.getD v := by
  unfold lastFound
  cases h : x.object? <;> simp [h]

theorem Exchange.object?_eq (x : Exchange τ) : x.object? = (found x.outcome).toOption.join := by
  unfold object? found
  cases x.outcome with
  | ok v => rfl
  | error e => cases h : e.isNotFound <;> simp only [h, if_true, Bool.false_eq_true, if_false] <;> rfl

theorem found_eq_some {o : Except (Failure τ) Value} {v : Value} (h : found o = .ok (some v)) :
    o = .ok v ∧ v.isNull = false := by
  unfold found at h
  cases o with
  | ok v' =>
      cases hn : v'.isNull with
      | true => simp [hn] at h
      | false =>
          obtain rfl : v' = v := by simpa [hn] using h
          exact ⟨rfl, hn⟩
  | error e => cases hn : e.isNotFound <;> simp [hn] at h

theorem lastFound_of_asks {r : Request} {xs : List (Exchange τ)} {o : Except (Failure τ) (Option Value)}
    (h : Trace.asks r found xs o) (v : Value) : lastFound v xs = o.toOption.join.getD v := by
  cases h with
  | unasked => rfl
  | @asked x _ _ ho =>
      subst ho
      rw [lastFound_singleton, x.object?_eq]

theorem lastFound_of_tried {r : Request} {xs : List (Exchange τ)} {o : Except (Failure τ) Value}
    (h : Trace.Tried (.asks r found) xs o) (v : Value) : lastFound v xs = o.toOption.getD v := by
  induction h with
  | ended e => rfl
  | failed ht => exact lastFound_of_asks ht v
  | yielded ht => exact lastFound_of_asks ht v
  | missed ht _ ih =>
      have hmissed := lastFound_of_asks ht v
      rw [lastFound_append, hmissed]
      exact ih

variable [Time τ]

/-! ## Looks -/

namespace Watch

inductive Look (τ : Type) where
  | check (world : World τ)
  | poll (world : World τ) (interval timeout : Seconds τ) (cancel : Option τ)

def Look.world : Look τ → World τ
  | .check world => world
  | .poll world _ _ _ => world

def look (w : Watch τ) : Look τ → Op τ (Watch τ)
  | .check _ => do pure (← w.check).2
  | .poll _ interval timeout cancel => w.poll interval timeout cancel

/-- The watch after a look. A look that fails leaves it as it was. -/
def looked (w : Watch τ) (l : Look τ) : Watch τ :=
  match (w.look l l.world).1 with
  | .ok w => w
  | .error _ => w

def readsOf (w : Watch τ) (l : Look τ) : List (Exchange τ) :=
  (w.look l l.world).2.exchanges.drop l.world.exchanges.length

/-- The watch after some looks, the latest of which comes first. -/
def after (w : Watch τ) : List (Look τ) → Watch τ
  | [] => w
  | l :: ls => (w.after ls).looked l

/-- What the looks read, the earliest read first. -/
def reads (w : Watch τ) : List (Look τ) → List (Exchange τ)
  | [] => []
  | l :: ls => w.reads ls ++ (w.after ls).readsOf l

variable {w : Watch τ} {c : Connection} {r : Request}

theorem looked_check (w : Watch τ) (u : World τ) :
    (w.look (.check u) u).2 = (w.condition.check u).2 ∧
      w.looked (.check u) = { w with result := (w.condition.check u).1.toOption.join.getD w.result } := by
  unfold looked look
  simp only [check, bind_run, Look.world]
  rcases w.condition.check u with ⟨_ | _ | _, _⟩ <;> exact ⟨rfl, rfl⟩

theorem looked_poll (w : Watch τ) (u : World τ) (interval timeout : Seconds τ) (cancel : Option τ) :
    (w.look (.poll u interval timeout cancel) u).2 = (w.condition.poll interval timeout cancel u).2 ∧
      w.looked (.poll u interval timeout cancel) =
        { w with result := (w.condition.poll interval timeout cancel u).1.toOption.getD w.result } := by
  unfold looked look
  simp only [poll, bind_run, Look.world]
  rcases w.condition.poll interval timeout cancel u with ⟨_ | _, _⟩ <;> exact ⟨rfl, rfl⟩

/-- One look reads the object that is watched for, and keeps what it found last. -/
theorem looked_eq (hw : w.condition.check.Inquires c r found) (l : Look τ) :
    (∀ x ∈ w.readsOf l, x.request = r) ∧ w.looked l = { w with result := lastFound w.result (w.readsOf l) } := by
  cases l with
  | check u =>
      obtain ⟨hworld, hlooked⟩ := w.looked_check u
      obtain ⟨xs, hxs, hasks⟩ := hw.emits u
      have hreads : w.readsOf (.check u) = xs := by
        rw [readsOf, Look.world, hworld, hxs, List.drop_left]
      rw [hreads, hlooked, lastFound_of_asks hasks]
      exact ⟨hasks.only (P := (· = r)) rfl, rfl⟩
  | poll u interval timeout cancel =>
      obtain ⟨hworld, hlooked⟩ := w.looked_poll u interval timeout cancel
      obtain ⟨xs, hxs, htried⟩ :=
        Poll.emits_run hw.emits ⟨w.condition.description, interval, timeout, cancel⟩ u
      have hreads : w.readsOf (.poll u interval timeout cancel) = xs := by
        rw [readsOf, Look.world, hworld, Condition.poll, hxs, List.drop_left]
      rw [hreads, hlooked, lastFound_of_tried htried]
      exact ⟨(htried.mono fun _ _ ht => ht.only (P := (· = r)) rfl).only, rfl⟩

theorem after_eq (hw : w.condition.check.Inquires c r found) (ls : List (Look τ)) :
    (∀ x ∈ w.reads ls, x.request = r) ∧ w.after ls = { w with result := lastFound w.result (w.reads ls) } := by
  induction ls with
  | nil => exact ⟨List.forall_mem_nil _, rfl⟩
  | cons l ls ih =>
      obtain ⟨hreads, hafter⟩ := ih
      have hcondition : (w.after ls).condition = w.condition := by rw [hafter]
      have hresult : (w.after ls).result = lastFound w.result (w.reads ls) := by rw [hafter]
      obtain ⟨hread, hlooked⟩ := looked_eq (hcondition ▸ hw) l
      refine ⟨fun x hx => (List.mem_append.1 hx).elim (hreads x) (hread x), ?_⟩
      rw [after, hlooked, reads, lastFound_append, hcondition, hresult]

end Watch

/-! ## Waits for a secret -/

namespace Condition

theorem inquires_secretPresent {c : Connection} {ns name : Value} {k : Condition τ}
    (h : secretPresent c ns name = .valid k) : k.check.Inquires c (readRequest .secret ns name) found := by
  obtain ⟨ref, rfl⟩ := Checked.map_eq_valid h
  exact inquires_get c .secret ns name

end Condition

namespace Cluster

/-- Reads that find nothing, and then one that finds what is handed back. -/
structure EndsWith (r : Request) (w : World τ) (v : Value) (u : World τ) (misses : List (Exchange τ)) (x : Exchange τ) :
    Prop where
  exchanges : u.exchanges = w.exchanges ++ (misses ++ [x])
  request : ∀ y ∈ misses ++ [x], y.request = r
  misses : ∀ y ∈ misses, SaysAbsent y.outcome
  outcome : x.outcome = .ok v
  present : v.isNull = false

theorem awaitSecret_ends {c : Cluster τ} {ns name : Value} {l : Limits τ} {w u : World τ} {v : Value}
    (h : c.awaitSecret ns name l w = (.ok v, u)) :
    ∃ misses x, EndsWith (readRequest .secret ns name) w v u misses x := by
  cases hk : (Condition.secretPresent c.connection ns name : Checked (Condition τ)) with
  | invalid issues =>
      simp only [awaitSecret, wait, hk] at h
      cases h
  | valid k =>
      have hrun : Poll.run ⟨k.description, c.interval, c.timeoutOf l.timeout, l.cancel⟩ k.check w = (.ok v, u) := by
        simp only [awaitSecret, wait, hk] at h
        exact h
      obtain ⟨xs, hxs, htried⟩ := Poll.emits_run (Condition.inquires_secretPresent hk).emits
        ⟨k.description, c.interval, c.timeoutOf l.timeout, l.cancel⟩ w
      rw [hrun] at hxs htried
      obtain ⟨misses, last, rfl, hmisses, ⟨_, e, he⟩ | ⟨x, rfl, hr, hfound⟩⟩ := htried.of_asks
      · cases he
      · obtain ⟨houtcome, hpresent⟩ := found_eq_some hfound
        refine ⟨misses, x, hxs, fun y hy => ?_, fun y hy => (hmisses y hy).2, houtcome, hpresent⟩
        rcases List.mem_append.1 hy with hy | hy
        · exact (hmisses y hy).1
        · rwa [List.mem_singleton.1 hy]

/-- A wait for a secret hands back what its last read found, and its other reads found nothing. A watched condition
holds what was found last in all its reads, and nothing if none of them found the secret. -/
theorem secret_handed_back (c : Cluster τ) (ns name : Value) :
    (∀ l w v u, c.awaitSecret ns name l w = (.ok v, u) →
      ∃ misses x, EndsWith (readRequest .secret ns name) w v u misses x) ∧
    ∀ k, Condition.secretPresent c.connection ns name = .valid k → ∀ looks : List (Watch.Look τ),
      (∀ x ∈ (Watch.start k).reads looks, x.request = readRequest .secret ns name) ∧
        ((Watch.start k).after looks).result = lastFound .null ((Watch.start k).reads looks) := by
  refine ⟨fun l w v u h => awaitSecret_ends h, fun k hk looks => ?_⟩
  have hwatch : (Watch.start k).condition.check.Inquires c.connection (readRequest .secret ns name) found :=
    Condition.inquires_secretPresent hk
  obtain ⟨hreads, hafter⟩ := Watch.after_eq hwatch looks
  exact ⟨hreads, congrArg Watch.result hafter⟩

/-- A secret that is there at the second read, and whose third read fails. -/
def delivered : World Rat :=
  (World.initial [(Kind.secret.endpoint .read "apps",
      [⟨.error (.rejected ⟨.int 404, "Not Found", .null⟩), 1⟩, ⟨.ok (.obj [("type", "Opaque")]), 1⟩,
        ⟨.error (.rejected ⟨.int 500, "Internal Error", .null⟩), 1⟩])] []).connected

theorem secret_handed_back_of_delivered :
    ∃ v u, watchful.awaitSecret "apps" "token" {} delivered = (.ok v, u) ∧
      (∃ misses x, EndsWith (readRequest .secret "apps" "token") delivered v u misses x) ∧
      ∃ k, Condition.secretPresent watchful.connection "apps" "token" = .valid k ∧
        let looks : List (Watch.Look Rat) := [.check u, .poll delivered (.real 1) (.real 5) none]
        ((Watch.start k).after looks).result = lastFound .null ((Watch.start k).reads looks) ∧
          ((Watch.start k).after looks).result.isNull = false := by
  have hok : (watchful.awaitSecret "apps" "token" {} delivered).1.isOk = true := by decide +kernel
  obtain ⟨hawait, hwatch⟩ := secret_handed_back watchful "apps" "token"
  rcases hrun : watchful.awaitSecret "apps" "token" {} delivered with ⟨e | v, u⟩
  · rw [hrun] at hok
    cases hok
  · refine ⟨v, u, rfl, hawait {} delivered v u hrun, _, rfl, (hwatch _ rfl _).2, ?_⟩
    rw [← show (watchful.awaitSecret "apps" "token" {} delivered).2 = u by rw [hrun]]
    decide +kernel

end Cluster

end ClusterControl
