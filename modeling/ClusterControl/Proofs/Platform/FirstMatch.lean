import ClusterControl.Cluster.Basic
import ClusterControl.Proofs.Platform.Inquiries

/-!
# The first match

Detection asks one strategy after the other, each once, in the world that the one before it has left. The first that
recognizes the cluster describes it, and the first that breaks off ends the detection; those after it are not used.
-/

namespace ClusterControl

open Op

variable {τ : Type}

/-! ## Uses of strategies -/

namespace Strategy

/-- The strategy does not recognize the cluster: it says so, or it does not find what it looks for. -/
def Misses (s : Strategy τ) (c : Connection) (w : World τ) : Prop :=
  (s.detect c w).1 = .ok false ∨ ∃ e, (s.detect c w).1 = .error e ∧ e.isNotFound = true

/-- Each use of the strategy is written down once, under its name. -/
structure Recorded (s : Strategy τ) : Prop where
  detect : ∀ c w, (s.detect c w).2.probes = w.probes ++ [(.detect, s.name)]
  load : ∀ c w, (s.load c w).2.probes = w.probes ++ [(.load, s.name)]

theorem Silent.recorded_traced {s : Strategy τ} (h : s.Silent) : s.traced.Recorded where
  detect c w := (h.detect c (w.record (.probe .detect s.name))).trans (World.probes_record w _)
  load c w := (h.load c (w.record (.probe .load s.name))).trans (World.probes_record w _)

theorem misses_or_stops (s : Strategy τ) (c : Connection) (w : World τ) :
    s.Misses c w ∨ (s.detect c w).1 = .ok true ∨ ∃ e, (s.detect c w).1 = .error e ∧ e.isNotFound = false := by
  unfold Misses
  rcases (s.detect c w).1 with e | _ | _
  · cases he : e.isNotFound with
    | true => exact .inl (.inr ⟨e, rfl, he⟩)
    | false => exact .inr (.inr ⟨e, rfl, he⟩)
  · exact .inl (.inl rfl)
  · exact .inr (.inl rfl)

end Strategy

namespace Platform

/-- Strategies that were asked, as they are written down. -/
def asked (ss : List (Strategy τ)) : List (Probe × String) := ss.map fun s => (.detect, s.name)

/-- From one world to another the strategies are asked in order, once each, and none of them recognizes the cluster. -/
inductive Scan (c : Connection) : World τ → List (Strategy τ) → World τ → Prop where
  | nil (w : World τ) : Scan c w [] w
  | miss {s : Strategy τ} {ss : List (Strategy τ)} {w v : World τ} :
      s.Misses c w → Scan c (s.detect c w).2 ss v → Scan c w (s :: ss) v

theorem scan_or_stop (c : Connection) (ss : List (Strategy τ)) (w : World τ) :
    (∃ v, Scan c w ss v) ∨ ∃ front s back v, ss = front ++ s :: back ∧ Scan c w front v ∧ ¬ s.Misses c v := by
  induction ss generalizing w with
  | nil => exact .inl ⟨w, .nil w⟩
  | cons s ss ih =>
      by_cases hs : s.Misses c w
      · obtain ⟨v, hscan⟩ | ⟨front, t, back, v, rfl, hscan, ht⟩ := ih (s.detect c w).2
        · exact .inl ⟨v, .miss hs hscan⟩
        · exact .inr ⟨s :: front, t, back, v, rfl, .miss hs hscan, ht⟩
      · exact .inr ⟨[], s, ss, w, rfl, .nil w, hs⟩

theorem Scan.probes {c : Connection} {ss : List (Strategy τ)} {w v : World τ} (h : Scan c w ss v)
    (hss : ∀ s ∈ ss, s.Recorded) : v.probes = w.probes ++ asked ss := by
  induction h with
  | nil w => exact (List.append_nil _).symm
  | @miss s ss w v _ _ ih =>
      have hs := (hss s List.mem_cons_self).detect c w
      rw [ih fun t ht => hss t (List.mem_cons_of_mem s ht), hs, List.append_assoc]
      rfl

end Platform

/-! ## Detection -/

/-- The world after a message. -/
def World.informed (w : World τ) (message : String) : World τ := w.record (.log .info message)

theorem World.probes_informed (w : World τ) (message : String) : (w.informed message).probes = w.probes :=
  (w.probes_record _).trans (List.append_nil _)

namespace Platform

def announcement (p : Platform) : String := "Detected platform " ++ p.name ++ ": " ++ p.description

/-- What a strategy comes to that describes the cluster. -/
def announced : Except (Failure τ) Platform × World τ → Except (Failure τ) Platform × World τ
  | (.ok p, w) => (.ok p, w.informed (announcement p))
  | (.error e, w) => (.error e, w)

/-- How a detection ends, and which strategies it uses in which order. Of the strategies before the one that ends it
none recognizes the cluster, and those after it are not used. If no strategy ends it, then nothing but two messages is
added to what they did. -/
inductive Detects (c : Connection) (ss : List (Strategy τ)) (w : World τ) :
    List (Probe × String) → Except (Failure τ) Platform × World τ → Prop where
  | matched {front back : List (Strategy τ)} {s : Strategy τ} {v : World τ} : ss = front ++ s :: back →
      Scan c w front v → (s.detect c v).1 = .ok true →
      Detects c ss w (asked front ++ [(.detect, s.name), (.load, s.name)])
        (announced (s.load c (s.detect c v).2))
  | broken {front back : List (Strategy τ)} {s : Strategy τ} {v : World τ} {e : Failure τ} :
      ss = front ++ s :: back → Scan c w front v → (s.detect c v).1 = .error e → e.isNotFound = false →
      Detects c ss w (asked front ++ [(.detect, s.name)]) (.error e, (s.detect c v).2)
  | unmatched {v : World τ} : Scan c w ss v →
      Detects c ss w (asked ss) (.ok generic,
        (v.informed "No known platform detected, using generic").informed (announcement generic))

section

variable {c : Connection} {s : Strategy τ} {ss : List (Strategy τ)} {w v : World τ}

/-- What a probe comes to: a strategy that does not find what it looks for does not recognize the cluster. -/
def settled : Except (Failure τ) Bool → Except (Failure τ) Bool
  | .ok b => .ok b
  | .error e => if e.isNotFound then .ok false else .error e

theorem matched_run (s : Strategy τ) (c : Connection) (w : World τ) :
    matched s c w = (settled (s.detect c w).1, (s.detect c w).2) := by
  rw [matched, onNotFound, onRejection, onFailure]
  rcases s.detect c w with ⟨e | b, v⟩
  · cases e with
    | rejected r => cases hr : r.isNotFound <;> simp [settled, Failure.isNotFound, hr]
    | _ => rfl
  · rfl

theorem settled_of_miss (h : s.Misses c w) : settled (s.detect c w).1 = .ok false := by
  rcases h with h | ⟨e, h, he⟩
  · rw [h]
    rfl
  · rw [h]
    exact if_pos he

theorem detect_of_miss (h : s.Misses c w) (rest : List (Strategy τ)) :
    detect c (s :: rest) w = detect c rest (s.detect c w).2 := by
  simp only [detect, select, bind_run, matched_run, settled_of_miss h]
  rfl

theorem detect_of_scan (h : Scan c w ss v) (rest : List (Strategy τ)) : detect c (ss ++ rest) w = detect c rest v := by
  induction h with
  | nil => rfl
  | miss hs _ ih => exact (detect_of_miss hs _).trans ih

theorem detect_of_match (h : (s.detect c w).1 = .ok true) (rest : List (Strategy τ)) :
    detect c (s :: rest) w = announced (s.load c (s.detect c w).2) := by
  simp only [detect, select, bind_run, matched_run, h, settled, if_true, pure_run]
  rcases s.load c (s.detect c w).2 with ⟨e | p, v⟩ <;> rfl

theorem detect_of_break {e : Failure τ} (h : (s.detect c w).1 = .error e) (he : e.isNotFound = false)
    (rest : List (Strategy τ)) : detect c (s :: rest) w = (.error e, (s.detect c w).2) := by
  simp only [detect, select, bind_run, matched_run, h, settled, he, Bool.false_eq_true, if_false]

theorem detect_nil (c : Connection) (w : World τ) :
    detect c [] w = (.ok generic,
      (w.informed "No known platform detected, using generic").informed (announcement generic)) := rfl

theorem probes_announced (run : Except (Failure τ) Platform × World τ) : (announced run).2.probes = run.2.probes := by
  rcases run with ⟨e | p, v⟩
  · rfl
  · exact v.probes_informed _

theorem Detects.probes {calls : List (Probe × String)} {run : Except (Failure τ) Platform × World τ}
    (h : Detects c ss w calls run) (hss : ∀ s ∈ ss, s.Recorded) : run.2.probes = w.probes ++ calls := by
  cases h with
  | @matched front back s v heq hscan _ =>
      obtain ⟨hfront, hrest⟩ := List.forall_mem_append.1 (heq ▸ hss)
      have hs := hrest s List.mem_cons_self
      rw [probes_announced, hs.load, hs.detect, hscan.probes hfront]
      simp only [List.append_assoc, List.singleton_append]
  | @broken front back s v e heq hscan _ _ =>
      obtain ⟨hfront, hrest⟩ := List.forall_mem_append.1 (heq ▸ hss)
      rw [(hrest s List.mem_cons_self).detect, hscan.probes hfront, List.append_assoc]
  | unmatched hscan => rw [World.probes_informed, World.probes_informed, hscan.probes hss]

/-- The first match wins: the strategies are asked in order, each once, up to the first that recognizes the cluster or
breaks off, and at most this one is loaded. If the strategies write their uses down, then this is what is written. -/
theorem detect_first_match (c : Connection) (ss : List (Strategy τ)) (w : World τ) :
    ∃ calls, Detects c ss w calls (detect c ss w) ∧
      ((∀ s ∈ ss, s.Recorded) → (detect c ss w).2.probes = w.probes ++ calls) := by
  have hdetects : ∃ calls, Detects c ss w calls (detect c ss w) := by
    -- Either all strategies miss the cluster, or there is a first one that does not.
    obtain ⟨v, hscan⟩ | ⟨front, s, back, v, rfl, hscan, hs⟩ := scan_or_stop c ss w
    · have hrun := detect_of_scan hscan []
      rw [List.append_nil, detect_nil] at hrun
      rw [hrun]
      exact ⟨_, .unmatched hscan⟩
    · rw [detect_of_scan hscan]
      obtain hmiss | hmatch | ⟨e, hbreak, he⟩ := s.misses_or_stops c v
      · exact absurd hmiss hs
      · rw [detect_of_match hmatch]
        exact ⟨_, .matched rfl hscan hmatch⟩
      · rw [detect_of_break hbreak he]
        exact ⟨_, .broken rfl hscan hbreak he⟩
  obtain ⟨calls, h⟩ := hdetects
  exact ⟨calls, h, h.probes⟩

end

/-- A cluster with one node that nobody recognizes, and with the namespace that only one provider has. -/
def provided : World Rat :=
  (World.initial [(Kind.node.endpoint .list .null, [⟨.ok (.obj [("items", .list [.obj [("metadata", .obj [])]])]), 1⟩]),
      (Kind.namespaceKind.endpoint .read .null, [⟨.ok (.obj []), 1⟩])] []).connected

/-- Two of the known strategies miss the cluster, the third one recognizes it, and the last one is not used. -/
theorem detect_first_match_of_provided :
    let ss : List (Strategy Rat) := Strategy.known.map Strategy.traced
    let run := detect Cluster.watchful.connection ss provided
    run.1 = .ok ⟨"ibm", "IBM Cloud Kubernetes Service", []⟩ ∧
      run.2.probes = [(.detect, "kind"), (.detect, "k3s"), (.detect, "ibm"), (.load, "ibm")] ∧
      ∃ calls, Detects Cluster.watchful.connection ss provided calls run ∧ run.2.probes = calls := by
  intro ss run
  have hss : ∀ s ∈ ss, s.Recorded := by
    intro s hs
    obtain ⟨t, ht, rfl⟩ := List.mem_map.1 hs
    exact (Strategy.silent_known t ht).recorded_traced
  obtain ⟨calls, hdetects, hprobes⟩ := detect_first_match Cluster.watchful.connection ss provided
  exact ⟨rfl, by decide +kernel, calls, hdetects, hprobes hss⟩

end Platform

end ClusterControl
