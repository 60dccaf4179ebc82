import Mathlib.Data.List.Basic
import Mathlib.Data.List.Forall2

/-!
# Lists

Where a list in several parts can be split, and walks through a list of which each step can fail.
-/

namespace ClusterControl

variable {ε α β γ : Type}

/-! ## Parts of a list -/

/-- Where two parts in a row are split at an element, the element lies in the first part or in the second. -/
theorem append_eq_split {xs ys front back : List α} {y : α} (h : xs ++ ys = front ++ y :: back) :
    (∃ rest, xs = front ++ y :: rest) ∨ ∃ more, front = xs ++ more ∧ ys = more ++ y :: back := by
  rcases List.append_eq_append_iff.1 h with ⟨more, hfront, hys⟩ | ⟨rest, hxs, hys⟩
  · exact .inr ⟨more, hfront, hys⟩
  · cases rest with
    | nil =>
        rw [List.append_nil] at hxs
        exact .inr ⟨[], by rw [hxs, List.append_nil], hys.symm⟩
    | cons z rest =>
        obtain ⟨rfl, _⟩ := List.cons.inj hys
        exact .inl ⟨rest, hxs⟩

/-- Where a list is split at an element, the element is the last one or stands before it. -/
theorem concat_eq_split {xs front back : List α} {y z : α} (h : xs ++ [z] = front ++ y :: back) :
    (back = [] ∧ y = z) ∨ (back ≠ [] ∧ y ∈ xs) := by
  rcases List.eq_nil_or_concat' back with rfl | ⟨back, b, rfl⟩
  · obtain ⟨_, hy⟩ := List.append_inj' h rfl
    exact .inl ⟨rfl, (List.cons.inj hy).1.symm⟩
  · have h' : xs ++ [z] = (front ++ y :: back) ++ [b] := by rw [h, List.append_assoc]; rfl
    obtain ⟨rfl, _⟩ := List.append_inj' h' rfl
    exact .inr ⟨by simp, by simp⟩

theorem getElem_mem_dropLast {xs : List α} {i : Nat} (h : i + 1 < xs.length) : xs[i] ∈ xs.dropLast := by
  have hi : i < xs.dropLast.length := by
    rw [List.length_dropLast]
    omega
  rw [← List.getElem_dropLast hi]
  exact List.getElem_mem hi

-- On the length, as the copies of the first item are taken out of the rest.
theorem nodup_eraseDups [BEq α] [LawfulBEq α] : (as : List α) → as.eraseDups.Nodup
  | [] => by simp
  | a :: as => by
      rw [List.eraseDups_cons, List.nodup_cons, List.mem_eraseDups]
      exact ⟨by simp, nodup_eraseDups (as.filter fun b => !b == a)⟩
  termination_by as => as.length
  decreasing_by exact Nat.lt_succ_of_le (List.length_filter_le _ as)

theorem exists_forall₂ {R : α → β → Prop} {as : List α} (h : ∀ a ∈ as, ∃ b, R a b) :
    ∃ bs, List.Forall₂ R as bs := by
  induction as with
  | nil => exact ⟨[], .nil⟩
  | cons a as ih =>
      obtain ⟨b, hb⟩ := h a List.mem_cons_self
      obtain ⟨bs, hbs⟩ := ih fun a' ha => h a' (List.mem_cons_of_mem a ha)
      exact ⟨b :: bs, .cons hb hbs⟩

theorem isPrefixOf_iff_append {p s : String} : p.toList.isPrefixOf s.toList = true ↔ ∃ rest, s = p ++ rest := by
  rw [List.isPrefixOf_iff_prefix]
  constructor
  · rintro ⟨cs, hcs⟩
    exact ⟨String.ofList cs, by rw [← String.toList_inj]; simpa using hcs.symm⟩
  · rintro ⟨rest, rfl⟩
    exact ⟨rest.toList, by simp⟩

/-! ## Steps that can fail -/

theorem eq_ok_of_isOk {o : Except ε Unit} (h : o.isOk = true) : o = .ok () := by
  cases o with
  | ok _ => rfl
  | error e => cases h

theorem ok_of_mapError {f : ε → ε} {o : Except ε α} {a : α} (h : .ok a = o.mapError f) : o = .ok a := by
  cases o with
  | error e => cases h
  | ok b => exact congrArg Except.ok (Except.ok.inj h).symm

theorem ok_of_bind_eq_ok {o : Except ε α} {f : α → Except ε β} {b : β} (h : o.bind f = .ok b) :
    ∃ a, o = .ok a ∧ f a = .ok b := by
  cases o with
  | error e => cases h
  | ok a => exact ⟨a, rfl, h⟩

theorem mapM_eq_ok_map {f : α → Except ε β} {g : α → β} {as : List α} (h : ∀ a ∈ as, f a = .ok (g a)) :
    as.mapM f = .ok (as.map g) := by
  induction as with
  | nil => rfl
  | cons a as ih =>
      rw [List.mapM_cons, h a List.mem_cons_self, ih fun b hb => h b (List.mem_cons_of_mem a hb)]
      rfl

/-- If every step adds items to the result, all of them can as well be brought together first. -/
theorem foldlM_eq_map_mapM {f : β → α → Except ε β} {g : α → Except ε (List γ)} {add : β → γ → β}
    (h : ∀ b a, f b a = (g a).map (List.foldl add b)) (as : List α) (b : β) :
    as.foldlM f b = (as.mapM g).map fun found => found.flatten.foldl add b := by
  induction as generalizing b with
  | nil => rfl
  | cons a as ih =>
      rw [List.foldlM_cons, List.mapM_cons, h]
      cases g a with
      | error e => rfl
      | ok found =>
          show as.foldlM f (found.foldl add b) = _
          rw [ih]
          cases as.mapM g with
          | error e => rfl
          | ok rest => simp [Except.map, bind, Except.bind, pure, Except.pure]

variable {p q : α → Except ε Bool}

theorem anyM_eq_ok_any {q : α → Bool} {as : List α} (h : ∀ a ∈ as, p a = .ok (q a)) :
    as.anyM p = .ok (as.any q) := by
  induction as with
  | nil => rfl
  | cons a as ih =>
      rw [List.anyM_cons, h a List.mem_cons_self, ih fun b hb => h b (List.mem_cons_of_mem a hb), List.any_cons]
      cases q a <;> rfl

/-- A search that ends well has found what it looked for, or it is not there. -/
theorem anyM_eq_ok {P : α → Prop} (hp : ∀ {a b}, p a = .ok b → (b = true ↔ P a)) {as : List α} {b : Bool}
    (h : as.anyM p = .ok b) : b = true ↔ ∃ a ∈ as, P a := by
  induction as with
  | nil =>
      obtain rfl : false = b := Except.ok.inj h
      simp
  | cons a as ih =>
      rw [List.anyM_cons] at h
      cases ha : p a with
      | error m => rw [ha] at h; cases h
      | ok b' =>
          rw [ha] at h
          cases b' with
          | true =>
              obtain rfl : true = b := Except.ok.inj h
              simp [(hp ha).1 rfl]
          | false =>
              have hno : ¬ P a := fun hpa => by cases (hp ha).2 hpa
              rw [ih h]
              simp [hno]

theorem anyM_mono {as : List α}
    (h : ∀ a ∈ as, ∀ b, p a = .ok b → ∃ b', q a = .ok b' ∧ (b = true → b' = true)) {b : Bool}
    (hp : as.anyM p = .ok b) : ∃ b', as.anyM q = .ok b' ∧ (b = true → b' = true) := by
  induction as with
  | nil => exact ⟨b, hp, id⟩
  | cons a as ih =>
      rw [List.anyM_cons] at hp ⊢
      cases ha : p a with
      | error m => rw [ha] at hp; cases hp
      | ok found =>
          obtain ⟨found', ha', hmore⟩ := h a List.mem_cons_self found ha
          rw [ha] at hp
          rw [ha']
          cases found' with
          | true => exact ⟨true, rfl, fun _ => rfl⟩
          | false =>
              cases found with
              | true => cases hmore rfl
              | false => exact ih (fun b hb => h b (List.mem_cons_of_mem a hb)) hp

theorem anyM_congr {as : List α} (h : ∀ a ∈ as, p a = q a) : as.anyM p = as.anyM q := by
  induction as with
  | nil => rfl
  | cons a as ih =>
      rw [List.anyM_cons, List.anyM_cons, h a List.mem_cons_self, ih fun b hb => h b (List.mem_cons_of_mem a hb)]

end ClusterControl
