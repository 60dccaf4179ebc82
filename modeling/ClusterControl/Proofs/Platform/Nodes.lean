import ClusterControl.Platform.Nodes
import ClusterControl.Proofs.Wait.Conditions

/-!
# What nodes tell

The views of a node that detection rests on: its labels, its provider, its addresses. Where labels, provider and
addresses are of the expected sort or absent, every look at a node succeeds and agrees with these views.
-/

namespace ClusterControl

namespace Node

theorem insertNew_str (seen : List String) (s : String) :
    insertNew (seen.map .str) (.str s) = (if s ∈ seen then seen else seen ++ [s]).map .str := by
  have hany : ((seen.map Value.str).any fun w => w.same (.str s)) = decide (s ∈ seen) := by
    simp [List.any_map, Function.comp_def, List.any_beq']
  rw [insertNew, hany]
  by_cases hs : s ∈ seen <;> simp [hs]

theorem foldl_insertNew_str (seen xs : List String) :
    (xs.map .str).foldl insertNew (seen.map .str) = (seen ++ (xs.removeAll seen).eraseDups).map .str := by
  induction xs generalizing seen with
  | nil => simp [List.removeAll]
  | cons x xs ih =>
      rw [List.map_cons, List.foldl_cons, insertNew_str, ih]
      by_cases hx : x ∈ seen
      · simp [hx, List.removeAll]
      · have hrest : xs.removeAll (seen ++ [x]) = (xs.removeAll seen).filter fun y => !y == x := by
          simp [List.removeAll, List.filter_filter, Bool.and_comm, Bool.beq_eq_decide_eq]
        have hcons : (x :: xs).removeAll seen = x :: xs.removeAll seen := by simp [List.removeAll, hx]
        rw [if_neg hx, hrest, hcons, List.eraseDups_cons, List.append_assoc, List.singleton_append]

/-- Each text stays where it stands first. -/
theorem distinct_str (xs : List String) : distinct (xs.map .str) = xs.eraseDups.map .str := by
  have hall : xs.removeAll [] = xs := by simp [List.removeAll]
  have h := foldl_insertNew_str [] xs
  rwa [List.map_nil, hall] at h

/-! ## Views of a node -/

def labelsOf (node : Value) : List (String × Value) :=
  match (node.field? "metadata").field? "labels" with
  | .obj fields => fields
  | _ => []

def providerId? (node : Value) : Option String :=
  match (node.field? "spec").field? "provider_id" with
  | .str s => some s
  | _ => none

/-- The type of an address and the address. -/
def pairOf (entry : Value) : Option (String × String) :=
  match entry.field? "type", entry.field? "address" with
  | .str type, .str address => some (type, address)
  | _, _ => none

def addressPairs (node : Value) : List (String × String) :=
  match (node.field? "status").field? "addresses" with
  | .list entries => entries.filterMap pairOf
  | _ => []

/-- The addresses that are of the type. -/
def ofType (type : String) (pairs : List (String × String)) : List String :=
  (pairs.filter fun pair => pair.1 == type).map Prod.snd

/-- The addresses of one type, as they follow each other. -/
def addressesOfType (nodes : List Value) (type : String) : List String :=
  nodes.flatMap fun node => ofType type (addressPairs node)

theorem mem_ofType {type address : String} {pairs : List (String × String)} :
    address ∈ ofType type pairs ↔ (type, address) ∈ pairs := by
  simp [ofType]

theorem mem_addressesOfType {nodes : List Value} {type address : String} :
    address ∈ addressesOfType nodes type ↔ ∃ node ∈ nodes, (type, address) ∈ addressPairs node := by
  simp only [addressesOfType, List.mem_flatMap, mem_ofType]

theorem field_of_field?_str {v : Value} {name s : String} (h : v.field? name = .str s) :
    v.field name = .ok (.str s) := by
  cases v with
  | obj fields => exact congrArg Except.ok h
  | _ => cases h

/-- The address, if it is of the type. -/
def addressIf (type : String) (entry : Value) : Except Malformed (List Value) := do
  if (← entry.field "type").same type then pure [← entry.field "address"] else pure []

theorem addressIf_eq {entry : Value}
    (h : ∃ type address, entry.field? "type" = .str type ∧ entry.field? "address" = .str address) (type : String) :
    addressIf type entry = .ok ((ofType type (pairOf entry).toList).map .str) := by
  obtain ⟨t, a, htype, haddress⟩ := h
  rw [addressIf, field_of_field?_str htype, field_of_field?_str haddress, pairOf, htype, haddress]
  simp only [bind, Except.bind, pure, Except.pure, Value.same_str, Option.toList, ofType]
  cases ht : t == type <;> simp [ht]

theorem ofType_filterMap (type : String) (entries : List Value) :
    ofType type (entries.filterMap pairOf) = entries.flatMap fun entry => ofType type (pairOf entry).toList := by
  induction entries with
  | nil => rfl
  | cons entry entries ih =>
      rw [List.filterMap_cons, List.flatMap_cons, ← ih]
      cases pairOf entry with
      | none => rfl
      | some pair => cases ht : pair.1 == type <;> simp [ofType, ht]

/-- The machine of the node comes from the provider. -/
def ProvidedBy (node : Value) (provider : String) : Prop :=
  ∃ rest, providerId? node = some (provider ++ "://" ++ rest)

def HasLabel (node : Value) (name : String) : Prop := name ∈ (labelsOf node).map Prod.fst

def LabelIs (node : Value) (name value : String) : Prop := (labelsOf node).lookup name = some (.str value)

theorem label_same_iff {node : Value} {name value : String} :
    (((labelsOf node).lookup name).getD .null).same (.str value) = true ↔ LabelIs node name value := by
  rw [Value.same_str_iff, LabelIs]
  cases (labelsOf node).lookup name <;> simp

theorem providerId_any_iff {node : Value} {provider : String} :
    ((providerId? node).any fun s => (provider ++ "://").toList.isPrefixOf s.toList) = true ↔
      ProvidedBy node provider := by
  unfold ProvidedBy
  cases providerId? node with
  | none => simp
  | some s => simp only [Option.any_some, Option.some.injEq, isPrefixOf_iff_append]

instance (node : Value) (provider : String) : Decidable (ProvidedBy node provider) :=
  decidable_of_iff _ providerId_any_iff

instance (node : Value) (name value : String) : Decidable (LabelIs node name value) :=
  decidable_of_iff _ label_same_iff

instance (node : Value) (name : String) : Decidable (HasLabel node name) :=
  inferInstanceAs (Decidable (name ∈ (labelsOf node).map Prod.fst))

/-- Labels, provider and addresses are absent or of their sort. -/
structure Shaped (node : Value) : Prop where
  object : ∃ fields, node = .obj fields
  labels : (node.field? "metadata").field? "labels" = .null ∨
    ∃ fields, (node.field? "metadata").field? "labels" = .obj fields
  provider : (node.field? "spec").field? "provider_id" = .null ∨
    ∃ s, (node.field? "spec").field? "provider_id" = .str s
  addresses : (node.field? "status").field? "addresses" = .null ∨
    ∃ entries, (node.field? "status").field? "addresses" = .list entries ∧
      ∀ entry ∈ entries, ∃ type address, entry.field? "type" = .str type ∧ entry.field? "address" = .str address

namespace Shaped

variable {node : Value}

theorem labels_eq (h : Shaped node) : Node.labels node = .ok (.obj (labelsOf node)) := by
  obtain ⟨fields, rfl⟩ := h.object
  have hmetadata : (Value.obj fields).field "metadata" = .ok ((Value.obj fields).field? "metadata") := rfl
  rw [Node.labels, hmetadata, labelsOf]
  obtain hlabels | ⟨labels, hlabels⟩ := h.labels
  · rw [hlabels]
    simp only [bind, Except.bind, hlabels]
    rfl
  · rw [hlabels]
    simp only [bind, Except.bind, hlabels]
    cases labels <;> rfl

theorem label_eq (h : Shaped node) (name : String) :
    label node name = .ok (((labelsOf node).lookup name).getD .null) := by
  rw [label, h.labels_eq]
  rfl

theorem hasLabel_eq (h : Shaped node) (name : String) : hasLabel node name = .ok (decide (HasLabel node name)) := by
  rw [hasLabel, h.labels_eq]
  refine congrArg Except.ok (Bool.eq_iff_iff.2 ?_)
  rw [decide_eq_true_iff, HasLabel]
  simp

theorem providedBy_eq (h : Shaped node) (provider : String) :
    providedBy node provider = .ok (decide (ProvidedBy node provider)) := by
  have hany : providedBy node provider =
      .ok ((providerId? node).any fun s => (provider ++ "://").toList.isPrefixOf s.toList) := by
    unfold providedBy providerId?
    obtain hid | ⟨s, hid⟩ := h.provider
    · rw [hid]
      rfl
    · rw [hid]
      rfl
  rw [hany]
  exact congrArg Except.ok (Bool.eq_iff_iff.2 (providerId_any_iff.trans decide_eq_true_iff.symm))

theorem addressesOf_eq (h : Shaped node) (type : String) :
    addressesOf type node = .ok ((ofType type (addressPairs node)).map .str) := by
  unfold addressesOf addressPairs
  obtain hentries | ⟨entries, hentries, hpairs⟩ := h.addresses
  · rw [hentries]
    rfl
  · rw [hentries, itemsOrNone_list]
    show (entries.mapM (addressIf type)).bind (fun found => .ok found.flatten) = _
    rw [mapM_eq_ok_map fun entry he => addressIf_eq (hpairs entry he) type, ofType_filterMap, List.map_flatMap]
    rfl

end Shaped

/-- The addresses of one type, each where it stands first. -/
theorem addresses_eq {nodes : List Value} (h : ∀ node ∈ nodes, Shaped node) (type : String) :
    addresses nodes type = .ok ((addressesOfType nodes type).eraseDups.map .str) := by
  rw [addresses, mapM_eq_ok_map fun node hn => (h node hn).addressesOf_eq type, ← distinct_str, addressesOfType,
    List.map_flatMap]
  rfl

end Node

end ClusterControl
