import ClusterControl.Proofs.Platform.Nodes

/-!
# Addresses in the order of the nodes

The addresses of one type can be collected in one pass over the nodes and their entries. What such a pass has found so
far is its result and also tells which addresses are new, so it carries one invariant: every address that was read has
been found, each where it was first read. The invariant leaves only one result.
-/

namespace ClusterControl

variable {α β : Type}

/-! ## What is seen first -/

/-- The items that were read, in the order in which they were first read. -/
structure FirstSeen [BEq α] (found read : List α) : Prop where
  mem_iff : ∀ a, a ∈ found ↔ a ∈ read
  ordered : found.Pairwise fun a b => read.idxOf a < read.idxOf b

namespace FirstSeen

section

variable [BEq α] {found found' read : List α}

theorem nil : FirstSeen ([] : List α) [] := ⟨by simp, List.Pairwise.nil⟩

theorem singleton (a : α) : FirstSeen [a] [a] := ⟨by simp, by simp⟩

theorem nodup (h : FirstSeen found read) : found.Nodup := by
  apply h.ordered.imp
  rintro a b hlt rfl
  exact Nat.lt_irrefl _ hlt

theorem unique (h : FirstSeen found read) (h' : FirstSeen found' read) : found = found' := by
  have hperm : found.Perm found' := by
    rw [List.perm_ext_iff_of_nodup h.nodup h'.nodup]
    intro a
    rw [h.mem_iff, h'.mem_iff]
  apply hperm.eq_of_pairwise _ h.ordered h'.ordered
  intro a b _ _ hlt hgt
  exact absurd hlt (Nat.lt_asymm hgt)

end

variable [DecidableEq α] {found found' read read' : List α}

/-- Of what is read later only the new items count, and these stand behind all that were found before. -/
theorem append (h : FirstSeen found read) (h' : FirstSeen found' read') :
    FirstSeen (found ++ found'.filter fun a => a ∉ found) (read ++ read') where
  mem_iff a := by
    simp only [List.mem_append, List.mem_filter, decide_eq_true_eq, h.mem_iff, h'.mem_iff]
    tauto
  ordered := by
    have hold : ∀ a ∈ found, (read ++ read').idxOf a = read.idxOf a := fun a ha =>
      List.idxOf_append_of_mem ((h.mem_iff a).1 ha)
    have hnew : ∀ b ∈ found'.filter (fun a => a ∉ found), (read ++ read').idxOf b = read.length + read'.idxOf b := by
      intro b hb
      have hread : b ∉ read := by simpa [h.mem_iff] using (List.mem_filter.1 hb).2
      exact List.idxOf_append_of_notMem hread
    -- An item that is first read later is behind everything that was read before, whether it was found there or not.
    rw [List.pairwise_append]
    refine ⟨?_, ?_, ?_⟩
    · apply h.ordered.imp_of_mem
      intro a b ha hb hlt
      rwa [hold a ha, hold b hb]
    · apply (h'.ordered.sublist List.filter_sublist).imp_of_mem
      intro a b ha hb hlt
      rw [hnew a ha, hnew b hb]
      omega
    · intro a ha b hb
      have hlt : read.idxOf a < read.length := List.idxOf_lt_length_iff.2 ((h.mem_iff a).1 ha)
      rw [hold a ha, hnew b hb]
      omega

/-- One more item: it is added unless it was found before. -/
theorem snoc (h : FirstSeen found read) (a : α) :
    FirstSeen (if a ∈ found then found else found ++ [a]) (read ++ [a]) := by
  have happend := h.append (singleton a)
  by_cases ha : a ∈ found <;> simpa [ha] using happend

end FirstSeen

/-! ## One pass -/

namespace Node

/-- An address joins those that were found before if it is of the type and new. -/
def collectEntry (type : String) (found : List Value) (entry : Value) : Except Malformed (List Value) := do
  if (← entry.field "type").same type then pure (insertNew found (← entry.field "address")) else pure found

/-- The entries of one node, after all that was found at the nodes before it. -/
def collectFrom (type : String) (found : List Value) (node : Value) : Except Malformed (List Value) := do
  (← ((node.field? "status").field? "addresses").itemsOrNone).foldlM (collectEntry type) found

theorem collectEntry_eq (type : String) (found : List Value) (entry : Value) :
    collectEntry type found entry = (addressIf type entry).map (List.foldl insertNew found) := by
  unfold collectEntry addressIf
  cases entry.field "type" with
  | error e => rfl
  | ok t =>
      simp only [bind, Except.bind]
      split
      · cases entry.field "address" <;> rfl
      · rfl

theorem collectFrom_eq (type : String) (found : List Value) (node : Value) :
    collectFrom type found node = (addressesOf type node).map (List.foldl insertNew found) := by
  unfold collectFrom addressesOf
  cases ((node.field? "status").field? "addresses").itemsOrNone with
  | error e => rfl
  | ok entries =>
      show entries.foldlM (collectEntry type) found =
        ((entries.mapM (addressIf type)).bind fun found => .ok found.flatten).map (List.foldl insertNew found)
      rw [foldlM_eq_map_mapM (collectEntry_eq type)]
      cases entries.mapM (addressIf type) <;> rfl

/-- One pass gives the same result, at malformed nodes too. -/
theorem addresses_eq_foldlM (nodes : List Value) (type : String) :
    addresses nodes type = nodes.foldlM (collectFrom type) [] := by
  rw [foldlM_eq_map_mapM (collectFrom_eq type), addresses]
  cases nodes.mapM (addressesOf type) <;> rfl

/-! ## What a pass keeps -/

/-- What `Shaped` asks of the addresses of a node, without a word on its labels and its provider. A node that has no
status has no addresses. -/
def Addressed (node : Value) : Prop :=
  (node.field? "status").field? "addresses" = .null ∨
    ∃ entries, (node.field? "status").field? "addresses" = .list entries ∧
      ∀ entry ∈ entries, ∃ type address, entry.field? "type" = .str type ∧ entry.field? "address" = .str address

/-- The step reads the texts of one thing, and after it they are among those that were first seen. -/
def Reads (step : List Value → β → Except Malformed (List Value)) (b : β) (texts : List String) : Prop :=
  ∀ found read : List String, FirstSeen found read →
    ∃ found', step (found.map .str) b = .ok (found'.map .str) ∧ FirstSeen found' (read ++ texts)

theorem reads_foldlM {step : List Value → β → Except Malformed (List Value)} {texts : β → List String} {bs : List β}
    (h : ∀ b ∈ bs, Reads step b (texts b)) : Reads (List.foldlM step) bs (bs.flatMap texts) := by
  induction bs with
  | nil =>
      intro found read hfound
      exact ⟨found, rfl, by simpa using hfound⟩
  | cons b bs ih =>
      -- The invariant speaks of everything read so far, so that the rest can start from what this step has found.
      intro found read hfound
      obtain ⟨mid, hstep, hmid⟩ := h b List.mem_cons_self found read hfound
      obtain ⟨found', hrest, hfound'⟩ := ih (fun b' hb => h b' (List.mem_cons_of_mem b hb)) mid _ hmid
      rw [List.flatMap_cons, ← List.append_assoc]
      refine ⟨found', ?_, hfound'⟩
      rw [List.foldlM_cons, hstep]
      exact hrest

theorem reads_entry {entry : Value}
    (h : ∃ type address, entry.field? "type" = .str type ∧ entry.field? "address" = .str address) (type : String) :
    Reads (collectEntry type) entry (ofType type (pairOf entry).toList) := by
  intro found read hfound
  rw [collectEntry_eq, addressIf_eq h type]
  obtain ⟨t, a, htype, haddress⟩ := h
  rw [pairOf, htype, haddress]
  by_cases ht : t = type
  · refine ⟨if a ∈ found then found else found ++ [a], ?_, ?_⟩
    · simp [ofType, ht, Except.map, insertNew_str]
    · simpa [ofType, ht] using hfound.snoc a
  · refine ⟨found, ?_, ?_⟩
    · simp [ofType, ht, Except.map]
    · simpa [ofType, ht] using hfound

theorem reads_node {node : Value} (h : Addressed node) (type : String) :
    Reads (collectFrom type) node (ofType type (addressPairs node)) := by
  intro found read hfound
  unfold collectFrom addressPairs
  obtain hnone | ⟨entries, hentries, hpairs⟩ := h
  · rw [hnone]
    exact ⟨found, rfl, by simpa [ofType] using hfound⟩
  · rw [hentries, itemsOrNone_list, ofType_filterMap]
    exact reads_foldlM (fun entry he => reads_entry (hpairs entry he) type) found read hfound

theorem exists_firstSeen {nodes : List Value} (h : ∀ node ∈ nodes, Addressed node) (type : String) :
    ∃ found : List String, addresses nodes type = .ok (found.map .str) ∧
      FirstSeen found (addressesOfType nodes type) := by
  rw [addresses_eq_foldlM]
  exact reads_foldlM (fun node hn => reads_node (h node hn) type) [] [] .nil

theorem addressesOfType_append (nodes later : List Value) (type : String) :
    addressesOfType (nodes ++ later) type = addressesOfType nodes type ++ addressesOfType later type :=
  List.flatMap_append

/-- The addresses of one type are found at the nodes without repetition, none is missed, and they stand in the order in
which they are first read. More nodes add the addresses that are new, in their own order, behind those. -/
theorem addresses_first_seen {nodes : List Value} (h : ∀ node ∈ nodes, Addressed node) (type : String) :
    ∃ found : List String, addresses nodes type = .ok (found.map .str) ∧ found.Nodup ∧
      (∀ address, address ∈ found ↔ ∃ node ∈ nodes, (type, address) ∈ addressPairs node) ∧
      (found.Pairwise fun a b =>
        (addressesOfType nodes type).idxOf a < (addressesOfType nodes type).idxOf b) ∧
      ∀ later : List Value, (∀ node ∈ later, Addressed node) →
        ∃ found' : List String, addresses later type = .ok (found'.map .str) ∧
          addresses (nodes ++ later) type = .ok ((found ++ found'.filter fun a => a ∉ found).map .str) := by
  obtain ⟨found, hrun, hfound⟩ := exists_firstSeen h type
  refine ⟨found, hrun, hfound.nodup, fun address => ?_, hfound.ordered, fun later hlater => ?_⟩
  · rw [hfound.mem_iff, mem_addressesOfType]
  · obtain ⟨found', hrun', hfound'⟩ := exists_firstSeen hlater type
    obtain ⟨all, hrunAll, hall⟩ := exists_firstSeen (List.forall_mem_append.2 ⟨h, hlater⟩) type
    rw [addressesOfType_append] at hall
    refine ⟨found', hrun', ?_⟩
    rw [hrunAll, hall.unique (hfound.append hfound')]

/-- A node that has not told its status, and one that is reached at two addresses of one type. -/
def rack : List Value :=
  [.obj [("status", .null)],
   .obj [("status", .obj [("addresses", .list [.obj [("type", "InternalIP"), ("address", "10.0.0.7")],
     .obj [("type", "ExternalIP"), ("address", "1.2.3.4")], .obj [("type", "InternalIP"), ("address", "10.0.0.5")],
     .obj [("type", "InternalIP"), ("address", "10.0.0.7")]])])]]

/-- A node without addresses, and one that shares an address with the rack. -/
def spares : List Value :=
  [.obj [("status", .obj [])],
   .obj [("status", .obj [("addresses", .list [.obj [("type", "InternalIP"), ("address", "10.0.0.9")],
     .obj [("type", "InternalIP"), ("address", "10.0.0.5")]])])]]

theorem addressed_rack : ∀ node ∈ rack, Addressed node := by
  simp [rack, Addressed, Value.field?, List.lookup_cons]

theorem addressed_spares : ∀ node ∈ spares, Addressed node := by
  simp [spares, Addressed, Value.field?, List.lookup_cons]

/-- The address that both have stays where the rack has it. -/
theorem addresses_first_seen_of_rack :
    (∀ node ∈ rack, Addressed node) ∧ (∀ node ∈ spares, Addressed node) ∧
      addresses (rack ++ spares) "InternalIP" = .ok (["10.0.0.7", "10.0.0.5", "10.0.0.9"].map .str) := by
  have hrack : addresses rack "InternalIP" = .ok (["10.0.0.7", "10.0.0.5"].map .str) := by rfl
  have hspares : addresses spares "InternalIP" = .ok (["10.0.0.9", "10.0.0.5"].map .str) := by rfl
  obtain ⟨found, hfound, _, _, _, hlater⟩ := addresses_first_seen addressed_rack "InternalIP"
  obtain ⟨found', hfound', happend⟩ := hlater spares addressed_spares
  have hstr : Function.Injective Value.str := fun _ _ h => Value.str.inj h
  obtain rfl := List.map_injective_iff.2 hstr (Except.ok.inj (hfound.symm.trans hrack))
  obtain rfl := List.map_injective_iff.2 hstr (Except.ok.inj (hfound'.symm.trans hspares))
  exact ⟨addressed_rack, addressed_spares, happend⟩

end Node

end ClusterControl
