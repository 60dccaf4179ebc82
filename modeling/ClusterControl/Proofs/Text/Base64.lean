import ClusterControl.Text.Base64
import Mathlib.Data.List.Basic

/-!
# Reading base64 undoes writing it

Three bytes are written as four characters of six bits each, and one or two bytes at the end as two or three
characters, which are padded to four. Characters that neither stand for bits nor pad may be inserted anywhere, line
breaks among them, and the bytes are still read back.
-/

namespace ClusterControl.Text.Base64

/-! ## Writing -/

def alphabet : List Char := "ABCDEFGHIJKLMNOPQRSTUVWXYZabcdefghijklmnopqrstuvwxyz0123456789+/".toList

def pad : Char := '='

def symbol (n : Nat) : Char := alphabet.getD n pad

/-- The bits of the bytes in groups of six. What is missing in the last group is zero. -/
def sextets : List UInt8 → List Nat
  | a :: b :: c :: rest =>
    a.toNat / 4 :: (a.toNat % 4 * 16 + b.toNat / 16) :: (b.toNat % 16 * 4 + c.toNat / 64) :: c.toNat % 64 ::
      sextets rest
  | [a, b] => [a.toNat / 4, a.toNat % 4 * 16 + b.toNat / 16, b.toNat % 16 * 4]
  | [a] => [a.toNat / 4, a.toNat % 4 * 16]
  | [] => []

/-- The bytes as characters, whose number is filled up to a multiple of four. -/
def encode (bytes : List UInt8) : List Char :=
  (sextets bytes).map symbol ++ List.replicate ((3 - bytes.length % 3) % 3) pad

/-- An ASCII character that is not used for writing. -/
def isForeign (c : Char) : Bool := c.toNat < 128 && !alphabet.contains c && c != pad

/-- The text is what is written for the bytes, with foreign characters inserted anywhere. -/
def Spells (text : String) (bytes : List UInt8) : Prop := text.toList.filter (!isForeign ·) = encode bytes

/-! ## Characters -/

theorem symbol_spec : ∀ n < 64, sextet? (symbol n) = some n ∧ symbol n ≠ pad ∧ isForeign (symbol n) = false ∧
    (symbol n).toNat < 128 := by
  decide +kernel

theorem sextet?_foreign {c : Char} (h : isForeign c = true) : sextet? c = none := by
  have hall : ∀ n < 128, isForeign (Char.ofNat n) = true → sextet? (Char.ofNat n) = none := by decide +kernel
  simp only [isForeign, Bool.and_eq_true, decide_eq_true_eq] at h
  have hc := hall c.toNat h.1.1
  rw [Char.ofNat_toNat] at hc
  exact hc (by simp only [isForeign, h, decide_true, Bool.and_self])

/-! ## Groups of six bits -/

theorem sextets_lt (bs : List UInt8) : ∀ n ∈ sextets bs, n < 64 := by
  fun_induction sextets bs with
  | case1 a b c rest ih =>
      have ha := a.toNat_lt
      have hb := b.toNat_lt
      have hc := c.toNat_lt
      simp only [List.mem_cons, forall_eq_or_imp]
      exact ⟨by omega, by omega, by omega, by omega, ih⟩
  | case2 a b =>
      have ha := a.toNat_lt
      have hb := b.toNat_lt
      simp only [List.mem_cons, List.not_mem_nil, or_false, forall_eq_or_imp, forall_eq]
      omega
  | case3 a =>
      have ha := a.toNat_lt
      simp only [List.mem_cons, List.not_mem_nil, or_false, forall_eq_or_imp, forall_eq]
      omega
  | case4 => exact List.forall_mem_nil _

theorem length_sextets (bs : List UInt8) : (sextets bs).length = (4 * bs.length + 2) / 3 := by
  fun_induction sextets bs with
  | case1 a b c rest ih =>
      simp only [List.length_cons, ih]
      omega
  | case2 a b => simp only [List.length_cons, List.length_nil]
  | case3 a => simp only [List.length_cons, List.length_nil]
  | case4 => rfl

theorem bytes_sextets (bs : List UInt8) : bytes (sextets bs) = bs := by
  have byte {n : Nat} {b : UInt8} (h : n = b.toNat) : UInt8.ofNat n = b := by rw [h, UInt8.ofNat_toNat]
  fun_induction sextets bs with
  | case1 a b c rest ih =>
      have hb := b.toNat_lt
      have hc := c.toNat_lt
      rw [bytes, ih]
      refine congrArg₂ _ (byte ?_) (congrArg₂ _ (byte ?_) (congrArg₂ _ (byte ?_) rfl))
      all_goals omega
  | case2 a b =>
      have hb := b.toNat_lt
      rw [bytes]
      refine congrArg₂ _ (byte ?_) (congrArg₂ _ (byte ?_) rfl)
      all_goals omega
  | case3 a =>
      rw [bytes]
      refine congrArg₂ _ (byte ?_) rfl
      omega
  | case4 => rfl

/-! ## Reading -/

theorem scan_foreign {c : Char} (h : isForeign c = true) (cs : List Char) (seen : List Nat) (count pads : Nat) :
    scan (c :: cs) seen count pads = scan cs seen count pads := by
  have hpad : (c == '=') = false := by
    simp only [isForeign, Bool.and_eq_true, bne_iff_ne] at h
    exact beq_eq_false_iff_ne.2 h.2
  rw [scan, hpad, sextet?_foreign h]
  rfl

theorem scan_filter (cs : List Char) (seen : List Nat) (count pads : Nat) :
    scan (cs.filter (!isForeign ·)) seen count pads = scan cs seen count pads := by
  induction cs generalizing seen count pads with
  | nil => rfl
  | cons c cs ih =>
      cases hc : isForeign c with
      | true => rw [List.filter_cons_of_neg (by simp [hc]), scan_foreign hc, ih]
      | false =>
          rw [List.filter_cons_of_pos (by simp [hc])]
          simp only [scan, ih]

theorem scan_symbols {ns : List Nat} (h : ∀ n ∈ ns, n < 64) (cs : List Char) (seen : List Nat) (count : Nat) :
    scan (ns.map symbol ++ cs) seen count 0 = scan cs (ns.reverse ++ seen) (count + ns.length) 0 := by
  induction ns generalizing seen count with
  | nil => rfl
  | cons n ns ih =>
      obtain ⟨hn, hns⟩ := List.forall_mem_cons.1 h
      obtain ⟨hvalue, hpad, _⟩ := symbol_spec n hn
      have hpad : (symbol n == '=') = false := beq_eq_false_iff_ne.2 hpad
      rw [List.map_cons, List.cons_append, scan, hpad, hvalue]
      simp only [Bool.false_eq_true, if_false]
      rw [ih hns, List.reverse_cons, List.append_assoc, List.singleton_append, List.length_cons, Nat.add_right_comm,
        Nat.add_assoc]

theorem scan_pads (seen : List Nat) {count : Nat} (h : count % 4 ≠ 1) :
    scan (List.replicate ((4 - count % 4) % 4) pad) seen count 0 = .ok seen.reverse := by
  have hcases : count % 4 = 0 ∨ count % 4 = 2 ∨ count % 4 = 3 := by omega
  rcases hcases with hc | hc | hc
  · simp [hc, scan]
  · simp [hc, scan, pad, List.replicate]
  · simp [hc, scan, pad]

theorem scan_encode (bs : List UInt8) : scan (encode bs) [] 0 0 = .ok (sextets bs) := by
  have hlength := length_sextets bs
  have hshort : (sextets bs).length % 4 ≠ 1 := by omega
  have hpads : (3 - bs.length % 3) % 3 = (4 - (sextets bs).length % 4) % 4 := by
    have hcases : bs.length % 3 = 0 ∨ bs.length % 3 = 1 ∨ bs.length % 3 = 2 := by omega
    rcases hcases with hb | hb | hb <;> omega
  rw [encode, scan_symbols (sextets_lt bs), hpads, Nat.zero_add, scan_pads _ hshort, List.append_nil,
    List.reverse_reverse]

/-! ## Spelling -/

theorem isForeign_encode {bs : List UInt8} {c : Char} (h : c ∈ encode bs) : isForeign c = false ∧ c.toNat < 128 := by
  rcases List.mem_append.1 h with hsymbol | hpad
  · obtain ⟨n, hn, rfl⟩ := List.mem_map.1 hsymbol
    exact (symbol_spec n (sextets_lt bs n hn)).2.2
  · rw [List.eq_of_mem_replicate hpad]
    decide

theorem Spells.of_lineBreaks {text : String} {bs : List UInt8}
    (h : text.toList.filter (fun c => c != '\n' && c != '\r') = encode bs) : Spells text bs := by
  have hencode : (encode bs).filter (!isForeign ·) = encode bs :=
    List.filter_eq_self.2 fun c hc => by rw [(isForeign_encode hc).1]; rfl
  rw [← h, List.filter_filter, h] at hencode
  rw [Spells, ← hencode]
  refine List.filter_congr fun c _ => ?_
  by_cases hbreak : c = '\n' ∨ c = '\r'
  · rcases hbreak with rfl | rfl <;> decide
  · rw [not_or] at hbreak
    rw [bne_iff_ne.2 hbreak.1, bne_iff_ne.2 hbreak.2, Bool.and_self, Bool.and_true]

theorem Spells.ascii {text : String} {bs : List UInt8} (h : Spells text bs) : ∀ c ∈ text.toList, c.toNat < 128 := by
  intro c hc
  cases hforeign : isForeign c with
  | true =>
      simp only [isForeign, Bool.and_eq_true, decide_eq_true_eq] at hforeign
      exact hforeign.1.1
  | false =>
      have hmem : c ∈ encode bs := h ▸ List.mem_filter.2 ⟨hc, by rw [hforeign]; rfl⟩
      exact (isForeign_encode hmem).2

theorem decode_of_spells {text : String} {bs : List UInt8} (h : Spells text bs) : decode text = .ok bs := by
  have hascii : text.toList.all (·.toNat < 128) = true := List.all_eq_true.2 fun c hc => decide_eq_true (h.ascii c hc)
  rw [decode, if_pos hascii, ← scan_filter, h, scan_encode]
  exact congrArg Except.ok (bytes_sextets bs)

theorem Spells.ne_empty {text : String} {bs : List UInt8} (h : Spells text bs) (hb : bs ≠ []) : text ≠ "" := by
  rintro rfl
  have hdecoded := decode_of_spells h
  exact hb (Except.ok.inj hdecoded).symm

end ClusterControl.Text.Base64
