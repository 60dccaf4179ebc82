import ClusterControl.Proofs.Connection.Construction
import ClusterControl.Proofs.Text.Base64
import ClusterControl.Time.Rational
import Mathlib.Data.List.Basic

/-!
# Credentials reach the loader unchanged

Outside the cluster, credentials given as text go before a path. The bytes that the text spells are written to a file,
and the loader is asked once, for this file and the context. The name of the file tells the bytes.
-/

namespace ClusterControl

open Op

/-! ## Names of files -/

namespace Text

theorem hexDigit_injective : ∀ m < 16, ∀ n < 16, hexDigit m = hexDigit n → m = n := by decide +kernel

theorem hexDigits_two (n : Nat) : hexDigits 2 n = [hexDigit (n / 16 % 16), hexDigit (n % 16)] := rfl

theorem hexDigits_byte_injective {b b' : UInt8} (h : hexDigits 2 b.toNat = hexDigits 2 b'.toNat) : b = b' := by
  rw [hexDigits_two, hexDigits_two] at h
  obtain ⟨hhigh, hlow⟩ := List.cons.inj h
  have hb := b.toNat_lt
  have hb' := b'.toNat_lt
  have high := hexDigit_injective _ (Nat.mod_lt _ (by decide)) _ (Nat.mod_lt _ (by decide)) hhigh
  have low := hexDigit_injective _ (Nat.mod_lt _ (by decide)) _ (Nat.mod_lt _ (by decide)) (List.cons.inj hlow).1
  exact UInt8.toNat_inj.1 (by omega)

theorem hex_injective : Function.Injective hex := by
  intro bs bs' h
  have hdigits : bs.flatMap (hexDigits 2 ·.toNat) = bs'.flatMap (hexDigits 2 ·.toNat) := String.ofList_injective h
  induction bs generalizing bs' with
  | nil =>
      cases bs' with
      | nil => rfl
      | cons b' bs' => cases hdigits
  | cons b bs ih =>
      cases bs' with
      | nil => cases hdigits
      | cons b' bs' =>
          obtain ⟨hb, hbs⟩ := List.append_inj hdigits rfl
          rw [hexDigits_byte_injective hb, ih (congrArg String.ofList hbs) hbs]

end Text

theorem temporaryPath_injective : Function.Injective temporaryPath :=
  fun _ _ h => Text.hex_injective (String.append_right_inj _ |>.1 h)

variable {τ : Type} [Time τ]

namespace Connection

/-! ## Loading -/

theorem exchanges_connect (config : Config) (w : World τ) :
    (connect config w).2.exchanges = (load w.nextId config w.begun).2.exchanges := by
  rw [connect_eq]
  rcases load w.nextId config w.begun with ⟨e | loaded, v⟩
  · cases he : e.isInterrupt with
    | true => simp only [he, if_true]
    | false =>
        simp only [he, Bool.false_eq_true, if_false]
        exact (resting_withoutFile _ v).exchanges
  · refine ((World.exchanges_record _ _).trans (List.append_nil _)).trans ?_
    exact addApis_keeps World.exchanges (fun _ _ _ => rfl) _ groups v

/-- What the loader is asked for when the credentials are bytes in a file. -/
def loading (bytes : List UInt8) (context : Option String) : Request :=
  ⟨⟨.loader, "load_kube_config"⟩, [("config_file", temporaryPath bytes), ("context", .ofOption context)]⟩

theorem load_of_spells {config : Config} {text : String} {bytes : List UInt8} (hout : config.inCluster = false)
    (htext : config.kubeconfigData = some text) (hspells : Text.Base64.Spells text bytes) (hbytes : bytes ≠ [])
    (id : Nat) (w : World τ) :
    load id config w = ((w.keepFile id bytes).learnPath id).exchange (loading bytes config.context) := by
  have hdecode := Text.Base64.decode_of_spells hspells
  have hne := hspells.ne_empty hbytes
  unfold load
  rw [hout, htext]
  simp only [Bool.false_eq_true, if_false, bind_run, credentials, hdecode]
  rfl

/-- Credentials that spell bytes lead to one request, made when a file with exactly these bytes exists, wherever the
path of another file may point. No other bytes are in a file of this name. -/
theorem loads_spelled_bytes {config : Config} {text : String} {bytes : List UInt8} (hout : config.inCluster = false)
    (htext : config.kubeconfigData = some text) (hspells : Text.Base64.Spells text bytes) (hbytes : bytes ≠ [])
    (w : World τ) :
    ∃ v : World τ, v.files = (w.nextId, bytes) :: w.files ∧
      load w.nextId config w.begun = v.exchange (loading bytes config.context) ∧
      (connect config w).2.exchanges =
        w.exchanges ++ [⟨loading bytes config.context, w.now, (v.exchange (loading bytes config.context)).1⟩] ∧
      ∀ other, temporaryPath other = temporaryPath bytes → other = bytes := by
  have hload := load_of_spells hout htext hspells hbytes w.nextId w.begun
  refine ⟨_, rfl, hload, ?_, fun other hother => temporaryPath_injective hother⟩
  rw [exchanges_connect, hload]
  exact World.exchanges_exchange _ _

/-- Four bytes, spelled with a break between the two pads. -/
def broken : Config :=
  { kubeconfigPath := some "other.yaml", kubeconfigData := some "AP8Q\r\ngw=\n=", context := some "dev" }

theorem loads_spelled_bytes_of_broken :
    ∃ v : World Rat, v.files = [(0, [0, 255, 16, 131])] ∧
      (connect broken (World.initial [] [] : World Rat)).2.exchanges =
        [⟨loading [0, 255, 16, 131] (some "dev"), 0, (v.exchange (loading [0, 255, 16, 131] (some "dev"))).1⟩] := by
  have hout : broken.inCluster = false := rfl
  have htext : broken.kubeconfigData = some "AP8Q\r\ngw=\n=" := rfl
  have hspells : Text.Base64.Spells "AP8Q\r\ngw=\n=" [0, 255, 16, 131] := .of_lineBreaks (by decide +kernel)
  obtain ⟨v, hfiles, _, hexchanges, _⟩ := loads_spelled_bytes hout htext hspells (List.cons_ne_nil _ _)
    (World.initial [] [] : World Rat)
  exact ⟨v, hfiles, hexchanges⟩

end Connection

end ClusterControl
