import Guestbook.Config
import Guestbook.Proofs.Text.Numeral

/-!
# Settings that are numbers

Two settings are numbers: how long a start waits, and what the cache may hold. Each is read from one
variable, which counts if it spells a number below `2 ^ 64`; whatever else it holds leaves the
default.

## Main definitions
- `ReadsNumber`: a setting is a number read from a variable

## Main statements
- `readsNumber_of_readWord`: what reads a word reads a number
- `readsNumber_ofVars`: the settings that are numbers
-/

namespace Guestbook

open Text.Decimal

/-- A setting is the number in the variable `name`, in the form that `ofNumber` gives it, or a
default. -/
structure ReadsNumber {α : Type} (name : String) (setting : (String → Option String) → α)
    (ofNumber : Nat → α) (default : α) : Prop where
  number : ∀ lookup s n, lookup name = some s → Spells s n → n < UInt64.size →
    setting lookup = ofNumber n
  otherwise : ∀ lookup, (∀ s n, lookup name = some s → Spells s n → UInt64.size ≤ n) →
    setting lookup = default
  /-- A number that is not the default comes from a text that spells it. -/
  only : ∀ lookup s n, lookup name = some s → setting lookup = ofNumber n → ofNumber n ≠ default →
    Spells s n ∧ n < UInt64.size
  /-- A number that was written is read back. -/
  written : ∀ lookup n, lookup name = some (natText n) → n < UInt64.size →
    setting lookup = ofNumber n
  /-- No other variable matters. -/
  alone : ∀ lookup lookup', lookup name = lookup' name → setting lookup = setting lookup'

/-- A setting that is made of the word in a variable is the number there. -/
theorem readsNumber_of_readWord {α : Type} {name : String}
    {setting : (String → Option String) → α} {ofNumber : Nat → α} {default : α}
    (hinj : Function.Injective ofNumber) (h : ∀ lookup, setting lookup
      = (((lookup name).bind readWord?).map fun w => ofNumber w.toNat).getD default) :
    ReadsNumber name setting ofNumber default := by
  have hnumber : ∀ lookup s n, lookup name = some s → Spells s n → n < UInt64.size →
      setting lookup = ofNumber n := by
    intro lookup s n hs hspells hlt
    have hread : readWord? s = some (UInt64.ofNat n) :=
      (readWord?_of_spells hspells).trans (if_pos hlt)
    rw [h, hs, Option.bind_some, hread, Option.map_some, Option.getD_some,
      UInt64.toNat_ofNat_of_lt' hlt]
  refine ⟨hnumber, ?_, ?_, ?_, ?_⟩
  · intro lookup hnone
    have hread : (lookup name).bind readWord? = none := by
      rw [Option.bind_eq_none_iff]
      exact fun s hs => readWord?_eq_none_iff.mpr fun n => hnone s n hs
    rw [h, hread, Option.map_none, Option.getD_none]
  · intro lookup s n hs hsetting hother
    rw [h, hs, Option.bind_some] at hsetting
    cases hread : readWord? s with
    | none =>
      rw [hread] at hsetting
      exact absurd hsetting.symm hother
    | some w =>
      rw [hread] at hsetting
      obtain rfl : w.toNat = n := hinj hsetting
      exact ⟨readWord?_eq_some_iff.mp hread, w.toNat_lt⟩
  · exact fun lookup n hs hlt => hnumber lookup _ n hs (spells_natText n) hlt
  · intro lookup lookup' hsame
    rw [h, h, hsame]

/-- The time that a start waits is a number of milliseconds, five seconds by default; what the cache
may hold is a number, eight mebibytes by default. -/
theorem readsNumber_ofVars :
    ReadsNumber "VISITBOARD_READY_TIMEOUT_MS"
        (fun lookup => (StoreConfig.ofVars lookup).readyTimeout) Duration.ofMillis (.ofSeconds 5) ∧
      ReadsNumber "VISITBOARD_CACHE_MAX_COST"
        (fun lookup => (CacheConfig.ofVars lookup).maxCost.toNat) id (8 * 1024 * 1024) := by
  have hmillis : Function.Injective Duration.ofMillis := by
    intro m n hmn
    have hnanos := congrArg Duration.nanos hmn
    simp only [Duration.ofMillis] at hnanos
    omega
  refine ⟨readsNumber_of_readWord hmillis fun lookup => ?_,
    readsNumber_of_readWord Function.injective_id fun lookup => ?_⟩
  · simp only [StoreConfig.ofVars]
    cases (lookup "VISITBOARD_READY_TIMEOUT_MS").bind readWord? <;> rfl
  · simp only [CacheConfig.ofVars]
    cases (lookup "VISITBOARD_CACHE_MAX_COST").bind readWord? <;> rfl

end Guestbook
