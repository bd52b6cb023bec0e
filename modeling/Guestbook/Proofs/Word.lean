import Guestbook.Word

/-!
# Word arithmetic in range

A checked operation whose exact result is a word answers that word, and the operations that stop at
the extremes answer the exact result held between them.

## Main statements
- `ofInt_of_mem`: a result in range
- `add_of_mem`, `sub_of_mem`, `mul_of_mem`, `div_of_mem`: the checked operations
- `toInt_clamp`, `toInt_saturatingDouble`: the operations that stop at the extremes
-/

namespace Guestbook.Word

/-! ## Bounds -/

theorem least_le (a : Int64) : least ≤ a.toInt := a.le_toInt

theorem le_greatest (a : Int64) : a.toInt ≤ greatest := Int.lt_add_one_iff.mp a.toInt_lt

theorem toInt_max (a b : Int64) : (max a b).toInt = max a.toInt b.toInt := by
  show (if a ≤ b then b else a).toInt = _
  rw [Int.max_def]
  simp only [Int64.le_iff_toInt_le]
  split <;> rfl

@[simp] theorem toInt_one : (1 : Int64).toInt = 1 := by decide

/-- The word after one that is not the greatest. -/
theorem toInt_add_one_of_lt {a b : Int64} (h : a < b) : (a + 1).toInt = a.toInt + 1 := by
  have hlt := Int64.lt_iff_toInt_lt.mp h
  have hlow := least_le a
  have hhigh := le_greatest b
  simp only [least, greatest] at hlow hhigh
  rw [Int64.toInt_add, toInt_one]
  exact Int.bmod_eq_of_le (by omega) (by omega)

/-- The word of a number that a word holds. -/
theorem toInt_ofNat_of_le {n : Nat} (h : (n : Int) ≤ greatest) : (Int64.ofNat n).toInt = n := by
  apply Int64.toInt_ofNat_of_lt
  simp only [greatest] at h
  omega

/-- The word of a number that is too great wraps around to a smaller one. -/
theorem toInt_ofNat_le (n : Nat) : (Int64.ofNat n).toInt ≤ n := by
  rw [Int64.toInt_ofNat', Int.bmod_def]
  have hle : n % Int64.size ≤ n := Nat.mod_le n Int64.size
  split <;> omega

theorem toNat_le_of_le_ofNat {a : Int64} {n : Nat} (h : a ≤ Int64.ofNat n) :
    a.toInt.toNat ≤ n := by
  have hle := Int64.le_iff_toInt_le.mp h
  have hword := toInt_ofNat_le n
  omega

/-! ## Checked operations -/

/-- A result that a word holds is answered. -/
theorem ofInt_of_mem (fault : Fault) {n : Int} (hlow : least ≤ n) (hhigh : n ≤ greatest) :
    ∃ w, ofInt fault n = .ok w ∧ w.toInt = n := by
  refine ⟨Int64.ofInt n, if_pos ⟨hlow, hhigh⟩, ?_⟩
  simp only [least, greatest] at hlow hhigh
  exact Int64.toInt_ofInt_of_le (by omega) (by omega)

theorem add_of_mem {a b : Int64} (hlow : least ≤ a.toInt + b.toInt)
    (hhigh : a.toInt + b.toInt ≤ greatest) : ∃ w, add a b = .ok w ∧ w.toInt = a.toInt + b.toInt :=
  ofInt_of_mem .addOverflow hlow hhigh

theorem sub_of_mem {a b : Int64} (hlow : least ≤ a.toInt - b.toInt)
    (hhigh : a.toInt - b.toInt ≤ greatest) : ∃ w, sub a b = .ok w ∧ w.toInt = a.toInt - b.toInt :=
  ofInt_of_mem .subOverflow hlow hhigh

theorem mul_of_mem {a b : Int64} (hlow : least ≤ a.toInt * b.toInt)
    (hhigh : a.toInt * b.toInt ≤ greatest) : ∃ w, mul a b = .ok w ∧ w.toInt = a.toInt * b.toInt :=
  ofInt_of_mem .mulOverflow hlow hhigh

/-- A quotient of a word that is not negative by a positive one is a word. -/
theorem div_of_mem {a b : Int64} (ha : 0 ≤ a.toInt) (hb : 0 < b.toInt) :
    ∃ w, div a b = .ok w ∧ w.toInt = a.toInt / b.toInt := by
  have hle : a.toInt / b.toInt ≤ a.toInt := Int.ediv_le_self _ ha
  have hnonneg : 0 ≤ a.toInt / b.toInt := Int.ediv_nonneg ha (Int.le_of_lt hb)
  have hgreatest := le_greatest a
  -- Rounding towards zero and towards the lower integer agree on numbers that are not negative.
  obtain ⟨w, hw, hvalue⟩ := ofInt_of_mem .divideOverflow (n := a.toInt.tdiv b.toInt)
    (by rw [Int.tdiv_eq_ediv_of_nonneg ha]; simp only [least]; omega)
    (by rw [Int.tdiv_eq_ediv_of_nonneg ha]; omega)
  refine ⟨w, ?_, by rw [hvalue, Int.tdiv_eq_ediv_of_nonneg ha]⟩
  rw [div, if_neg (by omega)]
  exact hw

/-- A sum that is answered is exact. -/
theorem toInt_of_add {a b w : Int64} (h : add a b = .ok w) : w.toInt = a.toInt + b.toInt := by
  by_cases hrange : least ≤ a.toInt + b.toInt ∧ a.toInt + b.toInt ≤ greatest
  · obtain ⟨sum, hsum, hvalue⟩ := add_of_mem hrange.1 hrange.2
    obtain rfl := Except.ok.inj (h.symm.trans hsum)
    exact hvalue
  · rw [add, ofInt, if_neg hrange] at h
    exact nomatch h

/-- A sum beyond the greatest word is a fault. -/
theorem add_of_lt {a b : Int64} (h : greatest < a.toInt + b.toInt) :
    add a b = .error .addOverflow := by
  rw [add, ofInt, if_neg (by omega)]

/-! ## Operations that stop at the extremes -/

/-- The nearest word to a number. -/
theorem toInt_clamp (n : Int) : (clamp n).toInt = max least (min greatest n) := by
  apply Int64.toInt_ofInt_of_le
  · simp only [least]; omega
  · simp only [least, greatest]; omega

theorem toInt_saturatingDouble {a : Int64} (h : 0 ≤ a.toInt) :
    (saturatingDouble a).toInt = min greatest (2 * a.toInt) := by
  rw [saturatingDouble, toInt_clamp]
  simp only [least, greatest]
  omega

end Guestbook.Word
