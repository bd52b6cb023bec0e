import Guestbook.Text.Decimal

/-!
# Decimal text determines its number

The digits of a number have that number as their value, so two integers with the same text are the
same. The text of an integer holds digits and at most a minus sign, and so no colon.

## Main statements
- `value_digits`: the value of the digits of a number
- `intChars_injective`: different integers have different texts
- `colon_not_mem_intChars`: the text of an integer has no colon
-/

namespace Guestbook.Text.Decimal

/-! ## Digits -/

@[simp] theorem value_append (ds : List Nat) (d : Nat) : value (ds ++ [d]) = 10 * value ds + d := by
  simp [value]

theorem lt_ten_of_mem_digits {n d : Nat} (h : d ∈ digits n) : d < 10 := by
  induction n using digits.induct with
  | case1 n hn =>
    rw [digits, if_pos hn, List.mem_singleton] at h
    exact h ▸ hn
  | case2 n hn ih =>
    rw [digits, if_neg hn, List.mem_append, List.mem_singleton] at h
    rcases h with h | rfl
    · exact ih h
    · exact Nat.mod_lt n (by decide)

/-- The digits of a number stand for it. -/
@[simp] theorem value_digits (n : Nat) : value (digits n) = n := by
  induction n using digits.induct with
  | case1 n hn =>
    rw [digits, if_pos hn]
    simp [value]
  | case2 n hn ih =>
    rw [digits, if_neg hn, value_append, ih]
    exact Nat.div_add_mod n 10

/-- A positive number is written with a leading digit that is not zero. -/
theorem digits_eq_cons (n : Nat) : ∃ d ds, digits n = d :: ds ∧ (0 < n → 0 < d) := by
  induction n using digits.induct with
  | case1 n hn =>
    rw [digits, if_pos hn]
    exact ⟨n, [], rfl, id⟩
  | case2 n hn ih =>
    obtain ⟨d, ds, heq, hpos⟩ := ih
    rw [digits, if_neg hn, heq]
    exact ⟨d, ds ++ [n % 10], rfl, fun _ => hpos (by omega)⟩

/-! ## Characters -/

theorem toNat_digitChar : ∀ d < 10, (digitChar d).toNat = 48 + d := by decide

/-- The digits of a number can be told from its characters. -/
private theorem map_natChars (n : Nat) : (natChars n).map (fun c => c.toNat - 48) = digits n := by
  rw [natChars, List.map_map, List.map_congr_left (g := id), List.map_id]
  intro d hd
  show (digitChar d).toNat - 48 = d
  rw [toNat_digitChar d (lt_ten_of_mem_digits hd), Nat.add_sub_cancel_left]

theorem natChars_injective {m n : Nat} (h : natChars m = natChars n) : m = n := by
  have hdigits : digits m = digits n := by
    rw [← map_natChars, h, map_natChars]
  rw [← value_digits m, hdigits, value_digits]

theorem isDigit_of_mem_natChars {n : Nat} {c : Char} (h : c ∈ natChars n) :
    48 ≤ c.toNat ∧ c.toNat < 58 := by
  obtain ⟨d, hd, rfl⟩ := List.mem_map.mp h
  have hlt := lt_ten_of_mem_digits hd
  rw [toNat_digitChar d hlt]
  omega

theorem minus_not_mem_natChars (n : Nat) : '-' ∉ natChars n :=
  fun h => absurd (isDigit_of_mem_natChars h).1 (by decide)

/-- Different integers are written differently. -/
theorem intChars_injective {m n : Int} (h : intChars m = intChars n) : m = n := by
  unfold intChars at h
  split at h
  · split at h
    · -- Both are negative, so their digits agree.
      have := natChars_injective (List.cons.inj h).2
      omega
    · -- Only one text has a minus sign.
      exact absurd (h ▸ List.mem_cons_self) (minus_not_mem_natChars n.natAbs)
  · split at h
    · exact absurd (h ▸ List.mem_cons_self) (minus_not_mem_natChars m.natAbs)
    · have := natChars_injective h
      omega

theorem colon_not_mem_intChars (n : Int) : ':' ∉ intChars n := by
  have hdigits : ':' ∉ natChars n.natAbs :=
    fun h => absurd (isDigit_of_mem_natChars h).2 (by decide)
  unfold intChars
  split
  · rw [List.mem_cons, not_or]
    exact ⟨by decide, hdigits⟩
  · exact hdigits

end Guestbook.Text.Decimal
