import Mathlib.Data.List.Induction
import Guestbook.Proofs.Text.Decimal

/-!
# Reading numerals

A numeral is one ASCII digit or more and stands for a number of any size. The reader takes a numeral
of every length, with leading zeros, as long as its number is below `2 ^ 64`, and nothing but a
numeral with at most one plus sign before it.

## Main definitions
- `Numeral`: digits and the number they stand for
- `Spells`: a numeral that may have a plus sign

## Main statements
- `numeral_natChars`: a number as it is written
- `numeral_iff`: a numeral, digit by digit
- `readWord?_eq_some_iff`, `readWord?_eq_none_iff`: what the reader takes
-/

namespace Guestbook.Text.Decimal

variable {c : Char} {cs : List Char} {d n : Nat} {ds : List Nat} {s : String}

/-! ## Numerals -/

/-- ASCII digits, at least one, and the number they stand for. -/
inductive Numeral : List Char → Nat → Prop where
  | digit {c : Char} (hc : c.isDigit) : Numeral [c] (c.toNat - '0'.toNat)
  | snoc {cs : List Char} {n : Nat} {c : Char} (hcs : Numeral cs n) (hc : c.isDigit) :
      Numeral (cs ++ [c]) (10 * n + (c.toNat - '0'.toNat))

/-- A numeral for a number, after a plus sign or not. -/
def Spells (s : String) (n : Nat) : Prop :=
  ∃ cs, (s.toList = cs ∨ s.toList = '+' :: cs) ∧ Numeral cs n

theorem Numeral.isDigit (h : Numeral cs n) : ∀ c ∈ cs, c.isDigit := by
  induction h with
  | digit hc => simpa using hc
  | snoc _ hc ih => simpa [or_imp, forall_and] using ⟨ih, hc⟩

theorem Numeral.ne_nil (h : Numeral cs n) : cs ≠ [] := by
  cases h with
  | digit hc => exact List.cons_ne_nil _ _
  | snoc hcs hc => exact List.append_ne_nil_of_right_ne_nil _ (List.cons_ne_nil _ _)

/-- The digit of a number below ten is a numeral for it. -/
private theorem numeral_digitChar (h : d < 10) :
    (digitChar d).isDigit ∧ (digitChar d).toNat - '0'.toNat = d := by
  rw [Char.isDigit_iff_toNat, toNat_digitChar d h]
  simp only [Char.reduceToNat]
  omega

/-- A number is written as a numeral. -/
theorem numeral_natChars (n : Nat) : Numeral (natChars n) n := by
  induction n using digits.induct with
  | case1 n hn =>
    obtain ⟨hdigit, hvalue⟩ := numeral_digitChar hn
    have hone := Numeral.digit hdigit
    rw [natChars, digits, if_pos hn]
    rwa [hvalue] at hone
  | case2 n hn ih =>
    obtain ⟨hdigit, hvalue⟩ := numeral_digitChar (Nat.mod_lt n (by decide : 10 > 0))
    have hmore := ih.snoc hdigit
    rw [hvalue, Nat.div_add_mod] at hmore
    rwa [natChars, digits, if_neg hn, List.map_append]

/-! ## Reading digits -/

theorem digit?_eq_some_iff : digit? c = some d ↔ c.isDigit ∧ c.toNat - '0'.toNat = d := by
  rw [Char.isDigit_iff_toNat, digit?, Option.ite_none_right_eq_some, Option.some_inj]
  rfl

/-- Reading one digit more. -/
private theorem mapM_digit?_append : (cs ++ [c]).mapM digit? = some ds ↔
    ∃ ds' d, cs.mapM digit? = some ds' ∧ digit? c = some d ∧ ds = ds' ++ [d] := by
  rw [List.mapM_append, List.mapM_cons]
  cases cs.mapM digit? <;> cases digit? c <;> simp [eq_comm]

/-- A numeral is read digit by digit. -/
theorem numeral_iff : Numeral cs n ↔ cs ≠ [] ∧ ∃ ds, cs.mapM digit? = some ds ∧ value ds = n := by
  constructor
  · intro h
    refine ⟨h.ne_nil, ?_⟩
    induction h with
    | @digit c hc =>
      refine ⟨[c.toNat - '0'.toNat], ?_, by simp [value]⟩
      rw [List.mapM_cons, digit?_eq_some_iff.mpr ⟨hc, rfl⟩]
      rfl
    | @snoc cs n c hcs hc ih =>
      obtain ⟨ds, hread, rfl⟩ := ih
      have hdigit : digit? c = some (c.toNat - '0'.toNat) := digit?_eq_some_iff.mpr ⟨hc, rfl⟩
      exact ⟨ds ++ [c.toNat - '0'.toNat], mapM_digit?_append.mpr ⟨ds, _, hread, hdigit, rfl⟩,
        value_append _ _⟩
  · rintro ⟨hne, ds, hread, rfl⟩
    induction cs using List.reverseRecOn generalizing ds with
    | nil => exact absurd rfl hne
    | append_singleton cs c ih =>
      obtain ⟨ds', d, hread', hdigit, rfl⟩ := mapM_digit?_append.mp hread
      obtain ⟨hc, rfl⟩ := digit?_eq_some_iff.mp hdigit
      by_cases hcs : cs = []
      · -- The digit is the first.
        subst hcs
        obtain rfl : ds' = [] := by simpa using hread'.symm
        simpa [value] using Numeral.digit hc
      · rw [value_append]
        exact (ih hcs ds' hread').snoc hc

/-! ## Reading words -/

/-- A numeral does not start with a plus sign. -/
theorem Numeral.unsigned_eq (h : Numeral cs n) : unsigned cs = cs := by
  unfold unsigned
  split
  · exact absurd (h.isDigit '+' List.mem_cons_self) (by decide)
  · rfl

/-- The plus sign is what comes before the numeral. -/
theorem spells_iff : Spells s n ↔ Numeral (unsigned s.toList) n := by
  constructor
  · rintro ⟨cs, hs | hs, hnumeral⟩
    · rwa [hs, hnumeral.unsigned_eq]
    · rw [hs]
      exact hnumeral
  · intro h
    refine ⟨_, ?_, h⟩
    unfold unsigned
    split
    · next hs => exact .inr hs
    · exact .inl rfl

theorem spells_natText (n : Nat) : Spells (natText n) n :=
  ⟨natChars n, .inl String.toList_ofList, numeral_natChars n⟩

/-- The reader answers the word for the number that a text spells. -/
theorem readWord?_of_spells (h : Spells s n) :
    readWord? s = if n < UInt64.size then some (UInt64.ofNat n) else none := by
  obtain ⟨hne, ds, hread, rfl⟩ := numeral_iff.mp (spells_iff.mp h)
  unfold readWord?
  split
  · next hnil => exact absurd hnil hne
  · next c cs hcs =>
    rw [← hcs, hread]

/-- The reader takes no other text. -/
theorem exists_spells_of_readWord? {w : UInt64} (h : readWord? s = some w) : ∃ n, Spells s n := by
  unfold readWord? at h
  split at h
  · exact nomatch h
  · next c cs hcs =>
    cases hread : (c :: cs).mapM digit? with
    | none =>
      rw [hread] at h
      exact nomatch h
    | some ds =>
      refine ⟨value ds, spells_iff.mpr (numeral_iff.mpr ?_)⟩
      rw [hcs]
      exact ⟨List.cons_ne_nil _ _, ds, hread, rfl⟩

/-- The reader takes the numerals of numbers below `2 ^ 64`. -/
theorem readWord?_eq_some_iff {w : UInt64} : readWord? s = some w ↔ Spells s w.toNat := by
  constructor
  · intro h
    obtain ⟨n, hspells⟩ := exists_spells_of_readWord? h
    have hread := readWord?_of_spells hspells
    rw [h] at hread
    split at hread
    · next hlt =>
      obtain rfl := Option.some.inj hread
      rwa [UInt64.toNat_ofNat_of_lt' hlt]
    · exact nomatch hread
  · intro h
    rw [readWord?_of_spells h, if_pos w.toNat_lt, UInt64.ofNat_toNat]

/-- The reader refuses everything else: texts that are no numeral, and numbers too large. -/
theorem readWord?_eq_none_iff : readWord? s = none ↔ ∀ n, Spells s n → UInt64.size ≤ n := by
  constructor
  · intro h n hspells
    by_contra hlt
    rw [readWord?_of_spells hspells, if_pos (Nat.lt_of_not_le hlt)] at h
    exact nomatch h
  · intro h
    cases hread : readWord? s with
    | none => rfl
    | some w => exact absurd (h _ (readWord?_eq_some_iff.mp hread)) (Nat.not_le.mpr w.toNat_lt)

/-- Leading zeros do not make a number too large. -/
example : readWord? "+00000018446744073709551615" = some 18446744073709551615 ∧
    readWord? "18446744073709551616" = none := by decide

end Guestbook.Text.Decimal
