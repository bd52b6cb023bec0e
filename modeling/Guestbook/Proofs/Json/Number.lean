import Guestbook.Json.Encode
import Guestbook.Json.Scalar
import Guestbook.Proofs.Json.Grammar
import Guestbook.Proofs.Text.Decimal

/-!
# Integers are read back

A written integer is read as itself if a signed word holds it and nothing follows that would
continue a number.

## Main definitions
- `EndsNumber`: what may follow a number

## Main statements
- `readIntegerPart_integerPart`: the digits before a fraction
- `readNumber_natural`: the digits of a number that fits 64 bits
- `readInteger_integer`: a signed word
-/

namespace Guestbook.Json

open Ascii

/-- The bytes do not continue a number. -/
def EndsNumber (rest : Bytes) : Prop :=
  ∀ b ∈ rest.head?, isDigit b = false ∧ b ≠ point ∧ b ≠ lowerE ∧ b ≠ upperE

theorem endsNumber_cons {b : UInt8} (h : isDigit b = false ∧ b ≠ point ∧ b ≠ lowerE ∧ b ≠ upperE)
    (rest : Bytes) : EndsNumber (b :: rest) := by
  intro c hc
  obtain rfl := Option.mem_some_iff.mp hc
  exact h

theorem endsNumber_comma (rest : Bytes) : EndsNumber (comma :: rest) :=
  endsNumber_cons (by decide) rest

theorem endsNumber_closeBrace (rest : Bytes) : EndsNumber (closeBrace :: rest) :=
  endsNumber_cons (by decide) rest

theorem endsNumber_closeBracket (rest : Bytes) : EndsNumber (closeBracket :: rest) :=
  endsNumber_cons (by decide) rest

/-! ## Digits -/

/-- The byte of a digit. -/
private abbrev digitByte (d : Nat) : UInt8 := UInt8.ofNat (48 + d)

private theorem isDigit_digitByte : ∀ d < 10, isDigit (digitByte d) = true := by decide

private theorem digitValue_digitByte : ∀ d < 10, digitValue (digitByte d) = d := by decide

private theorem digitByte_ne_zero : ∀ d < 10, 0 < d → digitByte d ≠ zero := by decide

theorem isDigit_of_mem_natural {n : Nat} {b : UInt8} (h : b ∈ natural n) : isDigit b = true := by
  obtain ⟨d, hd, rfl⟩ := List.mem_map.mp h
  exact isDigit_digitByte d (Text.Decimal.lt_ten_of_mem_digits hd)

/-- Zero is written as one digit, and no other number starts with that digit. -/
theorem natural_eq_cons (n : Nat) :
    ∃ b ds, natural n = b :: ds ∧ isDigit b = true ∧ (b = zero → ds = []) := by
  obtain ⟨d, ds, heq, hpos⟩ := Text.Decimal.digits_eq_cons n
  have hnatural : natural n = digitByte d :: ds.map digitByte := by
    rw [natural, heq, List.map_cons]
  have hlt : d < 10 := Text.Decimal.lt_ten_of_mem_digits (heq ▸ List.mem_cons_self)
  refine ⟨digitByte d, ds.map digitByte, hnatural, isDigit_digitByte d hlt, ?_⟩
  intro hzero
  -- Only the number zero starts with the digit zero, and it has no other digit.
  rcases Nat.eq_zero_or_pos n with rfl | hn
  · have : Text.Decimal.digits 0 = [0] := by rw [Text.Decimal.digits, if_pos (by decide)]
    rw [this] at heq
    rw [(List.cons.inj heq).2.symm, List.map_nil]
  · exact absurd hzero (digitByte_ne_zero d hlt (hpos hn))

private theorem digitsValue_map_digitByte {ds : List Nat} (h : ∀ d ∈ ds, d < 10) (start : Nat) :
    digitsValue start (ds.map digitByte) = ds.foldl (fun v d => 10 * v + d) start := by
  induction ds generalizing start with
  | nil => rfl
  | cons d ds ih =>
    have hd := h d List.mem_cons_self
    have hds : ∀ d ∈ ds, d < 10 := fun d hd => h d (List.mem_cons_of_mem _ hd)
    have := ih hds (10 * start + d)
    simpa only [List.map_cons, digitsValue, List.foldl_cons, digitValue_digitByte d hd] using this

@[simp] theorem digitsValue_natural (n : Nat) : digitsValue 0 (natural n) = n := by
  rw [natural, digitsValue_map_digitByte fun d hd => Text.Decimal.lt_ten_of_mem_digits hd]
  exact Text.Decimal.value_digits n

/-- More digits make no smaller a number. -/
theorem le_digitsValue (start : Nat) (ds : Bytes) : start ≤ digitsValue start ds := by
  induction ds generalizing start with
  | nil => exact Nat.le_refl _
  | cons d ds ih =>
    have : 10 * start + digitValue d ≤ digitsValue start (d :: ds) := ih _
    omega

/-- Digits whose number fits 64 bits are all kept. -/
theorem keepDigits_of_lt {start : Nat} {ds : Bytes} (h : digitsValue start ds < UInt64.size) :
    keepDigits start ds = (digitsValue start ds, 0) := by
  induction ds generalizing start with
  | nil => rfl
  | cons d ds ih =>
    -- Reading on only makes the number greater, so it was in range at this digit.
    have hle := le_digitsValue (10 * start + digitValue d) ds
    have hlt : digitsValue (10 * start + digitValue d) ds < UInt64.size := h
    rw [keepDigits, if_pos (Nat.lt_of_le_of_lt hle hlt), ih hlt]
    rfl

/-! ## Numbers -/

/-- Digits are read up to the first byte that is none. -/
theorem digits_of_head {ds rest : Bytes} (hds : Digits ds)
    (hrest : ∀ b ∈ rest.head?, isDigit b = false) :
    leadingDigits (ds ++ rest) = ds ∧ afterDigits (ds ++ rest) = rest := by
  rw [leadingDigits, afterDigits, List.takeWhile_append_of_pos hds,
    List.dropWhile_append_of_pos hds]
  cases rest with
  | nil => exact ⟨List.append_nil ds, rfl⟩
  | cons b rest =>
    have hb : isDigit b = false := hrest b rfl
    simp [hb]

/-- An integer part is read up to the first byte that is no digit. -/
theorem readIntegerPart_integerPart {whole rest : Bytes} (hwhole : IntegerPart whole)
    (hrest : ∀ b ∈ rest.head?, isDigit b = false) :
    readIntegerPart (whole ++ rest) = .ok (whole, rest) := by
  cases hwhole with
  | zero =>
    have hleading := (digits_of_head (fun _ h => absurd h List.not_mem_nil) hrest).1
    rw [List.nil_append] at hleading
    rw [List.cons_append, List.nil_append, readIntegerPart, if_pos rfl, hleading]
    rfl
  | digits hzero hds =>
    obtain ⟨hleading, hafter⟩ :=
      digits_of_head (fun d hd => hds d (List.mem_cons_of_mem _ hd)) hrest
    rw [List.cons_append, readIntegerPart, if_neg hzero, if_pos (hds _ List.mem_cons_self),
      hleading, hafter]

/-- A natural number is written as an integer part. -/
theorem integerPart_natural (n : Nat) : IntegerPart (natural n) := by
  obtain ⟨b, ds, heq, -, hzero⟩ := natural_eq_cons n
  by_cases hb : b = zero
  · rw [heq, hzero hb, hb]
    exact .zero
  · have hds : Digits (b :: ds) := fun d hd => isDigit_of_mem_natural (heq ▸ hd)
    exact heq ▸ .digits hb hds

/-- The digits of a number that fits 64 bits are read as a whole number. -/
theorem readNumber_natural (negative : Bool) {n : Nat} (hn : n < UInt64.size) {rest : Bytes}
    (h : EndsNumber rest) :
    readNumber negative (natural n ++ rest) = wholeNumber negative n 0 rest := by
  have hkeep : keepDigits 0 (natural n) = (n, 0) := by
    rw [keepDigits_of_lt (by rwa [digitsValue_natural]), digitsValue_natural]
  simp only [readNumber,
    readIntegerPart_integerPart (integerPart_natural n) fun b hb => (h b hb).1, hkeep]
  -- Neither a fraction nor an exponent follows.
  cases rest with
  | nil => rfl
  | cons b rest =>
    obtain ⟨-, hpoint, hlower, hupper⟩ := h b rfl
    simp only [hpoint, hlower, hupper, or_self, if_false]

/-! ## Signed words -/

private theorem readWord_natural {n : Int64} (hn : 0 ≤ n.toInt) {rest : Bytes}
    (h : EndsNumber rest) : readWord false (natural n.toInt.natAbs ++ rest) = .ok (n, rest) := by
  have hlt := n.toInt_lt
  have hsize : n.toInt.natAbs < UInt64.size := by simp only [UInt64.size]; omega
  have hcast : (n.toInt.natAbs : Int) = n.toInt := Int.natAbs_of_nonneg hn
  have hgreatest : n.toInt ≤ Word.greatest := by simp only [Word.greatest]; omega
  simp [readWord, readNumber_natural false hsize h, wholeNumber, wordOfNumber, hcast, hgreatest]

private theorem readWord_negative {n : Int64} (hn : n.toInt < 0) {rest : Bytes}
    (h : EndsNumber rest) : readWord true (natural n.toInt.natAbs ++ rest) = .ok (n, rest) := by
  have hle := n.le_toInt
  have hsize : n.toInt.natAbs < UInt64.size := by simp only [UInt64.size]; omega
  -- The least word has no positive counterpart, but its digits still make an integer.
  have hfloat : ¬ (n.toInt.natAbs = 0 ∨ 0x8000000000000000 < n.toInt.natAbs) := by omega
  have hcast : -(n.toInt.natAbs : Int) = n.toInt := by omega
  have hgreatest : n.toInt ≤ Word.greatest := by simp only [Word.greatest]; omega
  have hwhole : wholeNumber true n.toInt.natAbs 0 rest = .ok (.integer n.toInt, rest) := by
    simp only [wholeNumber, ne_eq, not_true_eq_false, if_false, Bool.true_eq_false, hfloat, hcast]
  simp only [readWord, readNumber_natural true hsize h, hwhole, wordOfNumber, hgreatest, if_true,
    Int64.ofInt_toInt]

theorem skipBlanks_cons {b : UInt8} (h : isBlank b = false) (rest : Bytes) :
    skipBlanks (b :: rest) = b :: rest := by
  rw [skipBlanks, List.dropWhile_cons_of_neg (by simp [h])]

theorem isBlank_of_isDigit {b : UInt8} (h : isDigit b = true) : isBlank b = false := by
  rw [isDigit, Bool.and_eq_true, decide_eq_true_eq, decide_eq_true_eq] at h
  have hzero : 48 ≤ b.toNat := UInt8.le_iff_toNat_le.mp h.1
  have hne : ∀ c : UInt8, c.toNat < 48 → b ≠ c := fun c hc heq => by rw [heq] at hzero; omega
  simp [isBlank, hne space (by decide), hne tab (by decide), hne lineFeed (by decide),
    hne carriageReturn (by decide)]

/-- A written signed word is read back. -/
theorem readInteger_integer (n : Int64) {rest : Bytes} (h : EndsNumber rest) :
    readInteger (integer n.toInt ++ rest) = .ok (n, rest) := by
  rw [integer]
  split
  · -- The minus sign is read first.
    next hneg =>
    rw [List.cons_append, readInteger, skipBlanks_cons (by decide)]
    exact (if_pos rfl).trans (readWord_negative hneg h)
  · next hnonneg =>
    obtain ⟨b, ds, hnatural, hdigit, -⟩ := natural_eq_cons n.toInt.natAbs
    have hminus : b ≠ minus := by
      rintro rfl
      exact absurd hdigit (by decide)
    have hword := readWord_natural (Int.not_lt.mp hnonneg) h
    rw [hnatural, List.cons_append] at hword ⊢
    rw [readInteger, skipBlanks_cons (isBlank_of_isDigit hdigit)]
    simp only [hminus, hdigit, if_false, if_true, hword]

end Guestbook.Json
