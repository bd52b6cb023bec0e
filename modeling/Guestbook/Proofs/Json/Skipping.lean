import Guestbook.Proofs.Json.Grammar
import Guestbook.Proofs.Json.Number
import Guestbook.Proofs.Json.StringLiteral

/-!
# Values are passed over

Whatever the grammar derives as a value is passed over whole, to any depth of brackets, so the
reader stands at the byte after it. A value that is read as an integer or as a text is left at the
same place as one that is passed over.

## Main statements
- `skipBlanks_blanks`: blanks make no difference
- `skipNumber_unsigned`, `skipString_characters`: the leaves
- `skip_value_of_derives`: values of any depth
- `skip_of_readInteger`, `skip_of_readText`: what is read is what would be passed over
-/

namespace Guestbook.Json

open Ascii

/-! ## Blanks -/

theorem skipBlanks_blanks {w : Bytes} (hw : Blanks w) (s : Bytes) :
    skipBlanks (w ++ s) = skipBlanks s := by
  rw [skipBlanks, skipBlanks, List.dropWhile_append_of_pos hw]

/-- Blanks are passed over at once. -/
theorem skipBlanks_skipBlanks (s : Bytes) : skipBlanks (skipBlanks s) = skipBlanks s := by
  induction s with
  | nil => rfl
  | cons b s ih =>
    cases hb : isBlank b with
    | true =>
      have hdrop : skipBlanks (b :: s) = skipBlanks s := by
        rw [skipBlanks, List.dropWhile_cons_of_pos hb, skipBlanks]
      rw [hdrop, ih]
    | false => rw [skipBlanks_cons hb, skipBlanks_cons hb]

/-- A byte of one kind is none of the bytes of another. -/
theorem ne_of_isDigit {b c : UInt8} (hb : isDigit b = true) (hc : isDigit c = false) : b ≠ c := by
  intro heq
  rw [heq, hc] at hb
  exact absurd hb (by decide)

/-- No number goes on after a blank. -/
theorem endsNumber_blanks {w rest : Bytes} (hw : Blanks w) (hrest : EndsNumber rest) :
    EndsNumber (w ++ rest) := by
  cases w with
  | nil => exact hrest
  | cons b w =>
    intro c hc
    obtain rfl := Option.mem_some_iff.mp hc
    have hb : isBlank b = true := hw b List.mem_cons_self
    simp only [isBlank, Bool.or_eq_true, decide_eq_true_eq] at hb
    rcases hb with ((rfl | rfl) | rfl) | rfl <;> decide

/-! ## Numbers -/

/-- What follows the integer part of a number does not start with a digit. -/
private theorem not_isDigit_head {fraction exponent rest : Bytes} (hfraction : Fraction fraction)
    (hexponent : Exponent exponent) (hrest : EndsNumber rest) :
    ∀ b ∈ (fraction ++ (exponent ++ rest)).head?, isDigit b = false := by
  intro b hb
  cases hfraction with
  | digits hds =>
    obtain rfl := Option.mem_some_iff.mp hb
    decide
  | none =>
    cases hexponent with
    | none => exact (hrest b hb).1
    | digits hmark _ _ =>
      obtain rfl := Option.mem_some_iff.mp hb
      rcases hmark with rfl | rfl <;> decide

/-- A sign is taken off the digits of an exponent. -/
private theorem exponentSign_digit {sign : Bytes} {b : UInt8} (hb : isDigit b = true)
    (hsign : sign = [] ∨ sign = [plus] ∨ sign = [minus]) (ds : Bytes) :
    (exponentSign (sign ++ b :: ds)).2 = b :: ds := by
  have hplus : b ≠ plus := ne_of_isDigit hb (by decide)
  have hminus : b ≠ minus := ne_of_isDigit hb (by decide)
  rcases hsign with rfl | rfl | rfl
  · simp [exponentSign, hplus, hminus]
  · rfl
  · rfl

theorem skipAfterFraction_exponent {exponent rest : Bytes} (hexponent : Exponent exponent)
    (hrest : EndsNumber rest) : skipAfterFraction (exponent ++ rest) = .ok rest := by
  cases hexponent with
  | none =>
    cases rest with
    | nil => rfl
    | cons b rest =>
      obtain ⟨-, -, hlower, hupper⟩ := hrest b rfl
      rw [List.nil_append, skipAfterFraction, if_neg (not_or.mpr ⟨hlower, hupper⟩)]
  | @digits mark b sign ds hmark hsign hds =>
    have hafter := (digits_of_head (fun d hd => hds d (List.mem_cons_of_mem _ hd))
      fun b hb => (hrest b hb).1).2
    have hb : isDigit b = true := hds b List.mem_cons_self
    have hdigits := exponentSign_digit hb hsign (ds ++ rest)
    rw [List.cons_append, skipAfterFraction, if_pos hmark, skipExponent, List.append_assoc,
      List.cons_append, hdigits]
    simp only [hb, if_true, hafter]

/-- A number without its sign is passed over. -/
theorem skipNumber_unsigned {s rest : Bytes} (h : Unsigned s) (hrest : EndsNumber rest) :
    skipNumber (s ++ rest) = .ok rest := by
  obtain ⟨hwhole, hfraction, hexponent⟩ := h
  have hpart := readIntegerPart_integerPart hwhole (not_isDigit_head hfraction hexponent hrest)
  rw [List.append_assoc, List.append_assoc, skipNumber, hpart]
  cases hfraction with
  | digits hds =>
    -- The digits of the fraction end at the exponent, or at the end of the number.
    obtain ⟨hleading, hafter⟩ :=
      digits_of_head hds (not_isDigit_head .none hexponent hrest)
    rw [List.nil_append] at hleading hafter
    rw [List.cons_append]
    simp only [if_true, hleading, hafter, List.isEmpty_cons, Bool.false_eq_true, if_false]
    exact skipAfterFraction_exponent hexponent hrest
  | none =>
    have hskip := skipAfterFraction_exponent hexponent hrest
    rw [List.nil_append]
    generalize htail : _ ++ rest = tail at hskip ⊢
    cases tail with
    | nil => exact hskip
    | cons b tail =>
      have hpoint : b ≠ point := by
        cases hexponent with
        | none =>
          rw [List.nil_append] at htail
          exact (hrest b (htail ▸ rfl)).2.1
        | digits hmark _ _ =>
          obtain rfl := (List.cons.inj htail).1
          rcases hmark with rfl | rfl <;> decide
      simp only [hpoint, if_false]
      exact hskip

/-! ## Strings -/

theorem skipString_plain {b : UInt8} (hb : Plain b) (rest : Bytes) :
    skipString (b :: rest) = skipString rest := by
  have hspace : ¬ b < space := UInt8.not_lt.mpr hb.space
  rw [skipString_cons, if_neg hb.quote, if_neg hb.backslash, if_neg hspace]

theorem skipString_escape {s rest : Bytes} (h : skipEscape s = .ok rest) :
    skipString (backslash :: s) = skipString rest := by
  rw [skipString_cons, if_neg (by decide), if_pos rfl, h]

/-- The characters of a string are passed over with its closing quote. -/
theorem skipString_characters {s : Bytes} (h : Characters s) (rest : Bytes) :
    skipString (s ++ quote :: rest) = .ok rest := by
  induction h with
  | nil => rw [List.nil_append, skipString_cons, if_pos rfl]
  | plain hb _ ih => rw [List.cons_append, skipString_plain hb, ih]
  | @letter l b s hl _ ih =>
    have hescape : skipEscape (l :: (s ++ quote :: rest)) = .ok (s ++ quote :: rest) := by
      simp only [skipEscape, simpleEscape?_of_mem hl]
    rw [List.cons_append, List.cons_append, skipString_escape hescape, ih]
  | @unit n ds s hds _ ih =>
    -- Any code unit will do, half a surrogate pair as well.
    have hsimple : simpleEscape? lowerU = none := by decide
    have hescape : skipEscape (lowerU :: (ds ++ (s ++ quote :: rest)))
        = .ok (s ++ quote :: rest) := by
      simp only [skipEscape, hsimple, ne_eq, not_true_eq_false, if_false, readHex_codeUnit hds]
    rw [List.cons_append, List.cons_append, List.append_assoc, skipString_escape hescape, ih]

/-! ## Values without brackets -/

/-- A byte that a value may start with: no blank, and not the end of a list. -/
structure StartsValue (b : UInt8) : Prop where
  blank : isBlank b = false
  closeBracket : b ≠ closeBracket

theorem expect_append_self (word rest : Bytes) : expect word (word ++ rest) = .ok rest := by
  induction word with
  | nil => rfl
  | cons b word ih => rw [List.cons_append, expect, if_pos rfl, ih]

/-- A number without its sign starts with a digit. -/
theorem Unsigned.exists_digit {s : Bytes} (h : Unsigned s) :
    ∃ b tail, s = b :: tail ∧ isDigit b = true := by
  obtain ⟨hwhole, -, -⟩ := h
  cases hwhole with
  | zero => exact ⟨_, _, rfl, by decide⟩
  | digits _ hds => exact ⟨_, _, rfl, hds _ List.mem_cons_self⟩

/-- A value without brackets starts with a byte that opens none, and is passed over from there. -/
theorem Scalar.skips {v : Bytes} (h : Scalar v) :
    ∃ b tail, v = b :: tail ∧ StartsValue b ∧ b ≠ openBracket ∧ b ≠ openBrace ∧
      ∀ rest, EndsNumber rest → skipScalar b (tail ++ rest) = .ok rest := by
  cases h with
  | null =>
    refine ⟨_, _, rfl, ⟨by decide, by decide⟩, by decide, by decide, ?_⟩
    intro rest _
    exact expect_append_self nullTail rest
  | true =>
    refine ⟨_, _, rfl, ⟨by decide, by decide⟩, by decide, by decide, ?_⟩
    intro rest _
    exact expect_append_self trueTail rest
  | false =>
    refine ⟨_, _, rfl, ⟨by decide, by decide⟩, by decide, by decide, ?_⟩
    intro rest _
    exact expect_append_self falseTail rest
  | string hs =>
    refine ⟨_, _, rfl, ⟨by decide, by decide⟩, by decide, by decide, ?_⟩
    intro rest _
    rw [List.append_assoc]
    exact skipString_characters hs rest
  | number hnumber =>
    cases hnumber with
    | negative hunsigned =>
      refine ⟨_, _, rfl, ⟨by decide, by decide⟩, by decide, by decide, ?_⟩
      intro rest hrest
      exact skipNumber_unsigned hunsigned hrest
    | positive hunsigned =>
      obtain ⟨b, tail, rfl, hb⟩ := hunsigned.exists_digit
      refine ⟨b, tail, rfl, ⟨isBlank_of_isDigit hb, ne_of_isDigit hb (by decide)⟩,
        ne_of_isDigit hb (by decide), ne_of_isDigit hb (by decide), ?_⟩
      intro rest hrest
      have hnumber := skipNumber_unsigned hunsigned hrest
      rw [List.cons_append] at hnumber
      have hn : b ≠ lowerN := ne_of_isDigit hb (by decide)
      have ht : b ≠ lowerT := ne_of_isDigit hb (by decide)
      have hf : b ≠ lowerF := ne_of_isDigit hb (by decide)
      have hminus : b ≠ minus := ne_of_isDigit hb (by decide)
      simp only [skipScalar, hn, ht, hf, hminus, hb, if_false, if_true, hnumber]

/-! ## Inside of brackets -/

/-- Where a value begins does not depend on the blanks before it. -/
theorem skip_value_congr {s s' : Bytes} (h : skipBlanks s = skipBlanks s')
    (stack : List Bracket) : skip .value stack s = skip .value stack s' := by
  rw [skip_value, skip_value, h]

theorem skip_inside_congr {s s' : Bytes} (h : skipBlanks s = skipBlanks s') (fresh : Bool)
    (bracket : Bracket) (stack : List Bracket) :
    skip (.inside fresh) (bracket :: stack) s = skip (.inside fresh) (bracket :: stack) s' := by
  rw [skip_inside, skip_inside, h]

theorem skipKey_congr {s s' : Bytes} (h : skipBlanks s = skipBlanks s') :
    skipKey s = skipKey s' := by
  rw [skipKey, skipKey, h]

/-- Passes over an entry of the innermost bracket, and then over what is left around it. -/
def skipEntry (bracket : Bracket) (stack : List Bracket) (s : Bytes) :
    Except DecodeError Bytes :=
  match skipEntryStart bracket s with
  | .error e => .error e
  | .ok rest => skip .value (bracket :: stack) rest

theorem skipEntry_skipBlanks (bracket : Bracket) (stack : List Bracket) (s : Bytes) :
    skipEntry bracket stack (skipBlanks s) = skipEntry bracket stack s := by
  cases bracket with
  | list => exact skip_value_congr (skipBlanks_skipBlanks s) _
  | object =>
    rw [skipEntry, skipEntry, skipEntryStart, skipEntryStart,
      skipKey_congr (skipBlanks_skipBlanks s)]

/-- The first entry of a bracket is any but its end. -/
theorem skip_fresh {bracket : Bracket} {s tail : Bytes} {b : UInt8}
    (hs : skipBlanks s = b :: tail) (hb : b ≠ bracket.close) (stack : List Bracket) :
    skip (.inside true) (bracket :: stack) s = skipEntry bracket stack s := by
  rw [← skipEntry_skipBlanks, skip_inside, hs]
  simp only [hb, if_false, if_true]
  rfl

/-- Every other entry comes after a comma. -/
theorem skip_comma (bracket : Bracket) (stack : List Bracket) (s : Bytes) :
    skip (.inside false) (bracket :: stack) (comma :: s) = skipEntry bracket stack s := by
  have hclose : comma ≠ bracket.close := by cases bracket <;> decide
  rw [skip_inside, skipBlanks_cons (by decide)]
  simp only [hclose, if_false, if_true, Bool.false_eq_true]
  rfl

theorem skip_close (fresh : Bool) (bracket : Bracket) (stack : List Bracket) (rest : Bytes) :
    skip (.inside fresh) (bracket :: stack) (bracket.close :: rest)
      = skip (.inside false) stack rest := by
  have hblank : isBlank bracket.close = false := by cases bracket <;> decide
  rw [skip_inside, skipBlanks_cons hblank]
  simp only [if_true]

/-- What stands before a value is passed over, up to blanks. -/
theorem EntryStart.skips {bracket : Bracket} {start : Bytes} (h : EntryStart bracket start)
    (stack : List Bracket) (s : Bytes) :
    skipEntry bracket stack (start ++ s) = skip .value (bracket :: stack) s := by
  cases h with
  | element hw => exact skip_value_congr (skipBlanks_blanks hw s) _
  | @key w name w' w'' hw hname hw' hw'' =>
    have hcolon : readColon (w' ++ colon :: (w'' ++ s)) = .ok (w'' ++ s) := by
      rw [readColon, skipBlanks_blanks hw', skipBlanks_cons (by decide)]
      exact if_pos rfl
    have hkey : skipKey (w ++ quote :: (name ++ quote :: (w' ++ colon :: (w'' ++ s))))
        = .ok (w'' ++ s) := by
      rw [skipKey, skipBlanks_blanks hw, skipBlanks_cons (by decide)]
      simp only [if_true, skipString_characters hname, hcolon]
    have hassoc : (w ++ quote :: (name ++ quote :: (w' ++ colon :: w''))) ++ s
        = w ++ quote :: (name ++ quote :: (w' ++ colon :: (w'' ++ s))) := by simp
    rw [hassoc, skipEntry, skipEntryStart, hkey]
    exact skip_value_congr (skipBlanks_blanks hw'' s) _

/-- The first byte of an entry does not close its bracket. -/
theorem EntryStart.first {bracket : Bracket} {start : Bytes} (h : EntryStart bracket start)
    {b : UInt8} (hb : StartsValue b) (s : Bytes) :
    ∃ c tail, skipBlanks (start ++ b :: s) = c :: tail ∧ c ≠ bracket.close := by
  cases h with
  | element hw =>
    rw [skipBlanks_blanks hw, skipBlanks_cons hb.blank]
    exact ⟨_, _, rfl, hb.closeBracket⟩
  | key hw _ _ _ =>
    rw [List.append_assoc, skipBlanks_blanks hw, List.cons_append, skipBlanks_cons (by decide)]
    exact ⟨_, _, rfl, by decide⟩

/-! ## Values of any depth -/

/-- How a phrase is passed over: a value up to the byte after it, entries up to the byte after the
closing one. -/
def Skips : Phrase → Bytes → Prop
  | .value, v =>
    (∃ b tail, v = b :: tail ∧ StartsValue b) ∧
      ∀ stack rest, EndsNumber rest →
        skip .value stack (v ++ rest) = skip (.inside false) stack rest
  | .entries bracket, es =>
    (∀ rest, ∃ b tail, skipBlanks (es ++ rest) = b :: tail ∧ b ≠ bracket.close) ∧
      ∀ stack rest, skipEntry bracket stack (es ++ bracket.close :: rest)
        = skip (.inside false) stack rest

theorem skip_bracket (bracket : Bracket) (stack : List Bracket) (s : Bytes) :
    skip .value stack (bracket.start :: s) = skip (.inside true) (bracket :: stack) s := by
  cases bracket with
  | list =>
    rw [skip_value, Bracket.start, skipBlanks_cons (by decide)]
    exact if_pos rfl
  | object =>
    rw [skip_value, Bracket.start, skipBlanks_cons (by decide)]
    exact (if_neg (by decide)).trans (if_pos rfl)

theorem startsValue_start (bracket : Bracket) : StartsValue bracket.start := by
  cases bracket <;> exact ⟨by decide, by decide⟩

theorem endsNumber_close (bracket : Bracket) (rest : Bytes) :
    EndsNumber (bracket.close :: rest) := by
  cases bracket <;> exact endsNumber_cons (by decide) rest

/-- Whatever the grammar derives is passed over. -/
theorem Derives.skips {phrase : Phrase} {s : Bytes} (h : Derives phrase s) : Skips phrase s := by
  induction h with
  | scalar hv =>
    obtain ⟨b, tail, rfl, hb, hbracket, hbrace, hskip⟩ := hv.skips
    refine ⟨⟨b, tail, rfl, hb⟩, ?_⟩
    intro stack rest hrest
    rw [List.cons_append, skip_value, skipBlanks_cons hb.blank]
    simp only [hbracket, hbrace, if_false, hskip rest hrest]
  | empty bracket hw =>
    refine ⟨⟨_, _, rfl, startsValue_start bracket⟩, ?_⟩
    intro stack rest _
    rw [List.cons_append, skip_bracket, List.append_assoc,
      skip_inside_congr (skipBlanks_blanks hw _), List.cons_append, skip_close]
    rfl
  | @bracketed bracket es _ ih =>
    obtain ⟨hfirst, hskip⟩ := ih
    refine ⟨⟨_, _, rfl, startsValue_start bracket⟩, ?_⟩
    intro stack rest _
    rw [List.cons_append, skip_bracket, List.append_assoc, List.cons_append, List.nil_append]
    obtain ⟨b, tail, hb, hclose⟩ := hfirst (bracket.close :: rest)
    rw [skip_fresh hb hclose, hskip]
  | @last bracket start v w hstart _ hw ih =>
    obtain ⟨⟨b, tail, rfl, hb⟩, hskip⟩ := ih
    refine ⟨fun rest => ?_, fun stack rest => ?_⟩
    · rw [List.append_assoc, List.append_assoc, List.cons_append]
      exact hstart.first hb _
    · have hend : EndsNumber (w ++ bracket.close :: rest) :=
        endsNumber_blanks hw (endsNumber_close bracket rest)
      rw [List.append_assoc, List.append_assoc, hstart.skips, hskip _ _ hend,
        skip_inside_congr (skipBlanks_blanks hw _), skip_close]
  | @more bracket start v w es hstart _ hw _ ihv ihes =>
    obtain ⟨⟨b, tail, rfl, hb⟩, hskip⟩ := ihv
    refine ⟨fun rest => ?_, fun stack rest => ?_⟩
    · rw [List.append_assoc, List.append_assoc, List.cons_append]
      exact hstart.first hb _
    · -- After the value and its blanks the rest of the entries follows a comma.
      have hend : EndsNumber (w ++ comma :: (es ++ bracket.close :: rest)) :=
        endsNumber_blanks hw (endsNumber_cons (by decide) _)
      have hassoc : start ++ (b :: tail ++ (w ++ comma :: es)) ++ bracket.close :: rest
          = start ++ (b :: tail ++ (w ++ comma :: (es ++ bracket.close :: rest))) := by
        simp only [List.append_assoc, List.cons_append]
      rw [hassoc, hstart.skips, hskip _ _ hend, skip_inside_congr (skipBlanks_blanks hw _),
        skip_comma, ihes.2]

/-- A value is passed over from its first byte to the byte after it. -/
theorem skip_value_of_derives {v : Bytes} (h : Derives .value v) {rest : Bytes}
    (hrest : EndsNumber rest) : skip .value [] (v ++ rest) = .ok rest := by
  rw [h.skips.2 [] rest hrest, skip]

/-! ## What is read is what would be passed over -/

theorem skipExponent_of_readExponent {significand : Nat} {scale : Int} {s rest : Bytes}
    {n : Number} (h : readExponent significand scale s = .ok (n, rest)) :
    skipExponent s = .ok rest := by
  unfold readExponent at h
  unfold skipExponent
  split at h
  · cases h
  · next b tail hsign =>
    split at h
    · next hb => rw [if_pos hb, eq_of_withExponent h]
    · cases h

theorem skipAfterFraction_of_readAfterFraction {significand : Nat} {scale : Int} {s rest : Bytes}
    {n : Number} (h : readAfterFraction significand scale s = .ok (n, rest)) :
    skipAfterFraction s = .ok rest := by
  cases s with
  | nil =>
    rw [eq_of_floatOrRange h]
    rfl
  | cons b s =>
    rw [readAfterFraction] at h
    rw [skipAfterFraction]
    split at h
    · next hmark => rw [if_pos hmark, skipExponent_of_readExponent h]
    · next hmark => rw [if_neg hmark, eq_of_floatOrRange h]

theorem skipNumber_of_readNumber {negative : Bool} {s rest : Bytes} {n : Number}
    (h : readNumber negative s = .ok (n, rest)) : skipNumber s = .ok rest := by
  unfold readNumber at h
  unfold skipNumber
  split at h
  · cases h
  · next ds tail hpart =>
    rw [hpart]
    dsimp only at h
    split at h
    · rw [eq_of_wholeNumber h]
    · next b tail =>
      split at h
      · -- A fraction has digits in either reading.
        next hpoint =>
        split at h
        · cases h
        · next fs tail' hfraction =>
          unfold readFraction at hfraction
          split at hfraction
          · split at hfraction <;> cases hfraction
          · next hempty =>
            obtain ⟨rfl, rfl⟩ := Prod.mk.inj (Except.ok.inj hfraction)
            simp only [hpoint, if_true, hempty, Bool.false_eq_true, if_false]
            exact skipAfterFraction_of_readAfterFraction h
      · next hpoint =>
        simp only [hpoint, if_false, skipAfterFraction]
        split at h
        · next hmark => rw [if_pos hmark, skipExponent_of_readExponent h]
        · next hmark => rw [if_neg hmark, eq_of_wholeNumber h]

theorem skipString_of_readTrailing {leading : Nat} {s bs rest : Bytes}
    (h : readTrailing leading s = .ok (bs, rest)) : skipString s = skipString rest := by
  unfold readTrailing at h
  split at h
  · cases h
  · next b s =>
    split at h
    · cases h
    · next hb =>
      obtain rfl : b = backslash := Decidable.not_not.mp hb
      split at h
      · cases h
      · next u s =>
        split at h
        · cases h
        · next hu =>
          obtain rfl : u = lowerU := Decidable.not_not.mp hu
          split at h
          · cases h
          · next n tail hhex =>
            split at h
            · obtain ⟨-, rfl⟩ := Prod.mk.inj (Except.ok.inj h)
              have hsimple : simpleEscape? lowerU = none := by decide
              apply skipString_escape
              simp only [skipEscape, hsimple, ne_eq, not_true_eq_false, if_false, hhex]
            · cases h

/-- An escape that is read is passed over, a surrogate pair as two of them. -/
theorem skipString_of_readEscape {s bs rest : Bytes} (h : readEscape s = .ok (bs, rest)) :
    skipString (backslash :: s) = skipString rest := by
  unfold readEscape at h
  split at h
  · cases h
  · next b s =>
    split at h
    · next c hsimple =>
      obtain ⟨-, rfl⟩ := Prod.mk.inj (Except.ok.inj h)
      apply skipString_escape
      simp only [skipEscape, hsimple]
    · next hsimple =>
      split at h
      · cases h
      · next hu =>
        split at h
        · cases h
        · next n tail hhex =>
          have hescape : skipEscape (b :: s) = .ok tail := by
            simp only [skipEscape, hsimple, hu, if_false, hhex]
          rw [skipString_escape hescape]
          split at h
          · cases h
          · split at h
            · exact skipString_of_readTrailing h
            · obtain ⟨-, rfl⟩ := Prod.mk.inj (Except.ok.inj h)
              rfl

theorem skipString_of_readStringBytes {read s bs rest : Bytes}
    (h : readStringBytes read s = .ok (bs, rest)) : skipString s = .ok rest := by
  fun_induction readStringBytes read s with
  | case1 => cases h
  | case2 read tail =>
    obtain ⟨-, rfl⟩ := Prod.mk.inj (Except.ok.inj h)
    rw [skipString_cons, if_pos rfl]
  | case3 => cases h
  | case4 read tail bs' rest' hescape _ ih => rw [skipString_of_readEscape hescape, ih h]
  | case5 => cases h
  | case6 read b tail hquote hbackslash hspace ih =>
    rw [skipString_plain ⟨hquote, hbackslash, UInt8.not_lt.mp hspace⟩, ih h]

theorem skipString_of_readString {s rest : Bytes} {text : String}
    (h : readString s = .ok (text, rest)) : skipString s = .ok rest := by
  unfold readString at h
  split at h
  · cases h
  · next hbytes =>
    split at h
    · obtain ⟨-, rfl⟩ := Prod.mk.inj (Except.ok.inj h)
      exact skipString_of_readStringBytes hbytes
    · cases h

/-- A value without brackets that is passed over is passed over whole. -/
theorem skip_of_skipScalar {s tail rest : Bytes} {b : UInt8} (hs : skipBlanks s = b :: tail)
    (hbracket : b ≠ openBracket) (hbrace : b ≠ openBrace) (h : skipScalar b tail = .ok rest) :
    skip .value [] s = .ok rest := by
  rw [skip_value, hs]
  simp only [hbracket, hbrace, if_false, h]
  rw [skip]

theorem skipNumber_of_readWord {negative : Bool} {s rest : Bytes} {n : Int64}
    (h : readWord negative s = .ok (n, rest)) : skipNumber s = .ok rest := by
  unfold readWord at h
  split at h
  · cases h
  · next hnumber =>
    split at h
    · cases h
    · obtain ⟨-, rfl⟩ := Prod.mk.inj (Except.ok.inj h)
      exact skipNumber_of_readNumber hnumber

/-- An integer is read up to where it would be passed over. -/
theorem skip_of_readInteger {s rest : Bytes} {n : Int64} (h : readInteger s = .ok (n, rest)) :
    skip .value [] s = .ok rest := by
  unfold readInteger at h
  split at h
  · cases h
  · next b tail hs =>
    split at h
    · next hminus =>
      subst hminus
      exact skip_of_skipScalar hs (by decide) (by decide) (skipNumber_of_readWord h)
    · next hminus =>
      split at h
      · next hb =>
        have hn : b ≠ lowerN := ne_of_isDigit hb (by decide)
        have ht : b ≠ lowerT := ne_of_isDigit hb (by decide)
        have hf : b ≠ lowerF := ne_of_isDigit hb (by decide)
        apply skip_of_skipScalar hs (ne_of_isDigit hb (by decide)) (ne_of_isDigit hb (by decide))
        simp only [skipScalar, hn, ht, hf, hminus, hb, if_false, if_true]
        exact skipNumber_of_readWord h
      · cases h

/-- A text is read up to where its literal would be passed over. -/
theorem skip_of_readText {s rest : Bytes} {text : String} (h : readText s = .ok (text, rest)) :
    skip .value [] s = .ok rest := by
  unfold readText at h
  split at h
  · cases h
  · next b tail hs =>
    split at h
    · next hquote =>
      subst hquote
      exact skip_of_skipScalar hs (by decide) (by decide) (skipString_of_readString h)
    · cases h

end Guestbook.Json
