import Guestbook.Proofs.Json.RoundTrip

/-!
# More bytes after what was read

A reader that answers has seen the end of what it read, so it answers the same with more bytes after
those it left. A number is the exception: it ends at the first byte that does not continue it, so
one at the very end of the bytes could go on. Every number of a list stands inside of it, where a
byte is left, so a list that was read stays the same whatever is added.

Each proof goes through the branches of its reader that answer; in the others there is nothing to
show.

## Main statements
- `readString_append`, `readNumber_append`, `skip_append`: the values of members
- `readMembers_append`, `readArray_append`: the two forms of a message
- `readMessages_append`: a list of messages
-/

namespace Guestbook.Json

open Ascii

/-! ## Blanks and keywords -/

theorem skipBlanks_append {s rest : Bytes} {b : UInt8} (h : skipBlanks s = b :: rest) (t : Bytes) :
    skipBlanks (s ++ t) = b :: (rest ++ t) := by
  have hne : ¬ (s.dropWhile isBlank).isEmpty = true := by
    rw [skipBlanks] at h
    simp [h]
  rw [skipBlanks, List.dropWhile_append, if_neg hne]
  exact congrArg (· ++ t) h

theorem expect_append {word s rest : Bytes} (h : expect word s = .ok rest) (t : Bytes) :
    expect word (s ++ t) = .ok (rest ++ t) := by
  induction word generalizing s with
  | nil =>
    obtain rfl := Except.ok.inj h
    rfl
  | cons k word ih =>
    cases s with
    | nil => simp [expect] at h
    | cons b s =>
      rw [expect] at h
      rw [List.cons_append, expect]
      split at h
      · next hb => rw [if_pos hb, ih h]
      · simp at h

/-! ## Strings -/

theorem readHex_append {s rest : Bytes} {n : Nat} (h : readHex s = .ok (n, rest)) (t : Bytes) :
    readHex (s ++ t) = .ok (n, rest ++ t) := by
  revert h
  fun_cases readHex s with
  | case1 _ _ _ _ s _ _ _ _ ha hb hc hd =>
    intro h
    obtain ⟨rfl, rfl⟩ := Prod.mk.inj (Except.ok.inj h)
    simp only [List.cons_append, readHex, ha, hb, hc, hd]
  | _ => simp

theorem readTrailing_append {leading : Nat} {s bs rest : Bytes}
    (h : readTrailing leading s = .ok (bs, rest)) (t : Bytes) :
    readTrailing leading (s ++ t) = .ok (bs, rest ++ t) := by
  revert h
  fun_cases readTrailing leading s with
  | case6 b hb u s hu n s' hhex htrailing =>
    intro h
    obtain ⟨rfl, rfl⟩ := Prod.mk.inj (Except.ok.inj h)
    simp only [List.cons_append, readTrailing, hb, hu, if_false, readHex_append hhex, htrailing,
      if_true]
  | _ => simp

theorem readEscape_append {s bs rest : Bytes} (h : readEscape s = .ok (bs, rest)) (t : Bytes) :
    readEscape (s ++ t) = .ok (bs, rest ++ t) := by
  revert h
  fun_cases readEscape s with
  | case2 b s c hc =>
    -- One letter stands for the character.
    intro h
    obtain ⟨rfl, rfl⟩ := Prod.mk.inj (Except.ok.inj h)
    simp only [List.cons_append, readEscape, hc]
  | case6 b s hsimple hb n s' hhex htrailing hleading =>
    -- A second escape follows the first.
    intro h
    rw [List.cons_append, readEscape]
    simp only [hsimple, readHex_append hhex, readTrailing_append h]
    rw [if_neg hb, if_neg htrailing, if_pos hleading]
  | case7 b s hsimple hb n s' hhex htrailing hleading =>
    -- The code point stands alone.
    intro h
    obtain ⟨rfl, rfl⟩ := Prod.mk.inj (Except.ok.inj h)
    rw [List.cons_append, readEscape]
    simp only [hsimple, readHex_append hhex]
    rw [if_neg hb, if_neg htrailing, if_neg hleading]
  | _ => simp

theorem skipEscape_append {s rest : Bytes} (h : skipEscape s = .ok rest) (t : Bytes) :
    skipEscape (s ++ t) = .ok (rest ++ t) := by
  revert h
  fun_cases skipEscape s with
  | case2 b s c hc =>
    intro h
    obtain rfl := Except.ok.inj h
    simp only [List.cons_append, skipEscape, hc]
  | case5 b s hsimple hb n s' hhex =>
    intro h
    obtain rfl := Except.ok.inj h
    simp only [List.cons_append, skipEscape, hsimple, hb, if_false, readHex_append hhex]
  | _ => simp

theorem readStringBytes_append {read s bs rest : Bytes}
    (h : readStringBytes read s = .ok (bs, rest)) (t : Bytes) :
    readStringBytes read (s ++ t) = .ok (bs, rest ++ t) := by
  fun_induction readStringBytes read s with
  | case2 read s =>
    -- The closing quote was seen.
    obtain ⟨rfl, rfl⟩ := Prod.mk.inj (Except.ok.inj h)
    rw [List.cons_append, readStringBytes, if_pos rfl]
  | case4 read s bs' s' hescape _ ih =>
    rw [List.cons_append, readStringBytes_of_readEscape (readEscape_append hescape t), ih h]
  | case6 read b s hquote hbackslash hspace ih =>
    rw [List.cons_append, readStringBytes]
    simp only [hquote, hbackslash, hspace, if_false, ih h]
  | _ => simp at h

theorem readString_append {s rest : Bytes} {text : String} (h : readString s = .ok (text, rest))
    (t : Bytes) : readString (s ++ t) = .ok (text, rest ++ t) := by
  revert h
  fun_cases readString s with
  | case2 bs s' hbytes text' htext =>
    intro h
    obtain ⟨rfl, rfl⟩ := Prod.mk.inj (Except.ok.inj h)
    simp only [readString, readStringBytes_append hbytes, htext]
  | _ => simp

theorem skipString_append {s rest : Bytes} (h : skipString s = .ok rest) (t : Bytes) :
    skipString (s ++ t) = .ok (rest ++ t) := by
  fun_induction skipString s with
  | case2 s =>
    obtain rfl := Except.ok.inj h
    rw [List.cons_append, skipString_cons, if_pos rfl]
  | case4 s s' hescape hquote ih =>
    rw [List.cons_append, skipString_cons]
    simp only [hquote, if_false, if_true, skipEscape_append hescape, ih h]
  | case6 b s hquote hbackslash hspace ih =>
    rw [List.cons_append, skipString_cons]
    simp only [hquote, hbackslash, hspace, if_false, ih h]
  | _ => simp at h

/-! ## Numbers -/

/-- Digits that a byte was left after are all of the leading digits. -/
theorem digits_append {s : Bytes} (h : afterDigits s ≠ []) (t : Bytes) :
    leadingDigits (s ++ t) = leadingDigits s ∧ afterDigits (s ++ t) = afterDigits s ++ t := by
  induction s with
  | nil => exact absurd rfl h
  | cons b s ih =>
    by_cases hb : isDigit b = true
    · simp only [afterDigits, leadingDigits, List.cons_append, List.dropWhile_cons_of_pos hb,
        List.takeWhile_cons_of_pos hb] at h ih ⊢
      obtain ⟨hleading, hafter⟩ := ih h
      exact ⟨congrArg (b :: ·) hleading, hafter⟩
    · simp only [afterDigits, leadingDigits, List.cons_append, List.dropWhile_cons_of_neg hb,
        List.takeWhile_cons_of_neg hb, and_self]

/-- Bytes that start with no digit are all left. -/
private theorem afterDigits_of_isEmpty {s : Bytes} (h : (leadingDigits s).isEmpty = true) :
    afterDigits s = s := by
  have hsplit : leadingDigits s ++ afterDigits s = s := List.takeWhile_append_dropWhile
  rw [List.isEmpty_iff.mp h] at hsplit
  exact hsplit

theorem readIntegerPart_append {s ds rest : Bytes} (h : readIntegerPart s = .ok (ds, rest))
    (hrest : rest ≠ []) (t : Bytes) : readIntegerPart (s ++ t) = .ok (ds, rest ++ t) := by
  revert h
  fun_cases readIntegerPart s with
  | case2 s hleading =>
    -- The byte after a leading zero is no digit.
    intro h
    obtain ⟨rfl, rfl⟩ := Prod.mk.inj (Except.ok.inj h)
    have hafter := afterDigits_of_isEmpty hleading
    obtain ⟨hleading', -⟩ := digits_append (by rwa [hafter]) t
    rw [List.cons_append, readIntegerPart, if_pos rfl, if_pos (by rwa [hleading'])]
  | case4 b s hb hdigit =>
    -- The digits end at the byte that is left.
    intro h
    obtain ⟨rfl, rfl⟩ := Prod.mk.inj (Except.ok.inj h)
    obtain ⟨hleading, hafter⟩ := digits_append hrest t
    rw [List.cons_append, readIntegerPart, if_neg hb, if_pos hdigit, hleading, hafter]
  | _ => simp

theorem readFraction_append {s ds rest : Bytes} (h : readFraction s = .ok (ds, rest))
    (hrest : rest ≠ []) (t : Bytes) : readFraction (s ++ t) = .ok (ds, rest ++ t) := by
  revert h
  fun_cases readFraction s with
  | case3 s hleading =>
    intro h
    obtain ⟨rfl, rfl⟩ := Prod.mk.inj (Except.ok.inj h)
    obtain ⟨hleading', hafter⟩ := digits_append hrest t
    unfold readFraction
    rw [hleading', hafter, if_neg hleading]
  | _ => simp

theorem exponentSign_append {s rest : Bytes} {b : UInt8} (h : (exponentSign s).2 = b :: rest)
    (t : Bytes) : exponentSign (s ++ t) = ((exponentSign s).1, b :: (rest ++ t)) := by
  revert h
  fun_cases exponentSign s with
  | case1 => simp
  | case2 s =>
    rintro rfl
    rw [List.cons_append, exponentSign, if_pos rfl]
    rfl
  | case3 s hplus =>
    rintro rfl
    rw [List.cons_append, exponentSign, if_neg hplus, if_pos rfl]
    rfl
  | case4 c s hplus hminus =>
    intro h
    obtain ⟨rfl, rfl⟩ := List.cons.inj h
    rw [List.cons_append, exponentSign, if_neg hplus, if_neg hminus]

/-- What is left after a number only goes along. -/
theorem floatOrRange_append (significand : Nat) (exponent : Int) (s t : Bytes) :
    floatOrRange significand exponent (s ++ t)
      = (floatOrRange significand exponent s).map fun x => (x.1, x.2 ++ t) := by
  unfold floatOrRange
  split <;> rfl

theorem wholeNumber_append (negative : Bool) (significand dropped : Nat) (s t : Bytes) :
    wholeNumber negative significand dropped (s ++ t)
      = (wholeNumber negative significand dropped s).map fun x => (x.1, x.2 ++ t) := by
  unfold wholeNumber
  split
  · exact floatOrRange_append _ _ s t
  split
  · rfl
  split <;> rfl

theorem withExponent_append (significand : Nat) (scale : Int) (negative : Bool) (exponent : Nat)
    (s t : Bytes) :
    withExponent significand scale negative exponent (s ++ t)
      = (withExponent significand scale negative exponent s).map fun x => (x.1, x.2 ++ t) := by
  unfold withExponent
  split
  · exact floatOrRange_append _ _ s t
  split <;> rfl

theorem readExponent_append {significand : Nat} {scale : Int} {s rest : Bytes} {n : Number}
    (h : readExponent significand scale s = .ok (n, rest)) (hrest : rest ≠ []) (t : Bytes) :
    readExponent significand scale (s ++ t) = .ok (n, rest ++ t) := by
  revert h
  fun_cases readExponent significand scale s with
  | case2 b s' hsign hdigit =>
    intro h
    rw [eq_of_withExponent h] at hrest
    obtain ⟨hleading, hafter⟩ := digits_append hrest t
    unfold readExponent
    simp only [exponentSign_append hsign, hdigit, if_true, hleading, hafter, withExponent_append, h]
    rfl
  | _ => simp

theorem readAfterFraction_append {significand : Nat} {scale : Int} {s rest : Bytes} {n : Number}
    (h : readAfterFraction significand scale s = .ok (n, rest)) (hrest : rest ≠ []) (t : Bytes) :
    readAfterFraction significand scale (s ++ t) = .ok (n, rest ++ t) := by
  cases s with
  | nil => exact absurd (eq_of_floatOrRange h) hrest
  | cons b s =>
    rw [readAfterFraction] at h
    rw [List.cons_append, readAfterFraction]
    split at h
    · next hmark => rw [if_pos hmark, readExponent_append h hrest]
    · next hmark =>
      rw [if_neg hmark, ← List.cons_append, floatOrRange_append, h]
      rfl

/-- A number is the same with more bytes, if it is followed by one that ends it. -/
theorem readNumber_append {negative : Bool} {s rest : Bytes} {n : Number}
    (h : readNumber negative s = .ok (n, rest)) (hrest : rest ≠ []) (t : Bytes) :
    readNumber negative (s ++ t) = .ok (n, rest ++ t) := by
  revert h
  fun_cases readNumber negative s with
  | case2 ds significand dropped hkeep hpart =>
    -- Nothing is left after the digits.
    intro h
    exact absurd (eq_of_wholeNumber h) hrest
  | case4 ds significand dropped hkeep s' fs s'' hfraction significand' unused hkeep' hpart =>
    -- A byte is left after the fraction too, or there would be none after the number.
    intro h
    have hs'' : s'' ≠ [] := by
      rintro rfl
      exact hrest (eq_of_floatOrRange h)
    simp only [readNumber, readIntegerPart_append hpart (List.cons_ne_nil _ _), hkeep,
      List.cons_append, if_true, readFraction_append hfraction hs'', hkeep',
      readAfterFraction_append h hrest]
  | case5 ds significand dropped hkeep b s' hpoint hmark hpart =>
    -- An exponent follows at once.
    intro h
    simp only [readNumber, readIntegerPart_append hpart (List.cons_ne_nil _ _), hkeep,
      List.cons_append, hpoint, if_false, hmark, if_true, readExponent_append h hrest]
  | case6 ds significand dropped hkeep b s' hpoint hmark hpart =>
    -- The number ends at a byte that is no part of it.
    intro h
    simp only [readNumber, readIntegerPart_append hpart (List.cons_ne_nil _ _), hkeep,
      List.cons_append, hpoint, hmark, if_false]
    rw [← List.cons_append, wholeNumber_append, h]
    rfl
  | _ => simp

theorem skipExponent_append {s rest : Bytes} (h : skipExponent s = .ok rest) (hrest : rest ≠ [])
    (t : Bytes) : skipExponent (s ++ t) = .ok (rest ++ t) := by
  revert h
  fun_cases skipExponent s with
  | case2 b s' hsign hdigit =>
    intro h
    obtain rfl := Except.ok.inj h
    unfold skipExponent
    simp only [exponentSign_append hsign, hdigit, if_true, (digits_append hrest t).2]
  | _ => simp

theorem skipAfterFraction_append {s rest : Bytes} (h : skipAfterFraction s = .ok rest)
    (hrest : rest ≠ []) (t : Bytes) : skipAfterFraction (s ++ t) = .ok (rest ++ t) := by
  cases s with
  | nil => exact absurd (Except.ok.inj h).symm hrest
  | cons b s =>
    rw [skipAfterFraction] at h
    rw [List.cons_append, skipAfterFraction]
    split at h
    · next hmark => rw [if_pos hmark, skipExponent_append h hrest]
    · next hmark =>
      obtain rfl := Except.ok.inj h
      rw [if_neg hmark]
      rfl

theorem skipNumber_append {s rest : Bytes} (h : skipNumber s = .ok rest) (hrest : rest ≠ [])
    (t : Bytes) : skipNumber (s ++ t) = .ok (rest ++ t) := by
  revert h
  fun_cases skipNumber s with
  | case2 ds hpart =>
    intro h
    exact absurd (Except.ok.inj h).symm hrest
  | case4 ds s' hdigits hpart =>
    intro h
    have hs' : afterDigits s' ≠ [] := by
      intro hnil
      rw [hnil] at h
      exact hrest (Except.ok.inj h).symm
    obtain ⟨hleading, hafter⟩ := digits_append hs' t
    simp only [skipNumber, readIntegerPart_append hpart (List.cons_ne_nil _ _), List.cons_append,
      if_true, hleading, hdigits, Bool.false_eq_true, if_false, hafter,
      skipAfterFraction_append h hrest]
  | case5 ds b s' hpart hpoint =>
    intro h
    simp only [skipNumber, readIntegerPart_append hpart (List.cons_ne_nil _ _), List.cons_append,
      hpoint, if_false]
    exact skipAfterFraction_append h hrest t
  | _ => simp

/-! ## Integers and texts -/

theorem readWord_append {negative : Bool} {s rest : Bytes} {w : Int64}
    (h : readWord negative s = .ok (w, rest)) (hrest : rest ≠ []) (t : Bytes) :
    readWord negative (s ++ t) = .ok (w, rest ++ t) := by
  revert h
  fun_cases readWord negative s with
  | case3 n s' hnumber w' hword =>
    intro h
    obtain ⟨rfl, rfl⟩ := Prod.mk.inj (Except.ok.inj h)
    simp only [readWord, readNumber_append hnumber hrest, hword]
  | _ => simp

theorem readInteger_append {s rest : Bytes} {n : Int64} (h : readInteger s = .ok (n, rest))
    (hrest : rest ≠ []) (t : Bytes) : readInteger (s ++ t) = .ok (n, rest ++ t) := by
  revert h
  fun_cases readInteger s with
  | case2 s' hblanks =>
    -- A minus comes first.
    intro h
    rw [readInteger, skipBlanks_append hblanks]
    exact (if_pos rfl).trans (readWord_append h hrest t)
  | case3 b s' hblanks hminus hdigit =>
    intro h
    rw [readInteger, skipBlanks_append hblanks]
    simp only [hminus, hdigit, if_false, if_true]
    exact readWord_append h hrest t
  | _ => simp

theorem readText_append {s rest : Bytes} {text : String} (h : readText s = .ok (text, rest))
    (t : Bytes) : readText (s ++ t) = .ok (text, rest ++ t) := by
  revert h
  fun_cases readText s with
  | case2 s' hblanks =>
    intro h
    rw [readText, skipBlanks_append hblanks]
    exact (if_pos rfl).trans (readString_append h t)
  | _ => simp

/-! ## Values that are passed over -/

theorem readColon_append {s rest : Bytes} (h : readColon s = .ok rest) (t : Bytes) :
    readColon (s ++ t) = .ok (rest ++ t) := by
  revert h
  fun_cases readColon s with
  | case2 s' hblanks =>
    intro h
    obtain rfl := Except.ok.inj h
    rw [readColon, skipBlanks_append hblanks]
    exact if_pos rfl
  | _ => simp

theorem skipKey_append {s rest : Bytes} (h : skipKey s = .ok rest) (t : Bytes) :
    skipKey (s ++ t) = .ok (rest ++ t) := by
  revert h
  fun_cases skipKey s with
  | case3 s' s'' hstring hblanks =>
    intro h
    simp only [skipKey, skipBlanks_append hblanks, if_true, skipString_append hstring,
      readColon_append h]
  | _ => simp

theorem skipEntryStart_append {bracket : Bracket} {s rest : Bytes}
    (h : skipEntryStart bracket s = .ok rest) (t : Bytes) :
    skipEntryStart bracket (s ++ t) = .ok (rest ++ t) := by
  cases bracket with
  | list =>
    obtain rfl := Except.ok.inj h
    rfl
  | object => exact skipKey_append h t

theorem skipScalar_append {b : UInt8} {s rest : Bytes} (h : skipScalar b s = .ok rest)
    (hrest : rest ≠ []) (t : Bytes) : skipScalar b (s ++ t) = .ok (rest ++ t) := by
  unfold skipScalar at h ⊢
  split at h
  · next hb => rw [if_pos hb, expect_append h]
  next hn =>
  rw [if_neg hn]
  split at h
  · next hb => rw [if_pos hb, expect_append h]
  next ht =>
  rw [if_neg ht]
  split at h
  · next hb => rw [if_pos hb, expect_append h]
  next hf =>
  rw [if_neg hf]
  split at h
  · next hb => rw [if_pos hb, skipNumber_append h hrest]
  next hminus =>
  rw [if_neg hminus]
  split at h
  · next hb => rw [if_pos hb, ← List.cons_append, skipNumber_append h hrest]
  next hdigit =>
  rw [if_neg hdigit]
  split at h
  · next hb => rw [if_pos hb, skipString_append h]
  · simp at h

/-- A value that is passed over ends in the same place with more bytes, if a byte follows it. -/
theorem skip_append {stage : Stage} {stack : List Bracket} {s rest : Bytes}
    (h : skip stage stack s = .ok rest) (hrest : rest ≠ []) (t : Bytes) :
    skip stage stack (s ++ t) = .ok (rest ++ t) := by
  fun_induction skip stage stack s with
  | case2 s stack s' hblanks ih =>
    -- A list opens, or else an object.
    rw [skip_value, skipBlanks_append hblanks]
    exact (if_pos rfl).trans (ih h)
  | case3 s stack s' hblanks hlist ih =>
    rw [skip_value, skipBlanks_append hblanks]
    simp only [hlist, if_false, if_true, ih h]
  | case5 s stack b s' hblanks hlist hobject s'' hscalar ih =>
    -- A value inside of brackets is followed by what closes them.
    have hs'' : s'' ≠ [] := by
      rintro rfl
      exact hrest (List.eq_nil_of_length_eq_zero (Nat.le_zero.mp (length_of_skip h)))
    rw [skip_value, skipBlanks_append hblanks]
    simp only [hlist, hobject, if_false, skipScalar_append hscalar hs'', ih h]
  | case6 s fresh =>
    -- No bracket is open.
    obtain rfl := Except.ok.inj h
    rw [skip]
  | case8 s fresh bracket stack s' hblanks ih =>
    -- The innermost bracket closes, or an entry starts: the first one, or one after a comma.
    rw [skip_inside, skipBlanks_append hblanks]
    exact (if_pos rfl).trans (ih h)
  | case10 s bracket stack b s' hblanks hclose s'' hentry ih =>
    rw [skip_inside, skipBlanks_append hblanks]
    simp only [hclose, if_false, if_true, ← List.cons_append, skipEntryStart_append hentry, ih h]
  | case12 s fresh bracket stack s' hfresh s'' hentry hblanks hclose ih =>
    rw [skip_inside, skipBlanks_append hblanks]
    simp only [hclose, hfresh, Bool.false_eq_true, if_false, if_true, skipEntryStart_append hentry,
      ih h]
  | _ => simp at h

/-! ## Objects -/

theorem readIntegerFor_append {put : Int64 → Partial} {p : Partial} {s rest : Bytes}
    (h : readIntegerFor put s = .ok (p, rest)) (hrest : rest ≠ []) (t : Bytes) :
    readIntegerFor put (s ++ t) = .ok (p, rest ++ t) := by
  revert h
  fun_cases readIntegerFor put s with
  | case1 => simp
  | case2 n s' hinteger =>
    intro h
    obtain ⟨rfl, rfl⟩ := Prod.mk.inj (Except.ok.inj h)
    simp only [readIntegerFor, readInteger_append hinteger hrest]

theorem readTextFor_append {put : String → Partial} {p : Partial} {s rest : Bytes}
    (h : readTextFor put s = .ok (p, rest)) (t : Bytes) :
    readTextFor put (s ++ t) = .ok (p, rest ++ t) := by
  revert h
  fun_cases readTextFor put s with
  | case1 => simp
  | case2 text s' htext =>
    intro h
    obtain ⟨rfl, rfl⟩ := Prod.mk.inj (Except.ok.inj h)
    simp only [readTextFor, readText_append htext]

theorem readValue_append {p p' : Partial} {m : Member} {s rest : Bytes}
    (h : readValue p m s = .ok (p', rest)) (hrest : rest ≠ []) (t : Bytes) :
    readValue p m (s ++ t) = .ok (p', rest ++ t) := by
  cases m with
  | id => exact readIntegerFor_append h hrest t
  | author => exact readTextFor_append h t
  | message => exact readTextFor_append h t
  | timestamp => exact readIntegerFor_append h hrest t

theorem readEntry_append {p p' : Partial} {key : String} {s rest : Bytes}
    (h : readEntry p key s = .ok (p', rest)) (hrest : rest ≠ []) (t : Bytes) :
    readEntry p key (s ++ t) = .ok (p', rest ++ t) := by
  revert h
  fun_cases readEntry p key s with
  | case3 m hmember hnew s' hcolon =>
    -- A member of the message.
    intro h
    simp only [readEntry, hmember, hnew, Bool.false_eq_true, if_false, readColon_append hcolon,
      readValue_append h hrest]
  | case6 hmember s' hcolon s'' hskip =>
    -- The value of another member is passed over.
    intro h
    obtain ⟨rfl, rfl⟩ := Prod.mk.inj (Except.ok.inj h)
    simp only [readEntry, hmember, readColon_append hcolon, skip_append hskip hrest]
  | _ => simp

theorem readKeyStart_append {first : Bool} {b : UInt8} {s rest : Bytes}
    (h : readKeyStart first b s = .ok rest) (t : Bytes) :
    readKeyStart first b (s ++ t) = .ok (rest ++ t) := by
  revert h
  fun_cases readKeyStart first b s with
  | case1 hfirst hquote =>
    intro h
    obtain rfl := Except.ok.inj h
    rw [readKeyStart, if_pos hfirst, if_pos hquote]
  | case4 hfirst hcomma s' hblanks =>
    intro h
    obtain rfl := Except.ok.inj h
    rw [readKeyStart, if_neg hfirst, if_pos hcomma, skipBlanks_append hblanks]
    exact if_pos rfl
  | _ => simp

theorem readNextEntry_append {p p' : Partial} {first : Bool} {b : UInt8} {s rest : Bytes}
    (h : readNextEntry p first b s = .ok (p', rest)) (hrest : rest ≠ []) (t : Bytes) :
    readNextEntry p first b (s ++ t) = .ok (p', rest ++ t) := by
  revert h
  fun_cases readNextEntry p first b s with
  | case3 s' hstart key s'' hkey =>
    intro h
    simp only [readNextEntry, readKeyStart_append hstart, readString_append hkey,
      readEntry_append h hrest]
  | _ => simp

theorem readMembers_append {p : Partial} {first : Bool} {s rest : Bytes} {msg : Message}
    (h : readMembers p first s = .ok (msg, rest)) (t : Bytes) :
    readMembers p first (s ++ t) = .ok (msg, rest ++ t) := by
  fun_induction readMembers p first s with
  | case2 p first s s' hblanks =>
    -- The members make a message, or the object is refused.
    rw [readMembers_eq, skipBlanks_append hblanks]
    simp only [if_true]
    cases hmessage : p.toMessage with
    | error e =>
      rw [hmessage] at h
      cases h
    | ok msg' =>
      rw [hmessage] at h
      obtain ⟨rfl, rfl⟩ := Prod.mk.inj (Except.ok.inj h)
      rfl
  | case4 p first s b s' hblanks hclose p' s'' hentry ih =>
    -- The closing brace of the object is still to come.
    have hs'' : s'' ≠ [] := by
      rintro rfl
      exact absurd (length_of_readMembers h) (Nat.not_lt_zero _)
    rw [readMembers_eq, skipBlanks_append hblanks]
    simp only [hclose, if_false, readNextEntry_append hentry hs'', ih h]
  | _ => simp at h

/-! ## Messages -/

/-- What comes next in a list, with more bytes after it. -/
def Next.followedBy (t : Bytes) : Next → Next
  | done rest => done (rest ++ t)
  | element s => element (s ++ t)

theorem readNext_append {first : Bool} {s : Bytes} {next : Next} (h : readNext first s = .ok next)
    (t : Bytes) : readNext first (s ++ t) = .ok (next.followedBy t) := by
  revert h
  fun_cases readNext first s with
  | case2 s' hblanks =>
    intro h
    obtain rfl := Except.ok.inj h
    rw [readNext, skipBlanks_append hblanks]
    exact if_pos rfl
  | case3 b s' hblanks hclose hfirst =>
    -- The first element has no comma before it.
    intro h
    obtain rfl := Except.ok.inj h
    rw [readNext, skipBlanks_append hblanks]
    simp only [hclose, hfirst, if_false, if_true]
    rfl
  | case6 s' hfirst b s'' hblanks' hclose' hblanks hclose =>
    intro h
    obtain rfl := Except.ok.inj h
    rw [readNext, skipBlanks_append hblanks]
    simp only [hclose, hfirst, Bool.false_eq_true, if_false, if_true, skipBlanks_append hblanks',
      hclose']
    rfl
  | _ => simp

theorem readPositional_append {α : Type} {index : Nat} {read : Bytes → Read α} {s rest : Bytes}
    {x : α}
    (hread : ∀ {s : Bytes}, read s = .ok (x, rest) → ∀ t, read (s ++ t) = .ok (x, rest ++ t))
    (h : readPositional index read s = .ok (x, rest)) (t : Bytes) :
    readPositional index read (s ++ t) = .ok (x, rest ++ t) := by
  revert h
  fun_cases readPositional index read s with
  | case3 s' hnext =>
    intro h
    rw [readPositional, readNext_append hnext]
    exact hread h t
  | _ => simp

theorem readArrayEnd_append {s rest : Bytes} (h : readArrayEnd s = .ok rest) (t : Bytes) :
    readArrayEnd (s ++ t) = .ok (rest ++ t) := by
  revert h
  fun_cases readArrayEnd s with
  | case2 s' hblanks =>
    intro h
    obtain rfl := Except.ok.inj h
    rw [readArrayEnd, skipBlanks_append hblanks]
    exact if_pos rfl
  | _ => simp

theorem readArray_append {s rest : Bytes} {msg : Message} (h : readArray s = .ok (msg, rest))
    (t : Bytes) : readArray (s ++ t) = .ok (msg, rest ++ t) := by
  obtain ⟨⟨id, s₁⟩, hid, h⟩ := ok_of_bind h
  obtain ⟨⟨author, s₂⟩, hauthor, h⟩ := ok_of_bind h
  obtain ⟨⟨text, s₃⟩, htext, h⟩ := ok_of_bind h
  obtain ⟨⟨timestamp, s₄⟩, htimestamp, h⟩ := ok_of_bind h
  obtain ⟨s₅, hend, h⟩ := ok_of_bind h
  obtain ⟨rfl, rfl⟩ := Prod.mk.inj (Except.ok.inj h)
  -- The closing bracket is still there after each of the integers.
  have hlength₄ := length_of_readArrayEnd hend
  have hlength₃ := length_of_readPositional length_of_readInteger htimestamp
  have hlength₂ := length_of_readPositional length_of_readText htext
  have hlength₁ := length_of_readPositional length_of_readText hauthor
  have hs₁ : s₁ ≠ [] := List.ne_nil_of_length_pos (by omega)
  have hs₄ : s₄ ≠ [] := List.ne_nil_of_length_pos (by omega)
  simp only [readArray, bind, Except.bind,
    readPositional_append (fun h => readInteger_append h hs₁) hid,
    readPositional_append readText_append hauthor, readPositional_append readText_append htext,
    readPositional_append (fun h => readInteger_append h hs₄) htimestamp, readArrayEnd_append hend]
  rfl

theorem readMessage_append {s rest : Bytes} {msg : Message} (h : readMessage s = .ok (msg, rest))
    (t : Bytes) : readMessage (s ++ t) = .ok (msg, rest ++ t) := by
  revert h
  fun_cases readMessage s with
  | case2 s' hblanks =>
    intro h
    rw [readMessage, skipBlanks_append hblanks]
    exact (if_pos rfl).trans (readMembers_append h t)
  | case3 s' hblanks hbrace =>
    intro h
    rw [readMessage, skipBlanks_append hblanks]
    simp only [hbrace, if_false, if_true, readArray_append h]
  | _ => simp

theorem readElements_append {read : List Message} {first : Bool} {s rest : Bytes}
    {msgs : List Message} (h : readElements read first s = .ok (msgs, rest)) (t : Bytes) :
    readElements read first (s ++ t) = .ok (msgs, rest ++ t) := by
  fun_induction readElements read first s with
  | case2 read first s s' hnext =>
    obtain ⟨rfl, rfl⟩ := Prod.mk.inj (Except.ok.inj h)
    rw [readElements_eq, readNext_append hnext]
    rfl
  | case4 read first s s' hnext msg s'' hmessage ih =>
    rw [readElements_eq, readNext_append hnext]
    simp only [Next.followedBy, readMessage_append hmessage, ih h]
  | _ => simp at h

/-- A list of messages that was read is read with any bytes after it. -/
theorem readMessages_append {s rest : Bytes} {msgs : List Message}
    (h : readMessages s = .ok (msgs, rest)) (t : Bytes) :
    readMessages (s ++ t) = .ok (msgs, rest ++ t) := by
  revert h
  fun_cases readMessages s with
  | case2 s' hblanks =>
    intro h
    rw [readMessages, skipBlanks_append hblanks]
    exact (if_pos rfl).trans (readElements_append h t)
  | _ => simp

end Guestbook.Json
