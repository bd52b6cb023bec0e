import Guestbook.Json.Encode
import Guestbook.Json.StringLiteral
import Guestbook.Proofs.Json.Grammar

/-!
# Strings are read back

A string literal is read as the text that it spells, with its characters as they are or as escapes,
whatever follows it. What is written for a text is one of its spellings.

## Main statements
- `readString_spells`: a text in any spelling
- `spells_flatMap_escapeByte`: the spelling that is written
-/

namespace Guestbook

/-- The UTF-8 bytes of a text are bytes of a text. -/
@[simp] theorem Text.ofBytes?_toBytes (s : String) : Text.ofBytes? (Text.toBytes s) = some s := by
  show (if h : s.toByteArray.IsValidUTF8 then some (String.fromUTF8 s.toByteArray h) else none)
    = some s
  rw [dif_pos s.isValidUTF8]
  rfl

namespace Json

open Ascii

/-! ## Escapes -/

theorem readHex_codeUnit {n : Nat} {ds : Bytes} (h : CodeUnit n ds) (rest : Bytes) :
    readHex (ds ++ rest) = .ok (n, rest) := by
  obtain ⟨ha, hb, hc, hd⟩ := h
  simp only [List.cons_append, List.nil_append, readHex, ha, hb, hc, hd]

theorem simpleEscape?_of_mem {l b : UInt8} (h : (l, b) ∈ escapeLetters) :
    simpleEscape? l = some b := by
  simp only [escapeLetters, List.mem_cons, Prod.mk.injEq, List.not_mem_nil, or_false] at h
  rcases h with ⟨rfl, rfl⟩ | ⟨rfl, rfl⟩ | ⟨rfl, rfl⟩ | ⟨rfl, rfl⟩ | ⟨rfl, rfl⟩ | ⟨rfl, rfl⟩ |
    ⟨rfl, rfl⟩ | ⟨rfl, rfl⟩ <;> rfl

private theorem not_surrogate (c : Char) :
    isTrailing c.toNat = false ∧ isLeading c.toNat = false := by
  have hvalid : c.toNat < 0xD800 ∨ 0xDFFF < c.toNat := by
    rcases c.valid with h | h
    · exact .inl h
    · exact .inr h.1
  constructor
  · simp [isTrailing]
    omega
  · simp [isLeading]
    omega

/-- The escape of a character by a single code unit. -/
theorem readEscape_unit {c : Char} {ds : Bytes} (hds : CodeUnit c.toNat ds) (rest : Bytes) :
    readEscape (lowerU :: (ds ++ rest)) = .ok (Text.toBytes (String.singleton c), rest) := by
  have hsimple : simpleEscape? lowerU = none := by decide
  obtain ⟨htrailing, hleading⟩ := not_surrogate c
  have hbytes : codePointBytes c.toNat = Text.toBytes (String.singleton c) := by
    rw [codePointBytes, Char.ofNat_toNat]
  simp only [readEscape, hsimple, ne_eq, not_true_eq_false, if_false, readHex_codeUnit hds,
    htrailing, hleading, hbytes, Bool.false_eq_true]

/-- The escape of a character by a pair of surrogates. -/
theorem readEscape_pair {c : Char} {leading trailing : Nat} {ds ds' : Bytes}
    (hleading : 0xD800 ≤ leading ∧ leading ≤ 0xDBFF)
    (htrailing : 0xDC00 ≤ trailing ∧ trailing ≤ 0xDFFF)
    (hc : c.toNat = 0x10000 + (leading - 0xD800) * 1024 + (trailing - 0xDC00))
    (hds : CodeUnit leading ds) (hds' : CodeUnit trailing ds') (rest : Bytes) :
    readEscape (lowerU :: (ds ++ backslash :: lowerU :: (ds' ++ rest)))
      = .ok (Text.toBytes (String.singleton c), rest) := by
  have hsimple : simpleEscape? lowerU = none := by decide
  have hfirst : isTrailing leading = false := by
    simp [isTrailing]
    omega
  have hfirst' : isLeading leading = true := by
    simp [isLeading]
    omega
  have hsecond : isTrailing trailing = true := by
    simp [isTrailing]
    omega
  have hpair : pairCodePoint leading trailing = c.toNat := hc.symm
  have hbytes : codePointBytes (pairCodePoint leading trailing)
      = Text.toBytes (String.singleton c) := by
    rw [codePointBytes, hpair, Char.ofNat_toNat]
  simp only [readEscape, hsimple, ne_eq, not_true_eq_false, if_false, readHex_codeUnit hds, hfirst,
    hfirst', readTrailing, readHex_codeUnit hds', hsecond, hbytes, Bool.false_eq_true, if_true]

/-! ## Bytes of a string -/

/-- An escape is read as the bytes it stands for. -/
theorem readStringBytes_of_readEscape {s bs rest : Bytes} (h : readEscape s = .ok (bs, rest))
    (read : Bytes) :
    readStringBytes read (backslash :: s) = readStringBytes (bs.reverse ++ read) rest := by
  have hquote : backslash ≠ quote := by decide
  rw [readStringBytes]
  simp only [hquote, if_false, if_true]
  -- The recursion keeps the equation of the escape, so it is compared with `h` case by case.
  split
  · next heq => rw [h] at heq; exact absurd heq (by simp)
  · next heq =>
    rw [h] at heq
    obtain ⟨rfl, rfl⟩ := Prod.mk.inj (Except.ok.inj heq)
    rfl

theorem readStringBytes_simple {b c : UInt8} (hc : simpleEscape? c = some b)
    (read rest : Bytes) :
    readStringBytes read (backslash :: c :: rest) = readStringBytes (b :: read) rest := by
  have hescape : readEscape (c :: rest) = .ok ([b], rest) := by simp only [readEscape, hc]
  exact readStringBytes_of_readEscape hescape read

theorem readStringBytes_plain {b : UInt8} (hquote : b ≠ quote) (hbackslash : b ≠ backslash)
    (hspace : ¬ b < space) (read rest : Bytes) :
    readStringBytes read (b :: rest) = readStringBytes (b :: read) rest := by
  rw [readStringBytes]
  simp only [hquote, hbackslash, hspace, if_false]

/-- The bytes between the quotes are read as the text that they spell. -/
theorem readStringBytes_spells {text s : Bytes} (h : Spells text s) (read rest : Bytes) :
    readStringBytes read (s ++ quote :: rest) = .ok (read.reverse ++ text, rest) := by
  induction h generalizing read with
  | nil => rw [List.nil_append, readStringBytes, if_pos rfl, List.append_nil]
  | plain hb _ ih =>
    rw [List.cons_append, readStringBytes_plain hb.quote hb.backslash (UInt8.not_lt.mpr hb.space),
      ih, List.reverse_cons, List.append_assoc, List.singleton_append]
  | letter hl _ ih =>
    rw [List.cons_append, List.cons_append, readStringBytes_simple (simpleEscape?_of_mem hl), ih,
      List.reverse_cons, List.append_assoc, List.singleton_append]
  | unit hds _ ih =>
    rw [List.cons_append, List.cons_append, List.append_assoc,
      readStringBytes_of_readEscape (readEscape_unit hds _), ih, List.reverse_append,
      List.reverse_reverse, List.append_assoc]
  | @pair c leading trailing ds ds' text s hleading htrailing hc hds hds' _ ih =>
    have hassoc :
        (backslash :: lowerU :: (ds ++ backslash :: lowerU :: (ds' ++ s))) ++ quote :: rest
          = backslash :: lowerU ::
            (ds ++ backslash :: lowerU :: (ds' ++ (s ++ quote :: rest))) := by
      simp only [List.append_assoc, List.cons_append]
    rw [hassoc, readStringBytes_of_readEscape
      (readEscape_pair hleading htrailing hc hds hds' _), ih, List.reverse_append,
      List.reverse_reverse, List.append_assoc]

/-- A text is read from any spelling of it. -/
theorem readString_spells {text : String} {s : Bytes} (h : Spells (Text.toBytes text) s)
    (rest : Bytes) : readString (s ++ quote :: rest) = .ok (text, rest) := by
  unfold readString
  rw [readStringBytes_spells h]
  simp

/-! ## The encoding -/

theorem hexDigit?_ofHexDigit : ∀ n < 16, hexDigit? (ofHexDigit n) = some n := by decide

theorem codePointBytes_control : ∀ n < 32, codePointBytes n = [UInt8.ofNat n] := by decide

/-- A byte of a text may be written as the encoding writes it. -/
theorem Spells.escapeByte {text s : Bytes} (b : UInt8) (hs : Spells text s) :
    Spells (b :: text) (escapeByte b ++ s) := by
  have hletter : ∀ {l}, (l, b) ∈ escapeLetters → Spells (b :: text) ([backslash, l] ++ s) :=
    fun hl => .letter hl hs
  unfold Json.escapeByte
  -- Seven bytes have a short escape.
  split
  · next h => subst h; exact hletter (by decide)
  split
  · next h => subst h; exact hletter (by decide)
  split
  · next h => subst h; exact hletter (by decide)
  split
  · next h => subst h; exact hletter (by decide)
  split
  · next h => subst h; exact hletter (by decide)
  split
  · next h => subst h; exact hletter (by decide)
  split
  · next h => subst h; exact hletter (by decide)
  split
  · -- Any other control character is written by its code.
    next h =>
    have hb : b.toNat < 32 := UInt8.lt_iff_toNat_lt.mp h
    have htext : Text.toBytes (String.singleton (Char.ofNat b.toNat)) = [b] :=
      (codePointBytes_control _ hb).trans (by rw [UInt8.ofNat_toNat])
    have hcode : ∀ n < 32, (Char.ofNat n).toNat = n := by decide
    have hunit : CodeUnit (Char.ofNat b.toNat).toNat
        [zero, zero, ofHexDigit (b.toNat / 16), ofHexDigit (b.toNat % 16)] := by
      have hdigits := CodeUnit.mk (a := zero) (b := zero) (w := 0) (x := 0) (by decide) (by decide)
        (hexDigit?_ofHexDigit (b.toNat / 16) (by omega))
        (hexDigit?_ofHexDigit (b.toNat % 16) (by omega))
      have hsum : 0 * 4096 + 0 * 256 + b.toNat / 16 * 16 + b.toNat % 16 = b.toNat := by omega
      rw [hcode _ hb]
      rwa [hsum] at hdigits
    have hspells := Spells.unit hunit hs
    rwa [htext] at hspells
  · -- What is left stands for itself.
    next hquote hbackslash _ _ _ _ _ hspace =>
    exact .plain ⟨hquote, hbackslash, UInt8.not_lt.mp hspace⟩ hs

/-- The encoding of a text spells it. -/
theorem spells_flatMap_escapeByte (text : Bytes) :
    Spells text (text.flatMap escapeByte) := by
  induction text with
  | nil => exact .nil
  | cons b text ih => exact List.flatMap_cons ▸ ih.escapeByte b

theorem spellsText_quoted (text : String) : SpellsText text (quoted text) :=
  .mk (spells_flatMap_escapeByte _)

end Json

end Guestbook
