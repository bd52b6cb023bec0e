import Guestbook.Proofs.Json.Stability

/-!
# Encodings whose end shows

An encoding decodes neither when it is cut short nor when anything but blanks follows it. A cut list
that decoded would be read the same with the missing bytes after it, but then nothing is left.

## Main definitions
- `SelfDelimiting`: an encoding whose end shows
- `Damaged`: an encoding that was cut short, or that has more than blanks after it

## Main statements
- `selfDelimiting_encodings`: messages and lists of messages
- `Damaged.refused`: a damaged encoding does not decode
- `eq_of_decodes`: what is left of an encoding never decodes to another list
-/

namespace Guestbook.Json

open Ascii

theorem isBlank_iff {b : UInt8} :
    isBlank b = true ↔ b = space ∨ b = tab ∨ b = lineFeed ∨ b = carriageReturn := by
  simp [isBlank, or_assoc]

/-- Nothing is left after the blanks of bytes that are all blank. -/
theorem isEmpty_skipBlanks_iff {s : Bytes} :
    (skipBlanks s).isEmpty = true ↔ ∀ b ∈ s, isBlank b = true := by
  induction s with
  | nil => simp [skipBlanks]
  | cons b s ih =>
    rw [skipBlanks, List.dropWhile_cons, List.forall_mem_cons]
    split
    · next hb => exact ih.trans (and_iff_right hb).symm
    · next hb => exact iff_of_false (by simp) fun h => hb h.1

/-- An encoding that is refused when it is cut short, and that may be followed by blanks and nothing
else. -/
structure SelfDelimiting {α : Type} (encode : α → Bytes) (decode : Bytes → Except DecodeError α) :
    Prop where
  cut : ∀ x part, part <+: encode x → part ≠ encode x → ∃ e, decode part = .error e
  followed : ∀ x s y, decode (encode x ++ s) = .ok y ↔
    (∀ b ∈ s, b = space ∨ b = tab ∨ b = lineFeed ∨ b = carriageReturn) ∧ y = x

/-- What is read back whatever follows it, by a reader that sees where it ends. -/
theorem SelfDelimiting.of_reads {α : Type} {encode : α → Bytes} {read : Bytes → Read α}
    (hreads : ∀ x rest, read (encode x ++ rest) = .ok (x, rest))
    (happend : ∀ {s rest x}, read s = .ok (x, rest) → ∀ t, read (s ++ t) = .ok (x, rest ++ t)) :
    SelfDelimiting encode fun s => finish (read s) where
  cut := by
    rintro x part ⟨missing, hmissing⟩ hpart
    cases hread : read part with
    | error e => exact ⟨e, rfl⟩
    | ok result =>
      -- With the missing bytes the whole encoding is read, and nothing is left of it.
      have hwhole := happend hread missing
      have hreads' := hreads x []
      rw [List.append_nil] at hreads'
      rw [hmissing, hreads'] at hwhole
      have hnil : result.2 ++ missing = [] := (Prod.mk.inj (Except.ok.inj hwhole)).2.symm
      rw [(List.append_eq_nil_iff.mp hnil).2, List.append_nil] at hmissing
      exact absurd hmissing hpart
  followed x s y := by
    simp only [hreads, finish, ← isBlank_iff, ← isEmpty_skipBlanks_iff]
    split
    · next hblank =>
      rw [Except.ok.injEq]
      exact ⟨fun h => ⟨hblank, h.symm⟩, fun h => h.2.symm⟩
    · next hmore =>
      refine iff_of_false ?_ fun h => hmore h.1
      intro h
      cases h

/-- The end of every message and of every list of messages shows. -/
theorem selfDelimiting_encodings :
    SelfDelimiting encodeMessage decodeMessage ∧ SelfDelimiting encodeMessages decodeMessages :=
  ⟨.of_reads readMessage_encodeMessage readMessage_append,
    .of_reads readMessages_encodeMessages readMessages_append⟩

/-- The bytes are the encoding of `msgs` cut short, or they go on after it with more than blanks. -/
inductive Damaged (msgs : List Message) : Bytes → Prop where
  | cut {part : Bytes} : part <+: encodeMessages msgs → part ≠ encodeMessages msgs →
    Damaged msgs part
  | followed {s : Bytes} {b : UInt8} : b ∈ s → isBlank b = false →
    Damaged msgs (encodeMessages msgs ++ s)

/-- An encoding that lost its last byte is damaged. -/
theorem Damaged.dropLast (msgs : List Message) : Damaged msgs (encodeMessages msgs).dropLast := by
  apply Damaged.cut (List.dropLast_prefix _)
  intro heq
  -- There is a byte to lose, an opening bracket at least.
  have hlength := congrArg List.length heq
  rw [List.length_dropLast, encodeMessages, List.length_cons] at hlength
  omega

/-- A damaged encoding decodes to no list at all. -/
theorem Damaged.refused {msgs : List Message} {bytes : Bytes} (h : Damaged msgs bytes) :
    ∃ e, decodeMessages bytes = .error e := by
  obtain ⟨-, hlists⟩ := selfDelimiting_encodings
  cases h with
  | cut hpart hne => exact hlists.cut msgs bytes hpart hne
  | @followed s b hb hblank =>
    cases hdecode : decodeMessages (encodeMessages msgs ++ s) with
    | error e => exact ⟨e, rfl⟩
    | ok msgs' =>
      have hblank' := isBlank_iff.mpr (((hlists.followed _ _ _).mp hdecode).1 b hb)
      exact absurd (hblank.symm.trans hblank') (by decide)

/-- Part of an encoding, or bytes that start with it, decode to what was encoded or not at all. -/
theorem eq_of_decodes {msgs msgs' : List Message} {bytes : Bytes}
    (h : bytes <+: encodeMessages msgs ∨ encodeMessages msgs <+: bytes)
    (hdecode : decodeMessages bytes = .ok msgs') : msgs' = msgs := by
  obtain ⟨-, hlists⟩ := selfDelimiting_encodings
  rcases h with hpart | ⟨s, rfl⟩
  · by_cases hwhole : bytes = encodeMessages msgs
    · rw [hwhole, decodeMessages_encodeMessages] at hdecode
      exact (Except.ok.inj hdecode).symm
    · obtain ⟨e, hrefused⟩ := hlists.cut msgs bytes hpart hwhole
      exact nomatch hrefused.symm.trans hdecode
  · exact ((hlists.followed msgs s msgs').mp hdecode).2

end Guestbook.Json
