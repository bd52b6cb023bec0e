import Mathlib.Data.List.DropRight
import Guestbook.Text.Blank

/-!
# Trimming

What trimming leaves is determined by three properties: it is the middle of the text, nothing but
blanks comes before it and after it, and it neither starts nor ends with a blank. So nothing inside
a text is touched, and nothing is left of a text only if all of it is blank.

## Main definitions
- `AllBlank`: a text has no character but blanks
- `Unpadded`: a text has no blank at either end
- `Trimmed`: a text is the middle of another, between blanks

## Main statements
- `isBlankText_iff`: what counts as a blank text
- `trimmed_iff`: trimming leaves the middle
-/

namespace Guestbook.Text

/-- Every character is a blank, if there is any. -/
def AllBlank (s : String) : Prop := ∀ c ∈ s.toList, isBlank c = true

/-! ## Characters -/

theorem trimChars_eq (cs : List Char) : trimChars cs = (cs.dropWhile isBlank).rdropWhile isBlank :=
  rfl

/-- Trimming leaves nothing of blanks, and only of them. -/
theorem trimChars_eq_nil_iff {cs : List Char} :
    trimChars cs = [] ↔ ∀ c ∈ cs, isBlank c = true := by
  rw [trimChars_eq, List.rdropWhile_eq_nil_iff]
  constructor
  · intro hblank c hc
    rw [← cs.takeWhile_append_dropWhile (p := isBlank), List.mem_append] at hc
    exact hc.elim List.mem_takeWhile_imp (hblank c)
  · exact fun hblank c hc => hblank c ((List.dropWhile_suffix isBlank).subset hc)

/-- What trimming takes away are blanks, before and after what it leaves. -/
theorem exists_append_trimChars (cs : List Char) : ∃ before after,
    cs = before ++ trimChars cs ++ after ∧ (∀ c ∈ before, isBlank c = true) ∧
      ∀ c ∈ after, isBlank c = true := by
  refine ⟨cs.takeWhile isBlank, (cs.dropWhile isBlank).rtakeWhile isBlank, ?_, ?_, ?_⟩
  · rw [trimChars_eq, List.append_assoc, List.rdropWhile_append_rtakeWhile,
      List.takeWhile_append_dropWhile]
  · exact fun c => List.mem_takeWhile_imp
  · exact fun c => List.mem_rtakeWhile_imp

/-- The first character that trimming leaves is no blank. -/
theorem isBlank_head_trimChars {cs : List Char} {c : Char} (h : (trimChars cs).head? = some c) :
    isBlank c = false := by
  -- It is where the blanks at the start end.
  obtain ⟨after, hafter⟩ : trimChars cs <+: cs.dropWhile isBlank := List.rdropWhile_prefix _ _
  have hhead : (cs.dropWhile isBlank).head? = some c := by
    rw [← hafter, List.head?_append, h]
    rfl
  have hstart := List.head?_dropWhile_not isBlank cs
  rw [hhead] at hstart
  simpa using hstart

/-- The last character that trimming leaves is no blank. -/
theorem isBlank_getLast_trimChars {cs : List Char} {c : Char}
    (h : (trimChars cs).getLast? = some c) : isBlank c = false := by
  obtain ⟨hne, rfl⟩ := List.mem_getLast?_eq_getLast h
  exact eq_false_of_ne_true (List.rdropWhile_last_not isBlank _ hne)

/-- Trimming finds the middle between blanks. -/
theorem trimChars_append {before middle after : List Char}
    (hbefore : ∀ c ∈ before, isBlank c = true) (hafter : ∀ c ∈ after, isBlank c = true)
    (hfirst : ∀ c, middle.head? = some c → isBlank c = false)
    (hlast : ∀ c, middle.getLast? = some c → isBlank c = false) :
    trimChars (before ++ middle ++ after) = middle := by
  cases middle with
  | nil =>
    rw [trimChars_eq_nil_iff, List.append_nil]
    exact fun c hc => (List.mem_append.mp hc).elim (hbefore c) (hafter c)
  | cons first rest =>
    -- The blanks at the start end at `first`, and those at the end after the last of the middle.
    have hstart : (before ++ (first :: rest) ++ after).dropWhile isBlank
        = first :: rest ++ after := by
      rw [List.append_assoc, List.dropWhile_append_of_pos hbefore, List.cons_append,
        List.dropWhile_cons_of_neg (by simp [hfirst first rfl])]
    have hend : (first :: rest ++ after).rdropWhile isBlank
        = (first :: rest).rdropWhile isBlank := by
      rw [List.rdropWhile, List.reverse_append,
        List.dropWhile_append_of_pos (by simpa using hafter)]
      rfl
    rw [trimChars_eq, hstart, hend, List.rdropWhile_eq_self_iff]
    intro hne
    simp [hlast _ (List.getLast?_eq_some_getLast hne)]

/-! ## Texts -/

/-- A text is blank if nothing is left of it. -/
theorem isBlankText_iff {s : String} : isBlankText s = true ↔ AllBlank s := by
  rw [isBlankText, List.isEmpty_iff, trimChars_eq_nil_iff]
  rfl

/-- A text neither starts nor ends with a blank. -/
structure Unpadded (s : String) : Prop where
  first : ∀ c, s.toList.head? = some c → isBlank c = false
  last : ∀ c, s.toList.getLast? = some c → isBlank c = false

/-- A text without blanks at its ends is not blank, if there is anything to it. -/
theorem Unpadded.not_allBlank {s : String} (h : Unpadded s) (hs : s ≠ "") : ¬ AllBlank s := by
  intro hblank
  cases hchars : s.toList with
  | nil => exact hs (String.toList_eq_nil_iff.mp hchars)
  | cons c cs =>
    have hfirst := h.first c (by rw [hchars]; rfl)
    have hc := hblank c (by rw [hchars]; exact List.mem_cons_self)
    exact Bool.false_ne_true (hfirst.symm.trans hc)

/-- `middle` is what is left of `s` between its first and its last character that is no blank. -/
structure Trimmed (s middle : String) : Prop extends Unpadded middle where
  within : ∃ before after, s = before ++ middle ++ after ∧ AllBlank before ∧ AllBlank after

/-- Something is left of a text that is not blank. -/
theorem Trimmed.ne_empty {s middle : String} (h : Trimmed s middle) (hs : ¬ AllBlank s) :
    middle ≠ "" := by
  rintro rfl
  obtain ⟨before, after, rfl, hbefore, hafter⟩ := h.within
  apply hs
  intro c hc
  rw [String.append_empty, String.toList_append, List.mem_append] at hc
  exact hc.elim (hbefore c) (hafter c)

theorem trimmed_trim (s : String) : Trimmed s (trim s) where
  first c hc := isBlank_head_trimChars (by simpa [trim] using hc)
  last c hc := isBlank_getLast_trimChars (by simpa [trim] using hc)
  within := by
    obtain ⟨before, after, hs, hbefore, hafter⟩ := exists_append_trimChars s.toList
    refine ⟨.ofList before, .ofList after, ?_, ?_, ?_⟩
    · rw [trim, ← String.ofList_append, ← String.ofList_append, ← hs, String.ofList_toList]
    · simpa [AllBlank] using hbefore
    · simpa [AllBlank] using hafter

/-- Trimming leaves the middle, which is determined by what it is. -/
theorem trimmed_iff {s middle : String} : Trimmed s middle ↔ middle = trim s := by
  constructor
  · intro h
    obtain ⟨before, after, rfl, hbefore, hafter⟩ := h.within
    have hchars := trimChars_append hbefore hafter h.first h.last
    rw [trim, String.toList_append, String.toList_append, hchars, String.ofList_toList]
  · rintro rfl
    exact trimmed_trim s

/-- There is nothing to trim from a text without blanks at its ends. -/
theorem Unpadded.trim_eq {s : String} (h : Unpadded s) : trim s = s := by
  have hnothing : AllBlank "" := fun c hc => nomatch hc
  exact (trimmed_iff.mp ⟨h, "", "", by simp, hnothing, hnothing⟩).symm

end Guestbook.Text
