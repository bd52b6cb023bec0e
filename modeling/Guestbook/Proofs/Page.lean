import Guestbook.Page
import Guestbook.Proofs.Text.Decimal
import Guestbook.Proofs.Word

/-!
# Keys and windows of pages

Every page has a key of its own, which is not the key of the full list. A page is refused unless its
number and its size are positive. The window of a page within the board is a block of as many ids as
the page holds; any later page is the last one. The blocks stand one after the other from id zero,
and what they leave out at the end is less than a block.

## Main definitions
- `PageWindow.Holds`: an id within a window
- `PageWindow.Tiles`: how the windows of all pages lie

## Main statements
- `key_inj`, `key_ne_allMessagesKey`, `keys_never_collide`: keys never collide
- `valid_iff`, `valid_iff_toInt`: the pages that are not refused
- `PageWindow.of_regular`, `PageWindow.of_last`, `PageWindow.of_cases`: the window of a page
- `PageWindow.tiles`: the windows tile the ids of the regular pages
-/

namespace Guestbook

namespace Page

open Text.Decimal

/-! ## Keys -/

/-- What stands before a separator that neither part holds is the same in equal lists. -/
private theorem append_cons_inj {l l' r r' : List Char} {c : Char} (hl : c ∉ l) (hl' : c ∉ l')
    (h : l ++ c :: r = l' ++ c :: r') : l = l' ∧ r = r' := by
  induction l generalizing l' with
  | nil =>
    cases l' with
    | nil => exact ⟨rfl, (List.cons.inj h).2⟩
    | cons d l' =>
      -- The separator would be an element of the other part.
      exact absurd ((List.cons.inj h).1 ▸ List.mem_cons_self) hl'
  | cons d l ih =>
    cases l' with
    | nil => exact absurd ((List.cons.inj h).1 ▸ List.mem_cons_self) hl
    | cons d' l' =>
      obtain ⟨rfl, htail⟩ := List.cons.inj h
      rw [List.mem_cons, not_or] at hl hl'
      obtain ⟨rfl, rfl⟩ := ih hl.2 hl'.2 htail
      exact ⟨rfl, rfl⟩

private theorem toList_key (page size : Int64) :
    (key page size).toList
      = "messages::".toList ++ (intChars page.toInt ++ ':' :: ':' :: intChars size.toInt) := by
  simp only [key, intText, String.toList_append, String.toList_ofList, List.append_assoc]
  rfl

/-- Pages with the same key are the same page. -/
theorem key_inj {page size page' size' : Int64} (h : key page size = key page' size') :
    page = page' ∧ size = size' := by
  have hlist := congrArg String.toList h
  rw [toList_key, toList_key, List.append_cancel_left_eq] at hlist
  -- A number has no colon, so the first colon ends the number of the page.
  obtain ⟨hpage, hrest⟩ :=
    append_cons_inj (colon_not_mem_intChars _) (colon_not_mem_intChars _) hlist
  have hsize := (List.cons.inj hrest).2
  exact ⟨Int64.toInt.inj (intChars_injective hpage), Int64.toInt.inj (intChars_injective hsize)⟩

/-- No page has the key of the full list. -/
theorem key_ne_allMessagesKey (page size : Int64) : key page size ≠ allMessagesKey := by
  intro h
  have hlist := congrArg String.toList h
  rw [toList_key] at hlist
  -- The keys differ in their first character.
  exact absurd (List.cons.inj hlist).1 (by decide)

/-- No two lists share a key: a key is that of one page number and one size, and never that of the
full list. -/
theorem keys_never_collide (page size page' size' : Int64) :
    (key page size = key page' size' ↔ page = page' ∧ size = size') ∧
      key page size ≠ allMessagesKey := by
  refine ⟨⟨key_inj, ?_⟩, key_ne_allMessagesKey page size⟩
  rintro ⟨rfl, rfl⟩
  rfl

/-- The separator keeps the two numbers apart, and the sign with its number. -/
example : key 1 11 = "messages::1::11" ∧ key 11 1 = "messages::11::1" ∧
    key (-9223372036854775808) (-1) = "messages::-9223372036854775808::-1" := by decide +kernel

/-! ## Valid requests -/

/-- A page that is not refused has a number and a size from one on. -/
theorem valid_iff {number size : Int64} :
    ¬ (number < 1 ∨ size < 1) ↔ 1 ≤ number ∧ 1 ≤ size := by
  rw [not_or, Int64.not_lt, Int64.not_lt]

theorem valid_iff_toInt {number size : Int64} :
    ¬ (number < 1 ∨ size < 1) ↔ 1 ≤ number.toInt ∧ 1 ≤ size.toInt := by
  rw [valid_iff, Int64.le_iff_toInt_le, Int64.le_iff_toInt_le, Word.toInt_one]

end Page

/-! ## Windows -/

namespace PageWindow

variable {page size total : Int64}

/-- The number of regular pages and one more, if a word holds it. -/
private theorem add_regular {regular : Int64} (h : regular.toInt < Word.greatest)
    (hnonneg : 0 ≤ regular.toInt) :
    ∃ pages, Word.add regular 1 = .ok pages ∧ pages.toInt = regular.toInt + 1 := by
  have := Word.add_of_mem (a := regular) (b := 1)
  simp only [Word.toInt_one, Word.least] at this
  exact this (by omega) (by omega)

/-- The blocks up to a regular page end within the total. -/
private theorem end_le (hsize : 1 ≤ size.toInt) (hpage : page.toInt ≤ total.toInt / size.toInt) :
    page.toInt * size.toInt ≤ total.toInt :=
  calc page.toInt * size.toInt
      ≤ total.toInt / size.toInt * size.toInt := Int.mul_le_mul_of_nonneg_right hpage (by omega)
    _ ≤ total.toInt := Int.ediv_mul_le _ (by omega)

/-- The window of a page past the regular ones. -/
theorem of_last (htotal : 0 ≤ total.toInt) (hsize : 1 ≤ size.toInt)
    (hfits : total.toInt / size.toInt < Word.greatest)
    (hpage : total.toInt / size.toInt < page.toInt) : of page size total = .ok .last := by
  obtain ⟨regular, hregular, hvalue⟩ := Word.div_of_mem (b := size) htotal (by omega)
  have hnonneg : 0 ≤ regular.toInt := hvalue ▸ Int.ediv_nonneg htotal (by omega)
  obtain ⟨pages, hpages, hpagesValue⟩ := add_regular (hvalue ▸ hfits) hnonneg
  -- The last page is the one after the regular ones, and so is every page behind it.
  have hle : pages ≤ page := by
    rw [Int64.le_iff_toInt_le, hpagesValue, hvalue]
    omega
  simp only [of, hregular, hpages, hle, bind, Except.bind, if_true]
  rfl

/-- The window of a regular page: the ids of its block, counted from zero. -/
theorem of_regular (htotal : 0 ≤ total.toInt) (hsize : 1 ≤ size.toInt)
    (hfits : total.toInt / size.toInt < Word.greatest) (hfirst : 1 ≤ page.toInt)
    (hpage : page.toInt ≤ total.toInt / size.toInt) :
    ∃ low high, of page size total = .ok (.ids low high) ∧
      low.toInt = (page.toInt - 1) * size.toInt ∧ high.toInt = page.toInt * size.toInt - 1 := by
  obtain ⟨regular, hregular, hvalue⟩ := Word.div_of_mem (b := size) htotal (by omega)
  have hnonneg : 0 ≤ regular.toInt := hvalue ▸ Int.ediv_nonneg htotal (by omega)
  obtain ⟨pages, hpages, hpagesValue⟩ := add_regular (hvalue ▸ hfits) hnonneg
  have hlt : ¬ pages ≤ page := by
    rw [Int64.le_iff_toInt_le, hpagesValue, hvalue]
    omega
  -- So no step of the arithmetic of its block overflows.
  have hend := end_le hsize hpage
  have hstart : (page.toInt - 1) * size.toInt = page.toInt * size.toInt - size.toInt := by
    rw [Int.sub_mul, Int.one_mul]
  have hstartNonneg : 0 ≤ (page.toInt - 1) * size.toInt :=
    Int.mul_nonneg (by omega) (by omega)
  have hgreatest := Word.le_greatest total
  have hleast : Word.least ≤ 0 := by decide
  have hpageGreatest := Word.le_greatest page
  obtain ⟨before, hbefore, hbeforeValue⟩ := Word.sub_of_mem (a := page) (b := 1)
    (by rw [Word.toInt_one]; omega) (by rw [Word.toInt_one]; omega)
  rw [Word.toInt_one] at hbeforeValue
  obtain ⟨low, hlow, hlowValue⟩ := Word.mul_of_mem (a := before) (b := size)
    (by rw [hbeforeValue]; omega) (by rw [hbeforeValue]; omega)
  rw [hbeforeValue] at hlowValue
  obtain ⟨past, hpast, hpastValue⟩ := Word.add_of_mem (a := low) (b := size)
    (by omega) (by omega)
  obtain ⟨high, hhigh, hhighValue⟩ := Word.sub_of_mem (a := past) (b := 1)
    (by rw [Word.toInt_one]; omega) (by rw [Word.toInt_one]; omega)
  rw [Word.toInt_one] at hhighValue
  refine ⟨low, high, ?_, hlowValue, by omega⟩
  simp only [of, hregular, hpages, hlt, hbefore, hlow, hpast, hhigh, bind, Except.bind, if_false]
  rfl

/-- The number of pages of a board with the greatest number of messages is beyond a word when each
page holds one of them. -/
theorem of_overflow (htotal : 0 ≤ total.toInt) (hsize : 1 ≤ size.toInt)
    (hfits : Word.greatest ≤ total.toInt / size.toInt) :
    of page size total = .error .addOverflow := by
  obtain ⟨regular, hregular, hvalue⟩ := Word.div_of_mem (b := size) htotal (by omega)
  -- The division is in range, but one more than its result is not.
  have hpages : Word.add regular 1 = .error .addOverflow := by
    apply Word.add_of_lt
    rw [Word.toInt_one, hvalue]
    omega
  simp only [of, hregular, hpages, bind, Except.bind]

/-- A page past the regular ones is the last page. Any other has a block of ids, if a word numbers
the pages. -/
theorem of_cases (htotal : 0 ≤ total.toInt) (hsize : 1 ≤ size.toInt) (hpage : 1 ≤ page.toInt) :
    (total.toInt / size.toInt < page.toInt ∧ of page size total = .ok .last) ∨
      page.toInt ≤ total.toInt / size.toInt ∧
        ((∃ low high, of page size total = .ok (.ids low high)) ∨
          of page size total = .error .addOverflow) := by
  have hgreatest := Word.le_greatest page
  by_cases hlast : total.toInt / size.toInt < page.toInt
  · exact .inl ⟨hlast, of_last htotal hsize (by omega) hlast⟩
  · refine .inr ⟨by omega, ?_⟩
    by_cases hfits : total.toInt / size.toInt < Word.greatest
    · obtain ⟨low, high, hwindow, -⟩ := of_regular htotal hsize hfits hpage (by omega)
      exact .inl ⟨low, high, hwindow⟩
    · exact .inr (of_overflow htotal hsize (by omega))

/-! ## Tiling -/

/-- An id lies within a block. -/
def Holds (id : Int) : PageWindow → Prop
  | ids low high => low.toInt ≤ id ∧ id ≤ high.toInt
  | last => False

/-- The windows of the pages of a board tile its ids, up to the rest for the last page. -/
structure Tiles (size total : Int64) : Prop where
  /-- The window of any page is answered. -/
  answers : ∀ page : Int64, 1 ≤ page.toInt → ∃ window, of page size total = .ok window
  /-- The pages past the regular ones are the last page, and no others. -/
  last_iff : ∀ page : Int64, 1 ≤ page.toInt →
    (of page size total = .ok .last ↔ total.toInt / size.toInt < page.toInt)
  /-- A block has as many ids as the page holds, all of them ids of the board. -/
  block : ∀ (page low high : Int64), 1 ≤ page.toInt → of page size total = .ok (.ids low high) →
    0 ≤ low.toInt ∧ high.toInt - low.toInt + 1 = size.toInt ∧ high.toInt ≤ total.toInt - 1
  /-- The first block starts at id zero. -/
  first : ∀ low high : Int64, of 1 size total = .ok (.ids low high) → low.toInt = 0
  /-- The next block starts where a block ends. -/
  next : ∀ page low high page' low' high' : Int64, 1 ≤ page.toInt →
    page'.toInt = page.toInt + 1 → of page size total = .ok (.ids low high) →
    of page' size total = .ok (.ids low' high') → low'.toInt = high.toInt + 1
  /-- The ids of the regular pages are those that some window holds. -/
  covers : ∀ id : Int, (0 ≤ id ∧ id ≤ size.toInt * (total.toInt / size.toInt) - 1) ↔
    ∃ page window, 1 ≤ page.toInt ∧ of page size total = .ok window ∧ window.Holds id
  /-- No two windows hold the same id. -/
  disjoint : ∀ (id : Int) (page page' : Int64) (window window' : PageWindow), 1 ≤ page.toInt →
    1 ≤ page'.toInt → of page size total = .ok window → of page' size total = .ok window' →
    window.Holds id → window'.Holds id → page = page'
  /-- What the regular pages leave out is less than a page. -/
  rest : 0 ≤ total.toInt - size.toInt * (total.toInt / size.toInt) ∧
    total.toInt - size.toInt * (total.toInt / size.toInt) < size.toInt

section

variable (htotal : 0 ≤ total.toInt) (hsize : 1 ≤ size.toInt)
  (hfits : total.toInt / size.toInt < Word.greatest)
include htotal hsize hfits

/-- Only the pages past the regular ones are the last page. -/
private theorem lt_of_last (hfirst : 1 ≤ page.toInt) (hwindow : of page size total = .ok .last) :
    total.toInt / size.toInt < page.toInt := by
  by_cases hlast : total.toInt / size.toInt < page.toInt
  · exact hlast
  · obtain ⟨low, high, hids, -⟩ := of_regular htotal hsize hfits hfirst (by omega)
    rw [hids] at hwindow
    exact nomatch hwindow

/-- A window that is a block is that of a regular page. -/
private theorem of_ids {low high : Int64} (hfirst : 1 ≤ page.toInt)
    (hwindow : of page size total = .ok (.ids low high)) :
    page.toInt ≤ total.toInt / size.toInt ∧ low.toInt = (page.toInt - 1) * size.toInt ∧
      high.toInt = page.toInt * size.toInt - 1 := by
  by_cases hlast : total.toInt / size.toInt < page.toInt
  · rw [of_last htotal hsize hfits hlast] at hwindow
    exact nomatch hwindow
  · obtain ⟨low', high', hregular, hlow, hhigh⟩ :=
      of_regular htotal hsize hfits hfirst (by omega)
    rw [hregular] at hwindow
    cases hwindow
    exact ⟨by omega, hlow, hhigh⟩

/-- A window holds the ids whose quotient by the size is the number of pages before it. -/
private theorem holds_iff {window : PageWindow} {id : Int} (hfirst : 1 ≤ page.toInt)
    (hwindow : of page size total = .ok window) :
    window.Holds id ↔ page.toInt ≤ total.toInt / size.toInt ∧ id / size.toInt = page.toInt - 1 := by
  cases window with
  | last =>
    have hlast := lt_of_last htotal hsize hfits hfirst hwindow
    simp only [Holds, false_iff]
    omega
  | ids low high =>
    obtain ⟨hregular, hlow, hhigh⟩ := of_ids htotal hsize hfits hfirst hwindow
    have hquotient := Int.ediv_emod_unique (a := id) (r := id - size.toInt * (page.toInt - 1))
      (q := page.toInt - 1) (show 0 < size.toInt by omega)
    have hblock : size.toInt * (page.toInt - 1) = page.toInt * size.toInt - size.toInt := by
      rw [Int.mul_sub, Int.mul_one, Int.mul_comm]
    rw [Int.mul_comm] at hlow
    simp only [Holds, hregular, true_and]
    constructor
    · intro hholds
      exact (hquotient.mpr ⟨by omega, by omega, by omega⟩).1
    · intro hdiv
      have hmod := Int.emod_def id size.toInt
      rw [hdiv] at hmod
      have hnonneg := Int.emod_nonneg id (show size.toInt ≠ 0 by omega)
      have hlt := Int.emod_lt_of_pos id (show 0 < size.toInt by omega)
      omega

/-- A block lies within the ids of the board. -/
private theorem within_of_ids {low high : Int64} (hfirst : 1 ≤ page.toInt)
    (hwindow : of page size total = .ok (.ids low high)) :
    0 ≤ low.toInt ∧ high.toInt - low.toInt + 1 = size.toInt ∧ high.toInt ≤ total.toInt - 1 := by
  obtain ⟨hregular, hlow, hhigh⟩ := of_ids htotal hsize hfits hfirst hwindow
  have hstart : 0 ≤ (page.toInt - 1) * size.toInt := Int.mul_nonneg (by omega) (by omega)
  have hend := end_le hsize hregular
  rw [Int.sub_mul, Int.one_mul] at hlow hstart
  omega

/-- Every id of the regular pages is held by the window of one of them. -/
private theorem exists_holds {id : Int} (hnonneg : 0 ≤ id)
    (hbelow : id < size.toInt * (total.toInt / size.toInt)) :
    ∃ page window, 1 ≤ page.toInt ∧ of page size total = .ok window ∧ window.Holds id := by
  have hpositive : 0 < size.toInt := by omega
  -- The page of an id is numbered one past its quotient by the size.
  have hquotient : id / size.toInt < total.toInt / size.toInt :=
    Int.ediv_lt_of_lt_mul hpositive (by rwa [Int.mul_comm])
  have hquotientNonneg := Int.ediv_nonneg hnonneg (Int.le_of_lt hpositive)
  obtain ⟨page, -, hpage⟩ := Word.ofInt_of_mem .addOverflow (n := id / size.toInt + 1)
    (by simp only [Word.least]; omega) (by omega)
  obtain ⟨low, high, hwindow, -⟩ :=
    @of_regular page _ _ htotal hsize hfits (by omega) (by omega)
  refine ⟨page, _, by omega, hwindow, ?_⟩
  rw [holds_iff htotal hsize hfits (by omega) hwindow]
  omega

/-- An id that a window holds is one of the regular pages. -/
private theorem mem_of_holds {window : PageWindow} {id : Int} (hfirst : 1 ≤ page.toInt)
    (hwindow : of page size total = .ok window) (hholds : window.Holds id) :
    0 ≤ id ∧ id < size.toInt * (total.toInt / size.toInt) := by
  have hpositive : 0 < size.toInt := by omega
  obtain ⟨hregular, hquotient⟩ := (holds_iff htotal hsize hfits hfirst hwindow).mp hholds
  have hdiv : 0 ≤ id / size.toInt ∧ id / size.toInt < total.toInt / size.toInt := by omega
  have hlt := Int.lt_mul_of_ediv_lt hpositive hdiv.2
  rw [Int.mul_comm] at hlt
  exact ⟨(Int.ediv_nonneg_iff_of_pos hpositive).mp hdiv.1, hlt⟩

end

/-- The windows of the pages of a board tile its ids, whatever the size of a page. -/
theorem tiles (htotal : 0 ≤ total.toInt) (hgreatest : total.toInt < Word.greatest)
    (hsize : 1 ≤ size.toInt) : Tiles size total := by
  have hfits : total.toInt / size.toInt < Word.greatest :=
    Int.lt_of_le_of_lt (Int.ediv_le_self _ htotal) hgreatest
  constructor
  case answers =>
    intro page hfirst
    by_cases hlast : total.toInt / size.toInt < page.toInt
    · exact ⟨_, of_last htotal hsize hfits hlast⟩
    · obtain ⟨low, high, hwindow, -⟩ := of_regular htotal hsize hfits hfirst (by omega)
      exact ⟨_, hwindow⟩
  case last_iff =>
    intro page hfirst
    constructor
    · exact lt_of_last htotal hsize hfits hfirst
    · exact of_last htotal hsize hfits
  case block => exact fun page low high => within_of_ids htotal hsize hfits
  case first =>
    intro low high hwindow
    obtain ⟨-, hlow, -⟩ := of_ids htotal hsize hfits (by decide) hwindow
    simpa using hlow
  case next =>
    intro page low high page' low' high' hfirst hnext hwindow hwindow'
    obtain ⟨-, -, hhigh⟩ := of_ids htotal hsize hfits hfirst hwindow
    obtain ⟨-, hlow', -⟩ := of_ids htotal hsize hfits (by omega) hwindow'
    rw [hnext, Int.add_sub_cancel] at hlow'
    omega
  case covers =>
    intro id
    constructor
    · intro hid
      exact exists_holds htotal hsize hfits hid.1 (by omega)
    · intro hid
      obtain ⟨page, window, hfirst, hwindow, hholds⟩ := hid
      obtain ⟨hnonneg, hbelow⟩ := mem_of_holds htotal hsize hfits hfirst hwindow hholds
      omega
  case disjoint =>
    intro id page page' window window' hfirst hfirst' hwindow hwindow' hholds hholds'
    have hquotient := ((holds_iff htotal hsize hfits hfirst hwindow).mp hholds).2
    have hquotient' := ((holds_iff htotal hsize hfits hfirst' hwindow').mp hholds').2
    exact Int64.toInt.inj (by omega)
  case rest =>
    have hmod := Int.emod_def total.toInt size.toInt
    have hnonneg := Int.emod_nonneg total.toInt (show size.toInt ≠ 0 by omega)
    have hlt := Int.emod_lt_of_pos total.toInt (show 0 < size.toInt by omega)
    exact ⟨by omega, by omega⟩

/-- Pages of three messages of the longest board that has a word for the number after its last. -/
theorem tiles_longest :
    (0 ≤ (9223372036854775806 : Int64).toInt ∧
      (9223372036854775806 : Int64).toInt < Word.greatest ∧ 1 ≤ (3 : Int64).toInt) ∧
    Tiles 3 9223372036854775806 :=
  ⟨by decide, tiles (by decide) (by decide) (by decide)⟩

end PageWindow

end Guestbook
