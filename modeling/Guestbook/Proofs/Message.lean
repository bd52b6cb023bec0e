import Mathlib.Data.List.Nodup
import Guestbook.Message
import Guestbook.Proofs.Word

/-!
# Sorted messages

Sorting by id is stable, so it commutes with any filter; on a list whose ids already increase it
changes nothing. A list with increasing ids is no longer than the range that its ids come from.

## Main definitions
- `IdsIncrease`: the ids of a list strictly increase

## Main statements
- `filter_mergeSort`: a stable sort commutes with a filter
- `filter_mergeSort_of_ties`: elements that tie keep their order
- `sortById_of_idsIncrease`: a list in id order is sorted
- `sortById_eq_of_perm`: a sorted list does not depend on the order it had before
- `filter_eq_drop`: the messages from an id on
- `IdsIncrease.length_le`: how many ids there are in a range
-/

namespace Guestbook

/-! ## Stable sorts -/

section StableSort

variable {α : Type} {le : α → α → Bool}

/-- What comes before the first element above `a`, in a list that has `a`'s place in it. -/
private theorem takeWhile_place {a : α} {l₁ l₂ : List α} (h₁ : ∀ b ∈ l₁, le a b = false)
    (h₂ : ∀ b ∈ l₂, le a b = true) : (l₁ ++ l₂).takeWhile (fun b => !le a b) = l₁ := by
  have hpos : ∀ b ∈ l₁, (!le a b) = true := fun b hb => by rw [h₁ b hb]; rfl
  rw [List.takeWhile_append_of_pos hpos]
  cases l₂ with
  | nil => exact List.append_nil l₁
  | cons b l₂ =>
    rw [List.takeWhile_cons_of_neg (by simp [h₂ b List.mem_cons_self]), List.append_nil]

/-- A stable sort commutes with a filter. -/
theorem filter_mergeSort (trans : ∀ a b c : α, le a b → le b c → le a c)
    (total : ∀ a b : α, le a b || le b a) (p : α → Bool) (l : List α) :
    (l.mergeSort le).filter p = (l.filter p).mergeSort le := by
  induction l with
  | nil => simp
  | cons a l ih =>
    -- The sort puts the head somewhere into the sorted tail, after everything strictly below it.
    obtain ⟨l₁, l₂, hcons, hsort, hbefore⟩ := List.mergeSort_cons trans total a l
    have hbefore' : ∀ b ∈ l₁, le a b = false := fun b hb => by simpa using hbefore b hb
    have hsorted := List.pairwise_mergeSort trans total (a :: l)
    rw [hcons] at hsorted
    have hafter : ∀ b ∈ l₂, le a b = true :=
      (List.pairwise_cons.mp (List.pairwise_append.mp hsorted).2.1).1
    rw [hsort, List.filter_append] at ih
    by_cases ha : p a
    · -- Both sorts of the filtered tail put `a` at the same place, which its order determines.
      obtain ⟨k₁, k₂, hcons', hsort', hbefore''⟩ :=
        List.mergeSort_cons trans total a (l.filter p)
      have hsorted' := List.pairwise_mergeSort trans total (a :: l.filter p)
      rw [hcons'] at hsorted'
      have hafter' : ∀ b ∈ k₂, le a b = true :=
        (List.pairwise_cons.mp (List.pairwise_append.mp hsorted').2.1).1
      rw [hsort'] at ih
      have hplace := congrArg (List.takeWhile fun b => !le a b) ih
      rw [takeWhile_place (fun b hb => hbefore' b (List.mem_filter.mp hb).1)
          (fun b hb => hafter b (List.mem_filter.mp hb).1),
        takeWhile_place (fun b hb => by simpa using hbefore'' b hb) hafter'] at hplace
      rw [hplace, List.append_cancel_left_eq] at ih
      rw [hcons, List.filter_cons_of_pos ha, hcons', List.filter_append,
        List.filter_cons_of_pos ha, hplace, ih]
    · -- The head is left out on both sides.
      rw [hcons, List.filter_append, List.filter_cons_of_neg ha, List.filter_cons_of_neg ha, ih]

/-- Elements that tie keep their order in a stable sort. -/
theorem filter_mergeSort_of_ties (trans : ∀ a b c : α, le a b → le b c → le a c)
    (total : ∀ a b : α, le a b || le b a) {p : α → Bool} (ties : ∀ a b, p a → p b → le a b)
    (l : List α) : (l.mergeSort le).filter p = l.filter p := by
  rw [filter_mergeSort trans total]
  apply List.mergeSort_of_pairwise
  rw [List.pairwise_filter]
  exact List.pairwise_of_forall fun a b ha hb => ties a b ha hb

end StableSort

namespace Message

/-! ## Sorting by a word -/

section SortByWord

variable (key : Message → Int64)

private theorem le_trans_key (a b c : Message) :
    decide (key a ≤ key b) → decide (key b ≤ key c) → decide (key a ≤ key c) := by
  simp only [decide_eq_true_eq, Int64.le_iff_toInt_le]
  omega

private theorem le_total_key (a b : Message) :
    decide (key a ≤ key b) || decide (key b ≤ key a) := by
  simp only [Bool.or_eq_true, decide_eq_true_eq, Int64.le_iff_toInt_le]
  omega

private theorem pairwise_sort (ms : List Message) :
    (ms.mergeSort fun a b => key a ≤ key b).Pairwise fun a b => key a ≤ key b := by
  have hsorted := List.pairwise_mergeSort (le_trans_key key) (le_total_key key) ms
  exact hsorted.imp fun h => of_decide_eq_true h

/-- Messages with the same word keep their order. -/
private theorem filter_eq_sort (n : Int64) (ms : List Message) :
    (ms.mergeSort fun a b => key a ≤ key b).filter (key · = n) = ms.filter (key · = n) := by
  apply filter_mergeSort_of_ties (le_trans_key key) (le_total_key key)
  intro a b ha hb
  rw [of_decide_eq_true ha, of_decide_eq_true hb, decide_eq_true_eq]
  exact Int64.le_refl n

end SortByWord

/-! ## Sorting by id -/

/-- Sorting by id commutes with a filter. -/
theorem filter_sortById (p : Message → Bool) (ms : List Message) :
    (sortById ms).filter p = sortById (ms.filter p) :=
  filter_mergeSort (le_trans_key id) (le_total_key id) p ms

theorem pairwise_sortById (ms : List Message) : (sortById ms).Pairwise fun a b => a.id ≤ b.id :=
  pairwise_sort id ms

/-- Messages that share an id keep their order. -/
theorem filter_id_sortById (n : Int64) (ms : List Message) :
    (sortById ms).filter (·.id = n) = ms.filter (·.id = n) := filter_eq_sort id n ms

@[simp] theorem length_sortById (ms : List Message) : (sortById ms).length = ms.length :=
  List.length_mergeSort ms

/-- Lists that are the same once sorted are of the same length. -/
theorem length_eq_of_sortById_eq {ms ms' : List Message} (h : sortById ms = sortById ms') :
    ms.length = ms'.length := by
  rw [← length_sortById ms, h, length_sortById]

/-- The order of messages with distinct ids is lost by sorting. -/
theorem sortById_eq_of_perm {ms ms' : List Message} (hperm : ms.Perm ms')
    (hdistinct : (ms.map Message.id).Nodup) : sortById ms = sortById ms' := by
  have hsorted : (sortById ms).Perm (sortById ms') :=
    (List.mergeSort_perm ms _).trans (hperm.trans (List.mergeSort_perm ms' _).symm)
  apply hsorted.eq_of_pairwise _ (pairwise_sortById ms) (pairwise_sortById ms')
  intro a b ha hb hab hba
  -- Two messages of which neither comes first have the same id.
  have ha' : a ∈ ms := (List.mergeSort_perm ms _).subset ha
  have hb' : b ∈ ms := hperm.symm.subset ((List.mergeSort_perm ms' _).subset hb)
  exact List.inj_on_of_nodup_map hdistinct ha' hb' (Int64.le_antisymm hab hba)

/-- The ids of a list strictly increase. -/
def IdsIncrease (ms : List Message) : Prop := ms.Pairwise fun a b => a.id < b.id

instance : DecidablePred IdsIncrease := fun ms =>
  inferInstanceAs (Decidable (ms.Pairwise fun a b => a.id < b.id))

theorem IdsIncrease.sublist {ms ms' : List Message} (h : IdsIncrease ms) (hsub : ms'.Sublist ms) :
    IdsIncrease ms' := List.Pairwise.sublist hsub h

/-- A list in id order is sorted already. -/
theorem sortById_of_idsIncrease {ms : List Message} (h : IdsIncrease ms) : sortById ms = ms := by
  refine List.mergeSort_of_pairwise (h.imp ?_)
  intro a b hlt
  rw [Int64.lt_iff_toInt_lt] at hlt
  rw [decide_eq_true_eq, Int64.le_iff_toInt_le]
  omega

/-- Of increasing ids within a range, those after the first one lie above it. -/
theorem IdsIncrease.within_tail {m : Message} {ms : List Message} (h : IdsIncrease (m :: ms))
    {low high : Int} (hrange : ∀ m' ∈ m :: ms, low ≤ m'.id.toInt ∧ m'.id.toInt ≤ high) :
    IdsIncrease ms ∧ ∀ m' ∈ ms, m.id.toInt + 1 ≤ m'.id.toInt ∧ m'.id.toInt ≤ high := by
  obtain ⟨hfirst, hrest⟩ := List.pairwise_cons.mp h
  refine ⟨hrest, ?_⟩
  intro m' hm'
  have hlt := Int64.lt_iff_toInt_lt.mp (hfirst m' hm')
  have hle := (hrange m' (List.mem_cons_of_mem m hm')).2
  omega

/-- Increasing ids of a range are no more than the range has. -/
theorem IdsIncrease.length_le {ms : List Message} (h : IdsIncrease ms) {low high : Int}
    (hrange : ∀ m ∈ ms, low ≤ m.id.toInt ∧ m.id.toInt ≤ high) (hle : low ≤ high + 1) :
    (ms.length : Int) ≤ high - low + 1 := by
  induction ms generalizing low with
  | nil =>
    rw [List.length_nil]
    omega
  | cons m ms ih =>
    have hm := hrange m List.mem_cons_self
    obtain ⟨hrest, hafter⟩ := h.within_tail hrange
    -- The rest lies above the first id, in a range that is shorter by one at least.
    have htail := ih hrest hafter (by omega)
    rw [List.length_cons]
    omega

/-- In a list in id order, the messages from an id on are its last ones. -/
theorem filter_eq_drop {ms : List Message} (hsorted : ms.Pairwise fun a b => a.id ≤ b.id)
    (low : Int64) :
    ms.filter (fun m => low ≤ m.id)
      = ms.drop (ms.length - (ms.filter fun m => low ≤ m.id).length) := by
  induction ms with
  | nil => rfl
  | cons m ms ih =>
    obtain ⟨hfirst, hrest⟩ := List.pairwise_cons.mp hsorted
    by_cases hm : low ≤ m.id
    · -- Everything after `m` has an id from `low` on as well.
      have hall : ∀ m' ∈ m :: ms, decide (low ≤ m'.id) = true := by
        intro m' hm'
        rcases List.mem_cons.mp hm' with rfl | hm'
        · exact decide_eq_true hm
        · exact decide_eq_true (Int64.le_trans hm (hfirst m' hm'))
      rw [List.filter_eq_self.mpr hall, Nat.sub_self]
      rfl
    · have hle := List.length_filter_le (fun m => decide (low ≤ m.id)) ms
      rw [List.filter_cons_of_neg (by simpa using hm), List.length_cons, Nat.succ_sub hle,
        List.drop_succ_cons]
      exact ih hrest

/-! ## Sorting by timestamp -/

theorem sortByTimestamp_perm (ms : List Message) : (sortByTimestamp ms).Perm ms :=
  List.mergeSort_perm ms _

theorem pairwise_sortByTimestamp (ms : List Message) :
    (sortByTimestamp ms).Pairwise fun a b => a.timestamp ≤ b.timestamp := pairwise_sort timestamp ms

/-- Messages of one time keep their order. -/
theorem filter_timestamp_sortByTimestamp (t : Int64) (ms : List Message) :
    (sortByTimestamp ms).filter (·.timestamp = t) = ms.filter (·.timestamp = t) :=
  filter_eq_sort timestamp t ms

/-- A list in order of time is sorted already. -/
theorem sortByTimestamp_of_pairwise {ms : List Message}
    (h : ms.Pairwise fun a b => a.timestamp ≤ b.timestamp) : sortByTimestamp ms = ms :=
  List.mergeSort_of_pairwise (h.imp fun hle => decide_eq_true hle)

end Message

end Guestbook
