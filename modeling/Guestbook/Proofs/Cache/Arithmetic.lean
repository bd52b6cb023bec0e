import Guestbook.Proofs.Cache.Eviction

/-!
# The arithmetic of costs

An offer to a cost-bounded cache takes the cost of the entry under its key off the account, adds its
own cost to see whether it fits, takes off the cost of each entry it drops, and adds its own cost
for good. The account is that of the entries, so nothing is ever taken off that is not there. The
first of the sums is the only one that a word may not hold, and no offer makes it so great exactly
if twice the budget is a word.

## Main definitions
- `LruCache.Reckons`: what each computation of an offer comes to

## Main statements
- `WithinBudget.reckons`: every offer to a cache within its budget
- `allAnswered_iff`: the budgets under which no offer goes out of range
- `reckons_of_run`: every run
- `offer_out_of_range`: an offer that goes out of range under a valid budget
-/

namespace Guestbook.LruCache

variable {c : LruCache} {budget : Cost}

/-! ## Offers -/

/-- What the computations of an offer come to, one after the other. -/
structure Reckons (c : LruCache) (e : Entry) : Prop where
  /-- The cost of an older entry under the key can be taken off. -/
  released : (release e.key c).answer = .ok ()
  /-- Making room takes off no cost that is not there. Its sums are words if the first one is. -/
  roomMade : (evict e.cost (release e.key c).state).answer =
    if totalCost (c.others e.key) + e.cost.toNat < UInt64.size then .ok ()
    else .error (.fault .addOverflow)
  /-- If the first sum is no word, nothing was dropped before it. -/
  stopsFirst : (evict e.cost (release e.key c).state).answer = .error (.fault .addOverflow) →
    (evict e.cost (release e.key c).state).state.entries = c.others e.key
  /-- Once room is made, the cost of the entry can be added. -/
  pushed : (evict e.cost (release e.key c).state).answer = .ok () →
    (push e (evict e.cost (release e.key c).state).state).answer = .ok ()
  /-- The offer goes out of range exactly if the first sum does. -/
  offer : (set e.key e.bytes e.cost c).answer =
    if c.maxCost < e.cost then .ok false
    else if totalCost (c.others e.key) + e.cost.toNat < UInt64.size then .ok true
    else .error (.fault .addOverflow)

/-- Every offer to a cache within its budget. -/
theorem WithinBudget.reckons (h : WithinBudget budget c) (e : Entry) : Reckons c e := by
  obtain ⟨hbalanced, -, hentries⟩ := h.release e.key
  rw [h.without_eq] at hentries
  have hcost : (LruCache.release e.key c).state.cost.toNat = totalCost (c.others e.key) :=
    hbalanced.trans (congrArg totalCost hentries)
  have hevict := satisfies_evict hbalanced e.cost
  rw [hcost, hentries] at hevict
  constructor
  · obtain ⟨_, hanswer, -⟩ := (satisfies_release h.balanced e.key).answers fun _ _ => id
    exact hanswer
  · cases hanswer : (evict e.cost (LruCache.release e.key c).state).answer with
    | ok _ =>
      obtain ⟨-, hlt, -⟩ := hevict.of_ok hanswer
      rw [if_pos hlt]
    | error why =>
      obtain ⟨-, rfl, hge⟩ := hevict.of_error hanswer
      rw [if_neg (Nat.not_lt.mpr hge)]
  · intro hanswer
    exact (hevict.of_error hanswer).1.2.1
  · intro hanswer
    obtain ⟨⟨hbalanced', hfirst, -⟩, hlt, -⟩ := hevict.of_ok hanswer
    -- What is left costs no more than what was there, so the second sum is no greater.
    have hless := totalCost_le_of_sublist hfirst.sublist
    rw [← hbalanced'] at hless
    have hpush := satisfies_push hbalanced' e (by omega)
    obtain ⟨_, hanswer', -⟩ := hpush.answers fun _ _ => id
    exact hanswer'
  · rw [answer_set h.balanced, h.without_eq]

/-! ## Budgets -/

/-- Two offers at the cost of the whole budget. -/
def greatestCalls (budget : Cost) : List CacheCall := [.set "a" [] budget, .set "b" [] budget]

/-- A new cache takes any offer that its budget can hold. -/
private theorem entries_set_new (key : String) (bytes : Bytes) {cost : Cost} (hle : cost ≤ budget) :
    (set key bytes cost { maxCost := budget }).state.entries = [⟨key, bytes, cost⟩] := by
  have hword : totalCost (({ maxCost := budget } : LruCache).others key) + cost.toNat
      < UInt64.size := by
    show 0 + cost.toNat < UInt64.size
    rw [Nat.zero_add]
    exact cost.toNat_lt
  obtain ⟨-, kept, dropped, hothers, -, hentries, -⟩ :=
    ((WithinBudget.new budget).keepsLastUsed key).taken bytes cost hle hword
  -- There was nothing to keep.
  have hnone : kept ++ dropped = [] := hothers.symm
  rw [hentries, (List.append_eq_nil_iff.mp hnone).1]

/-- After the first of two offers of the whole budget, the sum of both costs decides about the
second. -/
private theorem word_of_greatestCalls
    (h : CacheCall.AllAnswered ({ maxCost := budget } : LruCache) (greatestCalls budget)) :
    2 * budget.toNat < UInt64.size := by
  obtain ⟨-, ⟨reply, hreply⟩, -⟩ := h
  rw [CacheCall.state_perform_set, CacheCall.answer_perform_set] at hreply
  change (set "b" [] budget (set "a" [] budget { maxCost := budget }).state).answer.map _ = _
    at hreply
  have hheld := WithinBudget.preserves_set "a" [] budget _ (WithinBudget.new budget)
  have hoffer := (hheld.reckons ⟨"b", [], budget⟩).offer
  rw [others, entries_set_new "a" [] (Std.le_refl budget)] at hoffer
  dsimp only at hoffer
  rw [hheld.maxCost, if_neg (Std.not_lt.mpr (Std.le_refl budget))] at hoffer
  rw [hoffer] at hreply
  split at hreply
  · next hlt =>
    have htotal : totalCost ([⟨"a", [], budget⟩].filter fun e : Entry => e.key ≠ "b")
        = budget.toNat := rfl
    rw [htotal] at hlt
    omega
  · exact nomatch hreply

/-- No call of any run goes out of range exactly if twice the budget is a word. -/
theorem allAnswered_iff (budget : Cost) :
    (∀ calls, CacheCall.AllAnswered ({ maxCost := budget } : LruCache) calls)
      ↔ 2 * budget.toNat < UInt64.size := by
  constructor
  · intro h
    exact word_of_greatestCalls (h (greatestCalls budget))
  · intro hbudget calls
    exact allAnswered_of_budget (WithinBudget.new budget) hbudget calls

/-! ## Runs -/

/-- Under any valid budget and after every run, an offer goes out of range only where the cost of
the entries under other keys and its own are beyond a word together. That never happens exactly if
twice the budget is a word. -/
theorem reckons_of_run {config : CacheConfig} (hvalid : config.validate = .ok ()) :
    ∃ new, ofConfig config = .ok new ∧
      (∀ (calls : List CacheCall) (e : Entry), Reckons (CacheCall.play new calls) e) ∧
      ((∀ calls, CacheCall.AllAnswered new calls) ↔ 2 * config.maxCost.toNat < UInt64.size) := by
  refine ⟨{ maxCost := config.maxCost }, ofConfig_of_valid hvalid, ?_, allAnswered_iff _⟩
  intro calls e
  exact ((WithinBudget.new config.maxCost).play calls).reckons e

/-- The greatest budget under which no offer goes out of range. -/
def safeConfig : CacheConfig := { maxCost := 0x7FFFFFFFFFFFFFFF }

/-- At the greatest safe budget two offers of the whole budget are both taken. -/
theorem reckons_of_run_safe :
    safeConfig.validate = .ok () ∧ 2 * safeConfig.maxCost.toNat < UInt64.size ∧
      ¬ 2 * (safeConfig.maxCost + 1).toNat < UInt64.size ∧
      ∃ new, ofConfig safeConfig = .ok new ∧
        (∀ calls, CacheCall.AllAnswered new calls) ∧
        Reckons (CacheCall.play new (greatestCalls safeConfig.maxCost)) ⟨"c", [7], 7⟩ ∧
        heldKeys (CacheCall.play new (greatestCalls safeConfig.maxCost)).entries = ["b"] := by
  have hvalid : safeConfig.validate = .ok () := by decide
  have hword : 2 * safeConfig.maxCost.toNat < UInt64.size := by decide
  obtain ⟨new, hnew, hreckons, hanswered⟩ := reckons_of_run hvalid
  refine ⟨hvalid, hword, by decide, new, hnew, hanswered.mpr hword, hreckons _ _, ?_⟩
  obtain rfl := Except.ok.inj ((ofConfig_of_valid hvalid).symm.trans hnew)
  decide +kernel

/-- Under the greatest budget, which is valid, two offers of half a word each are within the budget.
The second is neither taken nor declined: the sum of both costs is beyond a word, and the first
stays. -/
theorem offer_out_of_range :
    widestConfig.validate = .ok () ∧
      ofConfig widestConfig = .ok { maxCost := widestConfig.maxCost } ∧
      (0x8000000000000000 : Cost) ≤ widestConfig.maxCost ∧
      (set "a" [1] 0x8000000000000000 { maxCost := widestConfig.maxCost }).answer = .ok true ∧
      (set "b" [2] 0x8000000000000000 (CacheCall.play { maxCost := widestConfig.maxCost }
        [.set "a" [1] 0x8000000000000000])).answer = .error (.fault .addOverflow) ∧
      Fault.addOverflow.text = "attempt to add with overflow" ∧
      heldKeys (CacheCall.play ({ maxCost := widestConfig.maxCost } : LruCache)
        [.set "a" [1] 0x8000000000000000, .set "b" [2] 0x8000000000000000]).entries = ["a"] :=
  ⟨by decide, rfl, by decide, by decide +kernel, by decide +kernel, rfl, by decide +kernel⟩

end Guestbook.LruCache
