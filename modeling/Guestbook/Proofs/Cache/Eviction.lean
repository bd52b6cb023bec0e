import Guestbook.Proofs.Cache.Refinement

/-!
# What makes room

An offer that the budget can hold takes the place of the entry under its key, and of the others the
ones used last stay: the longest start of the list that fits into the budget beside the new entry,
in the same order. A look-up that hits moves its entry to the front.

## Main definitions
- `LruCache.others`: the entries under other keys
- `LruCache.LongestFit`: as many entries as fit a budget beside a new one, from the front
- `LruCache.KeepsLastUsed`: what an offer and a look-up make of the entries

## Main statements
- `suffix_kept_of_fits`: making room drops no entry more than it has to
- `satisfies_accept_longest`: what stays beside an entry that is taken
- `keepsLastUsed_of_run`: every offer and look-up after every run
-/

namespace Guestbook.LruCache

variable {c : LruCache} {budget : Cost}

/-! ## Entries under other keys -/

/-- The entries under other keys, in the order of their use. -/
def others (c : LruCache) (key : String) : List Entry := c.entries.filter fun e => e.key ≠ key

/-- With one entry under a key at most, leaving out the first leaves out all. -/
theorem without_eq_filter {entries : List Entry} (h : (heldKeys entries).Nodup) (key : String) :
    without key entries = entries.filter fun e => e.key ≠ key := by
  induction entries with
  | nil => rfl
  | cons e entries ih =>
    rw [heldKeys, List.map_cons, List.nodup_cons] at h
    rw [without_cons]
    by_cases hkey : e.key = key
    · -- No entry further on has the key.
      have hrest : ∀ e' ∈ entries, decide (e'.key ≠ key) = true := by
        intro e' he'
        rw [decide_eq_true_eq]
        intro hkey'
        rw [hkey, ← hkey'] at h
        exact h.1 (List.mem_map_of_mem he')
      rw [if_pos hkey, List.filter_cons_of_neg (by simpa using hkey),
        List.filter_eq_self.mpr hrest]
    · rw [if_neg hkey, List.filter_cons_of_pos (by simpa using hkey), ih h.2]

theorem WithinBudget.without_eq (h : WithinBudget budget c) (key : String) :
    without key c.entries = c.others key :=
  without_eq_filter h.nodup key

/-! ## The longest start that fits -/

/-- `kept` is the longest start of `entries` that fits a budget beside an incoming cost. -/
structure LongestFit (maxCost incoming : Cost) (entries kept : List Entry) : Prop where
  start : kept <+: entries
  fits : totalCost kept + incoming.toNat ≤ maxCost.toNat
  longest : ∀ other, other <+: entries → totalCost other + incoming.toNat ≤ maxCost.toNat →
    other <+: kept

/-- Making room drops no entry more than it has to: whatever end of the list fits is kept. -/
theorem suffix_kept_of_fits {maxCost incoming cost : Cost} {entries other : List Entry}
    (h : cost.toNat = totalCost entries)
    (hok : (makeRoom maxCost incoming entries cost).answer = .ok ()) (hother : other <:+ entries)
    (hfits : totalCost other + incoming.toNat ≤ maxCost.toNat) :
    other <:+ (makeRoom maxCost incoming entries cost).kept := by
  -- The induction is on the entries left; the recorded cost is theirs at every turn.
  fun_induction makeRoom maxCost incoming entries cost with
  | case1 => exact hother
  | case4 => exact hother
  | case6 e rest cost total hadd hover left hsub room ih =>
    -- The sum is over the budget, so the next entry is dropped.
    have htotal := toNat_of_add hadd
    rw [totalCost_cons] at h
    rcases List.suffix_cons_iff.mp hother with rfl | hrest
    · -- All of the entries do not fit, so one had to be dropped.
      rw [totalCost_cons] at hfits
      rw [UInt64.le_iff_toNat_le] at hover
      omega
    · obtain ⟨left', hsub', hleft⟩ := sub_of_le (a := cost) (b := e.cost) (by omega)
      obtain rfl := Except.ok.inj (hsub'.symm.trans hsub)
      exact ih (by omega) hok hrest
  | _ => simp at hok

/-- Of the entries the longest start that fits stays. -/
theorem satisfies_evict_longest (h : Balanced c) {incoming : Cost} (hle : incoming ≤ c.maxCost) :
    (evict incoming c).Satisfies
      (fun _ c' => LongestFit c.maxCost incoming c.entries c'.entries) fun _ _ => True := by
  have hreverse : c.cost.toNat = totalCost c.entries.reverse := h.trans (totalCost_reverse _).symm
  have hkept := @suffix_kept_of_fits c.maxCost incoming c.cost c.entries.reverse
  unfold evict
  generalize hroom : makeRoom c.maxCost incoming c.entries.reverse c.cost = room at hkept
  obtain ⟨hsuffix, hbalance, hanswer⟩ := makeRoom_spec hreverse hroom
  obtain ⟨answer, kept, cost, dropped⟩ := room
  rcases hanswer with ⟨rfl, -, hfits⟩ | ⟨rfl, -, -⟩
  · constructor
    · -- The list is read from its end.
      rw [← List.reverse_suffix, List.reverse_reverse]
      exact hsuffix
    · rw [totalCost_reverse]
      exact hbalance ▸ hfits hle
    · intro other hother hfits'
      rw [← List.reverse_suffix, List.reverse_reverse]
      exact hkept hreverse rfl (List.reverse_suffix.mpr hother)
        ((totalCost_reverse other).symm ▸ hfits')
  · trivial

/-- A push puts its entry first, also if its cost cannot be added. -/
theorem entries_push (e : Entry) (c : LruCache) : (push e c).state.entries = e :: c.entries := by
  unfold push
  dsimp only
  split <;> rfl

/-- An entry that is taken comes first, before as many of the others as fit beside it. -/
theorem satisfies_accept_longest (h : Balanced c) {e : Entry} (hle : e.cost ≤ c.maxCost) :
    (accept e c).Satisfies
      (fun _ c' => ∃ kept, LongestFit c.maxCost e.cost (without e.key c.entries) kept ∧
        c'.entries = e :: kept)
      fun _ _ => True := by
  unfold accept
  rw [Action.satisfies_bind]
  apply (satisfies_release h e.key).imp
  · intro _ c₁ hpost
    obtain ⟨hbalance₁, hentries₁, hmax₁⟩ := hpost
    rw [Action.satisfies_bind]
    apply (satisfies_evict_longest hbalance₁ (hmax₁.symm ▸ hle)).imp
    · intro _ c₂ hlongest
      rw [hmax₁, hentries₁] at hlongest
      rw [Action.satisfies_bind]
      have hpush : (push e c₂).Satisfies (fun _ c₃ => c₃.entries = e :: c₂.entries)
          fun _ c₃ => c₃.entries = e :: c₂.entries := .of_state (entries_push e c₂)
      apply hpush.imp
      · intro _ c₃ hentries₃
        exact ⟨c₂.entries, hlongest, hentries₃⟩
      · exact fun _ _ _ => trivial
    · exact fun _ _ _ => trivial
  · exact fun _ _ _ => trivial

/-! ## Offers and look-ups -/

/-- What an offer under a key, and a look-up of it, make of the entries. -/
structure KeepsLastUsed (c : LruCache) (key : String) : Prop where
  /-- An offer beyond the budget changes neither the entries nor their cost, an older one under the
  key included. -/
  declined : ∀ bytes cost, c.maxCost < cost →
    (set key bytes cost c).answer = .ok false ∧ (set key bytes cost c).state.entries = c.entries ∧
      (set key bytes cost c).state.cost = c.cost
  /-- Any other offer is taken if no sum of costs is beyond a word. Of the entries under other keys
  the longest start that fits beside it stays, and the rest are counted as dropped. -/
  taken : ∀ bytes cost, cost ≤ c.maxCost →
    totalCost (c.others key) + cost.toNat < UInt64.size →
      (set key bytes cost c).answer = .ok true ∧ ∃ kept dropped,
        c.others key = kept ++ dropped ∧ LongestFit c.maxCost cost (c.others key) kept ∧
          (set key bytes cost c).state.entries = ⟨key, bytes, cost⟩ :: kept ∧
          (set key bytes cost c).state.evictions = c.evictions + dropped.length
  /-- A look-up that hits moves its entry to the front. -/
  hit : ∀ e ∈ c.entries, e.key = key →
    (get key c).answer = .ok (some e.bytes) ∧ (get key c).state.entries = e :: c.others key ∧
      (get key c).state.cost = c.cost
  /-- A look-up that misses changes no entry. -/
  miss : key ∉ heldKeys c.entries →
    (get key c).answer = .ok none ∧ (get key c).state.entries = c.entries ∧
      (get key c).state.cost = c.cost

/-- An offer that the budget can hold. -/
private theorem set_taken (h : WithinBudget budget c) (key : String) (bytes : Bytes) {cost : Cost}
    (hle : cost ≤ c.maxCost) (hword : totalCost (c.others key) + cost.toNat < UInt64.size) :
    (set key bytes cost c).answer = .ok true ∧ ∃ kept dropped,
      c.others key = kept ++ dropped ∧ LongestFit c.maxCost cost (c.others key) kept ∧
        (set key bytes cost c).state.entries = ⟨key, bytes, cost⟩ :: kept ∧
        (set key bytes cost c).state.evictions = c.evictions + dropped.length := by
  have hnot : ¬ c.maxCost < cost := Std.not_lt.mpr hle
  have hanswer := answer_set h.balanced key bytes cost
  rw [if_neg hnot, h.without_eq, if_pos hword] at hanswer
  refine ⟨hanswer, ?_⟩
  unfold set at hanswer ⊢
  rw [if_neg hnot] at hanswer ⊢
  obtain ⟨kept, hlongest, hentries⟩ :=
    (satisfies_accept_longest h.balanced (e := ⟨key, bytes, cost⟩) hle).of_ok hanswer
  obtain ⟨-, hcounted⟩ := (satisfies_accept_counted c ⟨key, bytes, cost⟩).of_ok hanswer
  dsimp only at hlongest hcounted
  rw [h.without_eq] at hlongest hcounted
  obtain ⟨dropped, hdropped⟩ := hlongest.start
  refine ⟨kept, dropped, hdropped.symm, hlongest, hentries, ?_⟩
  -- What is not held afterwards was dropped.
  rw [hentries, ← hdropped, List.length_cons, List.length_append] at hcounted
  omega

/-- Within a budget, every offer and every look-up keeps the entries used last. -/
theorem WithinBudget.keepsLastUsed (h : WithinBudget budget c) (key : String) :
    KeepsLastUsed c key := by
  constructor
  · intro bytes cost hover
    unfold set
    rw [if_pos hover]
    exact ⟨rfl, rfl, rfl⟩
  · intro bytes cost hle hword
    exact set_taken h key bytes hle hword
  · intro e he hkey
    -- The entry is the one that is found, since no other has its key.
    have hfind : c.find? key = some e := by
      cases hfound : c.find? key with
      | none => exact absurd (decide_eq_true hkey) (List.find?_eq_none.mp hfound e he)
      | some e' =>
        obtain ⟨he', hkey'⟩ := mem_of_find? hfound
        rw [List.inj_on_of_nodup_map h.nodup he' he (hkey'.trans hkey.symm)]
    unfold get
    rw [hfind]
    exact ⟨rfl, congrArg (e :: ·) (h.without_eq key), rfl⟩
  · intro hkey
    have hfind : c.find? key = none := by
      apply List.find?_eq_none.mpr
      intro e he hfound
      obtain rfl : e.key = key := of_decide_eq_true hfound
      exact hkey (List.mem_map_of_mem he)
    unfold get
    rw [hfind]
    exact ⟨rfl, rfl, rfl⟩

/-! ## Runs -/

/-- After every run of a new cache, an offer that is taken drops the entries that were not used for
the longest time, and no more of them than have to make room for it. -/
theorem keepsLastUsed_of_run {config : CacheConfig} (hvalid : config.validate = .ok ()) :
    ∃ new, ofConfig config = .ok new ∧ ∀ calls : List CacheCall,
      (CacheCall.play new calls).maxCost = config.maxCost ∧
        ∀ key, KeepsLastUsed (CacheCall.play new calls) key := by
  refine ⟨{ maxCost := config.maxCost }, ofConfig_of_valid hvalid, ?_⟩
  intro calls
  have hwithin := (WithinBudget.new config.maxCost).play calls
  exact ⟨hwithin.maxCost, hwithin.keepsLastUsed⟩

/-- Offers that fill a budget of ten, with an entry that costs nothing, and a look-up of the oldest
one. -/
def fillingCalls : List CacheCall :=
  [.set "a" [1] 4, .set "b" [2] 3, .set "c" [] 0, .set "d" [4] 3, .get "a"]

/-- An offer under a key in the middle takes the place of its entry. Beside it the entry looked up
last and the one before fit to the last unit, and the entries after them are dropped. -/
theorem keepsLastUsed_of_run_filling :
    tightConfig.validate = .ok () ∧ ∃ new, ofConfig tightConfig = .ok new ∧
      heldKeys (CacheCall.play new fillingCalls).entries = ["a", "d", "c", "b"] ∧
      (3 : Cost) ≤ (CacheCall.play new fillingCalls).maxCost ∧
      totalCost ((CacheCall.play new fillingCalls).others "c") + (3 : Cost).toNat < UInt64.size ∧
      (set "c" [9] 3 (CacheCall.play new fillingCalls)).answer = .ok true ∧
      heldKeys (set "c" [9] 3 (CacheCall.play new fillingCalls)).state.entries = ["c", "a", "d"] ∧
      (set "c" [9] 3 (CacheCall.play new fillingCalls)).state.evictions = 1 ∧
      (∃ kept dropped, (CacheCall.play new fillingCalls).others "c" = kept ++ dropped ∧
        LongestFit 10 3 ((CacheCall.play new fillingCalls).others "c") kept ∧
        (set "c" [9] 3 (CacheCall.play new fillingCalls)).state.entries = ⟨"c", [9], 3⟩ :: kept ∧
        (set "c" [9] 3 (CacheCall.play new fillingCalls)).state.evictions = dropped.length) ∧
      (set "a" [9] 11 (CacheCall.play new fillingCalls)).state.entries
        = (CacheCall.play new fillingCalls).entries ∧
      (get "d" (CacheCall.play new fillingCalls)).state.entries
        = ⟨"d", [4], 3⟩ :: (CacheCall.play new fillingCalls).others "d" ∧
      (get "e" (CacheCall.play new fillingCalls)).state.entries
        = (CacheCall.play new fillingCalls).entries := by
  have hvalid : tightConfig.validate = .ok () := by decide
  obtain ⟨new, hnew, hrun⟩ := keepsLastUsed_of_run hvalid
  obtain ⟨-, hkeeps⟩ := hrun fillingCalls
  obtain rfl := Except.ok.inj ((ofConfig_of_valid hvalid).symm.trans hnew)
  refine ⟨hvalid, _, hnew, by decide +kernel, by decide +kernel, by decide +kernel, ?_⟩
  obtain ⟨htaken, kept, dropped, hothers, hlongest, hentries, hevictions⟩ :=
    (hkeeps "c").taken [9] 3 (by decide +kernel) (by decide +kernel)
  refine ⟨htaken, by decide +kernel, by decide +kernel, ⟨kept, dropped, hothers, hlongest, hentries,
    hevictions.trans ?_⟩, ?_, ?_, ?_⟩
  · -- None was dropped while the budget was filled.
    exact Nat.zero_add dropped.length
  · exact ((hkeeps "a").declined [9] 11 (by decide +kernel)).2.1
  · exact ((hkeeps "d").hit ⟨"d", [4], 3⟩ (by decide +kernel) rfl).2.1
  · exact ((hkeeps "e").miss (by decide +kernel)).2.1

end Guestbook.LruCache
