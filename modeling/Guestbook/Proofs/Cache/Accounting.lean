import Guestbook.Proofs.Cache.Eviction

/-!
# Every call and every entry is accounted for

The statistics of a cost-bounded cache are those of the calls that were made on it: look-ups that
hit or miss, offers that were declined, clears. Every offer that was taken is an entry that is still
held, or left in one of three ways: it was dropped to make room, replaced under its key, or cleared.
Only the first is counted as an eviction.

## Main definitions
- `CacheStep`, `CacheCall.transcript`: the calls of a run, each with the cache it was made on
- `CacheStep.isHit`, `CacheStep.replaces`, `CacheStep.crowdedOut`, ...: what a call did
- `LruCache.Offered`: what can come of an offer
- `LruCache.Accounted`: the account of a run between two caches
- `LruCache.AccountsFor`: the statistics of a new cache after a run

## Main statements
- `WithinBudget.accounted_step`: the account of one call
- `Accounted.append`: one run after another
- `accountsFor_of_run`: every run
-/

namespace Guestbook

open Guestbook.Action (Preserves preserves_pure)

/-! ## Calls of a run -/

/-- A call and the cache it is made on. -/
structure CacheStep where
  before : LruCache
  call : CacheCall

/-- The calls of a run, each with the cache that the ones before it left. -/
def CacheCall.transcript (c : LruCache) : List CacheCall → List CacheStep
  | [] => []
  | call :: calls => ⟨c, call⟩ :: transcript (call.perform c).state calls

namespace CacheStep

/-- What comes of the call. -/
@[simp] def outcome (t : CacheStep) : Outcome LruCache CacheReply := t.call.perform t.before

@[simp] def isLookup (t : CacheStep) : Bool :=
  match t.call with
  | .get _ => true
  | _ => false

/-- A look-up that is answered with bytes. -/
@[simp] def isHit (t : CacheStep) : Bool :=
  match t.call, t.outcome.answer with
  | .get _, .ok (.bytes (some _)) => true
  | _, _ => false

/-- An offer that is answered with `accepted`. -/
@[simp] def isOffer (accepted : Bool) (t : CacheStep) : Bool :=
  match t.call, t.outcome.answer with
  | .set .., .ok (.truth b) => b = accepted
  | _, _ => false

/-- An offer that is taken while there is an entry under its key. -/
@[simp] def replaces (t : CacheStep) : Bool :=
  match t.call with
  | .set key _ _ => t.isOffer true && key ∈ LruCache.heldKeys t.before.entries
  | _ => false

@[simp] def isClear (t : CacheStep) : Bool :=
  match t.call with
  | .clear => true
  | _ => false

/-- The entries that a clear drops. -/
@[simp] def cleared (t : CacheStep) : List LruCache.Entry :=
  match t.call with
  | .clear => t.before.entries
  | _ => []

/-- The entries under other keys that are gone after an offer. -/
@[simp] def crowdedOut (t : CacheStep) : List LruCache.Entry :=
  match t.call with
  | .set key _ _ => (t.before.others key).filter fun e => e ∉ t.outcome.state.entries
  | _ => []

/-- The call does not go out of range. -/
def IsAnswered (t : CacheStep) : Prop := ∃ reply, t.outcome.answer = .ok reply

end CacheStep

open CacheStep

/-- A run stays in range as long as each of its calls does. -/
theorem CacheCall.allAnswered_iff_transcript {c : LruCache} {calls : List CacheCall} :
    AllAnswered c calls ↔ ∀ t ∈ transcript c calls, t.IsAnswered := by
  induction calls generalizing c with
  | nil => exact iff_of_true trivial fun _ h => absurd h List.not_mem_nil
  | cons call calls ih => rw [transcript, List.forall_mem_cons, AllAnswered, ih]; rfl

namespace LruCache

variable {c c' c'' : LruCache} {budget : Cost} {key : String}

/-! ## What can come of an offer -/

/-- `c'` has the counters of `c` but for the one of evictions. -/
structure SameCounters (c c' : LruCache) : Prop where
  hits : c'.hits = c.hits
  misses : c'.misses = c.misses
  rejections : c'.rejections = c.rejections
  clears : c'.clears = c.clears

/-- Taking an entry counts evictions and nothing else. -/
theorem SameCounters.preserves_accept (e : Entry) : Preserves (SameCounters c) (accept e) := by
  have hrelease : Preserves (SameCounters c) (release e.key) := by
    intro c₁ h
    unfold release
    split
    · exact h
    · dsimp only
      split <;> exact ⟨h.hits, h.misses, h.rejections, h.clears⟩
  have hevict : Preserves (SameCounters c) (evict e.cost) := fun _ h =>
    ⟨h.hits, h.misses, h.rejections, h.clears⟩
  have hpush : Preserves (SameCounters c) (push e) := by
    intro c₁ h
    unfold push
    dsimp only
    split <;> exact ⟨h.hits, h.misses, h.rejections, h.clears⟩
  exact hrelease.bind fun _ => hevict.bind fun _ => hpush.bind fun _ => preserves_pure _

/-- What can come of an offer under a key. -/
inductive Offered (c : LruCache) (key : String) (o : Outcome LruCache Bool) : Prop where
  | declined (answer : o.answer = .ok false)
      (state : o.state = { c with rejections := c.rejections + 1 })
  /-- The new entry stands before those that are kept, and the others are counted as dropped. -/
  | taken (answer : o.answer = .ok true) (same : SameCounters c o.state) (e : Entry)
      (hkey : e.key = key) (kept dropped : List Entry) (others : c.others key = kept ++ dropped)
      (entries : o.state.entries = e :: kept)
      (evictions : o.state.evictions = c.evictions + dropped.length)
  | stopped (why : Stop) (answer : o.answer = .error why) (same : SameCounters c o.state)

theorem WithinBudget.offered (h : WithinBudget budget c) (key : String) (bytes : Bytes)
    (cost : Cost) : Offered c key (set key bytes cost c) := by
  by_cases hover : c.maxCost < cost
  · unfold set
    rw [if_pos hover]
    exact .declined rfl rfl
  · have hsame : SameCounters c (set key bytes cost c).state := by
      unfold set
      rw [if_neg hover]
      exact SameCounters.preserves_accept ⟨key, bytes, cost⟩ c ⟨rfl, rfl, rfl, rfl⟩
    by_cases hword : totalCost (c.others key) + cost.toNat < UInt64.size
    · obtain ⟨hanswer, kept, dropped, hothers, -, hentries, hevictions⟩ :=
        (h.keepsLastUsed key).taken bytes cost (Std.not_lt.mp hover) hword
      exact .taken hanswer hsame ⟨key, bytes, cost⟩ rfl kept dropped hothers hentries hevictions
    · have hanswer := answer_set h.balanced key bytes cost
      rw [if_neg hover, h.without_eq, if_neg hword] at hanswer
      exact .stopped _ hanswer hsame

/-! ## The account of a run -/

/-- The account of calls that were made between `c` and `c'`. -/
structure Accounted (c : LruCache) (steps : List CacheStep) (c' : LruCache) : Prop where
  lookups : c'.hits + c'.misses = c.hits + c.misses + steps.countP isLookup
  hits : c'.hits = c.hits + steps.countP isHit
  rejections : c'.rejections = c.rejections + steps.countP (isOffer false)
  clears : c'.clears = c.clears + steps.countP isClear
  entries : (∀ t ∈ steps, t.IsAnswered) →
    c'.entries.length + c'.evictions + steps.countP replaces + (steps.flatMap cleared).length
      = c.entries.length + c.evictions + steps.countP (isOffer true)
  evictions : (∀ t ∈ steps, t.IsAnswered) →
    c'.evictions = c.evictions + (steps.flatMap crowdedOut).length

theorem Accounted.nil (c : LruCache) : Accounted c [] c :=
  ⟨rfl, rfl, rfl, rfl, fun _ => rfl, fun _ => rfl⟩

/-- Accounts of one run after another add up. -/
theorem Accounted.append {steps steps' : List CacheStep} (h : Accounted c steps c')
    (h' : Accounted c' steps' c'') : Accounted c (steps ++ steps') c'' := by
  constructor
  case lookups => rw [List.countP_append, h'.lookups, h.lookups]; omega
  case hits => rw [List.countP_append, h'.hits, h.hits]; omega
  case rejections => rw [List.countP_append, h'.rejections, h.rejections]; omega
  case clears => rw [List.countP_append, h'.clears, h.clears]; omega
  case entries =>
    intro hanswered
    rw [List.forall_mem_append] at hanswered
    have hfirst := h.entries hanswered.1
    have hrest := h'.entries hanswered.2
    simp only [List.countP_append, List.flatMap_append, List.length_append]
    omega
  case evictions =>
    intro hanswered
    rw [List.forall_mem_append] at hanswered
    rw [h'.evictions hanswered.2, h.evictions hanswered.1, List.flatMap_append, List.length_append]
    omega

/-! ## The account of one call -/

/-- A look-up that hits. -/
theorem perform_get_of_some {e : Entry} (h : c.find? key = some e) :
    (CacheCall.get key).perform c = ⟨.ok (.bytes (some e.bytes)),
      { c with entries := e :: without key c.entries, hits := c.hits + 1 }, []⟩ := by
  show Action.andThen (get key) _ c = _
  unfold Action.andThen get
  rw [h]
  rfl

/-- A look-up that misses. -/
theorem perform_get_of_none (h : c.find? key = none) :
    (CacheCall.get key).perform c = ⟨.ok (.bytes none), { c with misses := c.misses + 1 }, []⟩ := by
  show Action.andThen (get key) _ c = _
  unfold Action.andThen get
  rw [h]
  rfl

theorem accounted_get (c : LruCache) (key : String) :
    Accounted c [⟨c, .get key⟩] ((CacheCall.get key).perform c).state := by
  cases hfind : c.find? key with
  | none =>
    have houtcome := perform_get_of_none hfind
    constructor <;> simp [houtcome, Nat.add_assoc]
  | some e =>
    have houtcome := perform_get_of_some hfind
    -- The entry only moves to the front.
    have hlength := (perm_cons_without hfind).length_eq
    rw [houtcome]
    constructor
    case lookups => exact Nat.add_right_comm c.hits 1 c.misses
    all_goals simp [houtcome, hlength]

theorem accounted_clear (c : LruCache) :
    Accounted c [⟨c, .clear⟩] (CacheCall.clear.perform c).state := by
  have hstate : (CacheCall.clear.perform c).state
      = { c with entries := [], cost := 0, clears := c.clears + 1 } := rfl
  constructor <;> simp [hstate, Nat.add_comm]

theorem accounted_stats (c : LruCache) :
    Accounted c [⟨c, .stats⟩] (CacheCall.stats.perform c).state := by
  have hstate : (CacheCall.stats.perform c).state = c := rfl
  constructor <;> simp [hstate]

/-- An entry under a key is one beside those under other keys. -/
theorem length_without (key : String) (entries : List Entry) :
    (without key entries).length + (if key ∈ heldKeys entries then 1 else 0) = entries.length := by
  induction entries with
  | nil => rfl
  | cons e entries ih =>
    have hmem : key ∈ heldKeys (e :: entries) ↔ e.key = key ∨ key ∈ heldKeys entries := by
      simp [heldKeys, eq_comm]
    rw [without_cons]
    simp only [hmem]
    by_cases hkey : e.key = key
    · rw [if_pos hkey, if_pos (.inl hkey)]
      rfl
    · simp only [hkey, if_false, false_or]
      rw [List.length_cons, List.length_cons, ← ih]
      omega

/-- Of the entries under other keys the ones that are dropped are those that are gone. -/
theorem WithinBudget.filter_dropped (h : WithinBudget budget c) {e : Entry}
    {kept dropped : List Entry} (hothers : c.others e.key = kept ++ dropped) :
    ((c.others e.key).filter fun e' => e' ∉ e :: kept) = dropped := by
  -- No key is held twice, so no entry is both kept and dropped.
  have hnodup : (c.others e.key).Nodup := (List.Nodup.of_map _ h.nodup).filter _
  have hkeys : ∀ e' ∈ c.others e.key, e' ≠ e := by
    intro e' he' heq
    rw [others, List.mem_filter, heq] at he'
    simp at he'
  rw [hothers] at hnodup hkeys ⊢
  obtain ⟨-, -, hdisjoint⟩ := List.nodup_append.mp hnodup
  -- Nothing is left of the kept ones, and all of the others.
  rw [List.filter_append, List.filter_eq_nil_iff.mpr, List.filter_eq_self.mpr, List.nil_append]
  · intro e' he'
    have hne := hkeys e' (List.mem_append_right _ he')
    have hout : e' ∉ kept := fun hin => hdisjoint e' hin e' he' rfl
    simp [hne, hout]
  · intro e' he'
    simp [he']

theorem crowdedOut_set (c : LruCache) (key : String) (bytes : Bytes) (cost : Cost) :
    crowdedOut ⟨c, .set key bytes cost⟩
      = (c.others key).filter fun e => e ∉ (set key bytes cost c).state.entries := by
  rw [crowdedOut, outcome, CacheCall.state_perform_set]
  rfl

/-- The account of an offer, whatever comes of it. -/
theorem WithinBudget.accounted_set (h : WithinBudget budget c) (key : String) (bytes : Bytes)
    (cost : Cost) :
    Accounted c [⟨c, .set key bytes cost⟩] ((CacheCall.set key bytes cost).perform c).state := by
  have hanswer : ((CacheCall.set key bytes cost).perform c).answer
      = (set key bytes cost c).answer.map .truth := CacheCall.answer_perform_set key bytes cost c
  have hgone := crowdedOut_set c key bytes cost
  rw [CacheCall.state_perform_set]
  change Accounted c _ (set key bytes cost c).state
  cases h.offered key bytes cost with
  | declined hdeclined hstate =>
    rw [hdeclined] at hanswer
    have hnone : crowdedOut ⟨c, .set key bytes cost⟩ = [] := by
      rw [hgone, hstate, List.filter_eq_nil_iff]
      intro e he
      simp [List.mem_of_mem_filter he]
    rw [hstate]
    constructor
    case evictions => intro _; rw [List.flatMap_singleton, hnone]; rfl
    all_goals simp [hanswer, Except.map]
  | taken htaken hsame e hkey kept dropped hothers hentries hevictions =>
    subst hkey
    rw [htaken] at hanswer
    have hdropped : crowdedOut ⟨c, .set e.key bytes cost⟩ = dropped := by
      rw [hgone, hentries]
      exact h.filter_dropped hothers
    -- Beside the others there was an entry under the key, if the offer replaces one.
    have hlength := length_without e.key c.entries
    rw [h.without_eq, hothers, List.length_append] at hlength
    constructor
    case evictions => intro _; rw [List.flatMap_singleton, hdropped, hevictions]
    case entries =>
      intro _
      have hone : [(⟨c, .set e.key bytes cost⟩ : CacheStep)].countP (isOffer true) = 1 := by
        simp [hanswer, Except.map]
      have hreplaces : [(⟨c, .set e.key bytes cost⟩ : CacheStep)].countP replaces
          = if e.key ∈ heldKeys c.entries then 1 else 0 := by
        simp [hanswer, Except.map]
      rw [hone, hreplaces, hentries, hevictions, List.flatMap_singleton, cleared, List.length_cons]
      dsimp only [List.length_nil]
      omega
    all_goals simp [hanswer, Except.map, hsame.hits, hsame.misses, hsame.rejections, hsame.clears]
  | stopped why hstopped hsame =>
    rw [hstopped] at hanswer
    -- What is said of answered calls does not apply.
    constructor <;> simp [hanswer, Except.map, hsame.hits, hsame.misses, hsame.rejections,
      hsame.clears, IsAnswered]

theorem WithinBudget.accounted_step (h : WithinBudget budget c) (call : CacheCall) :
    Accounted c [⟨c, call⟩] (call.perform c).state := by
  cases call with
  | get key => exact accounted_get c key
  | set key bytes cost => exact h.accounted_set key bytes cost
  | clear => exact accounted_clear c
  | stats => exact accounted_stats c

/-! ## Runs -/

theorem WithinBudget.accounted_play (h : WithinBudget budget c) (calls : List CacheCall) :
    Accounted c (CacheCall.transcript c calls) (CacheCall.play c calls) := by
  -- The budget is what carries the induction: it holds before each call.
  induction calls generalizing c with
  | nil => exact .nil c
  | cons call calls ih =>
    exact (h.accounted_step call).append (ih (WithinBudget.preserves_perform call c h))

/-- What the statistics of a new cache say after a run. -/
structure AccountsFor (new : LruCache) (calls : List CacheCall) (stats : CacheStats) : Prop where
  /-- Every look-up hits or misses. -/
  lookups : stats.hits + stats.misses = (CacheCall.transcript new calls).countP isLookup
  /-- It hits if it is answered with bytes. -/
  hits : stats.hits = (CacheCall.transcript new calls).countP isHit
  rejections : stats.rejections = (CacheCall.transcript new calls).countP (isOffer false)
  clears : stats.clears = (CacheCall.transcript new calls).countP isClear
  /-- While no call is out of range, every entry taken is held, or was evicted, replaced or
  cleared. -/
  entries : CacheCall.AllAnswered new calls →
    (CacheCall.transcript new calls).countP (isOffer true)
      = stats.entryCount + stats.evictions + (CacheCall.transcript new calls).countP replaces
        + ((CacheCall.transcript new calls).flatMap cleared).length
  /-- The evicted ones are those that went to make room for an entry under another key. -/
  evictions : CacheCall.AllAnswered new calls →
    stats.evictions = ((CacheCall.transcript new calls).flatMap crowdedOut).length

/-- The statistics of a cache account for every call that was made on it since it was new, and for
every entry that it took. -/
theorem accountsFor_of_run {config : CacheConfig} (hpositive : 1 ≤ config.maxCost) :
    ∃ new, ofConfig config = .ok new ∧ ∀ calls : List CacheCall,
      AccountsFor new calls (Cache.stats (CacheCall.play new calls)) := by
  refine ⟨{ maxCost := config.maxCost }, ofConfig_of_pos hpositive, ?_⟩
  intro calls
  have haccount := (WithinBudget.new config.maxCost).accounted_play calls
  constructor
  case lookups => exact haccount.lookups.trans (Nat.zero_add _)
  case hits => exact haccount.hits.trans (Nat.zero_add _)
  case rejections => exact haccount.rejections.trans (Nat.zero_add _)
  case clears => exact haccount.clears.trans (Nat.zero_add _)
  case entries =>
    intro hanswered
    have hentries := haccount.entries (CacheCall.allAnswered_iff_transcript.mp hanswered)
    exact (hentries.trans (Nat.zero_add _)).symm
  case evictions =>
    intro hanswered
    have hevictions := haccount.evictions (CacheCall.allAnswered_iff_transcript.mp hanswered)
    exact hevictions.trans (Nat.zero_add _)

/-- Look-ups, a replacement, an offer that makes room, one that is declined, a clear and one more
offer. -/
def busyCalls : List CacheCall :=
  [.set "a" [1] 4, .get "a", .get "b", .set "b" [2] 4, .set "a" [3] 2, .set "c" [4] 5,
    .set "a" [5] 11, .clear, .set "d" [] 0, .stats]

/-- Of five entries taken one was replaced, one evicted and two were cleared. -/
theorem accountsFor_of_run_busy :
    1 ≤ tightConfig.maxCost ∧ ∃ new, ofConfig tightConfig = .ok new ∧
      CacheCall.AllAnswered new busyCalls ∧
      Cache.stats (CacheCall.play new busyCalls)
        = { hits := 1, misses := 1, entryCount := 1, rejections := 1, evictions := 1,
            clears := 1 } ∧
      (CacheCall.transcript new busyCalls).countP replaces = 1 ∧
      ((CacheCall.transcript new busyCalls).flatMap cleared).length = 2 ∧
      (CacheCall.transcript new busyCalls).countP (isOffer true) = 1 + 1 + 1 + 2 ∧
      ((CacheCall.transcript new busyCalls).flatMap crowdedOut).length = 1 := by
  have hpositive : 1 ≤ tightConfig.maxCost := by decide
  obtain ⟨new, hnew, hrun⟩ := accountsFor_of_run hpositive
  have haccounts := hrun busyCalls
  obtain rfl := Except.ok.inj ((ofConfig_of_pos hpositive).symm.trans hnew)
  have hanswered :
      CacheCall.AllAnswered ({ maxCost := tightConfig.maxCost } : LruCache) busyCalls :=
    allAnswered_of_budget (WithinBudget.new _) (by decide) busyCalls
  have hstats :
      Cache.stats (CacheCall.play ({ maxCost := tightConfig.maxCost } : LruCache) busyCalls)
        = { hits := 1, misses := 1, entryCount := 1, rejections := 1, evictions := 1,
            clears := 1 } := by
    decide +kernel
  have hreplaced : (CacheCall.transcript ({ maxCost := tightConfig.maxCost } : LruCache)
      busyCalls).countP replaces = 1 := by decide +kernel
  have hcleared : ((CacheCall.transcript ({ maxCost := tightConfig.maxCost } : LruCache)
      busyCalls).flatMap cleared).length = 2 := by decide +kernel
  refine ⟨hpositive, _, hnew, hanswered, hstats, hreplaced, hcleared, ?_, ?_⟩
  · have hentries := haccounts.entries hanswered
    rwa [hstats, hreplaced, hcleared] at hentries
  · have hevictions := haccounts.evictions hanswered
    rw [hstats] at hevictions
    exact hevictions.symm

end LruCache

end Guestbook
