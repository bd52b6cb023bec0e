import Guestbook.Board
import Guestbook.Proofs.Cache.Lru
import Guestbook.Proofs.Cache.Run

/-!
# Caches stay within their budget

A cost-bounded cache holds at most one entry under each key, and its recorded cost is that of its
entries and never above the budget. Every call keeps this, an offer that goes out of range included.
So the loop that makes room for an entry always finds one more to drop until the new one fits.

## Main definitions
- `LruCache.WithinBudget`: what every call keeps
- `LruCache.RunsOut`: the loop that makes room has no entry left to drop
- `LruCache.Settles`: what becomes of an offer
- `CacheCall.PaysLength`: an offer at the cost of its length
- `LruCache.Ledgered`: what a cache holds and tells after a run

## Main statements
- `not_runsOut`: there is an entry to drop as long as the new one does not fit
- `answer_set`: the answer to every offer
- `WithinBudget.preserves_perform`: every call
- `withinBudget_of_run`: every run
-/

namespace Guestbook

open Guestbook.Action (Preserves)

namespace LruCache

variable {c : LruCache}

/-! ## Keys -/

/-- A look-up moves an entry to the front and changes nothing else. -/
theorem perm_cons_without {key : String} {entries : List Entry} {e : Entry}
    (h : (entries.find? fun e => e.key = key) = some e) :
    entries.Perm (e :: without key entries) := by
  induction entries with
  | nil => simp at h
  | cons head rest ih =>
    by_cases hkey : head.key = key
    · rw [List.find?_cons_of_pos (by simpa using hkey)] at h
      obtain rfl := Option.some.inj h
      rw [without_cons, if_pos hkey]
    · rw [List.find?_cons_of_neg (by simpa using hkey)] at h
      rw [without_cons, if_neg hkey]
      exact ((ih h).cons head).trans (List.Perm.swap e head _)

/-- The keys held, each as often as there is an entry under it. -/
def heldKeys (entries : List Entry) : List String := entries.map (·.key)

/-- Once an entry is left out there is none under its key, if there was at most one. -/
theorem not_mem_heldKeys_without {key : String} {entries : List Entry}
    (h : (heldKeys entries).Nodup) : key ∉ heldKeys (without key entries) := by
  cases hfind : entries.find? fun e => e.key = key with
  | none =>
    rw [without_of_find?_eq_none hfind, heldKeys, List.mem_map]
    rintro ⟨e, he, hkey⟩
    exact List.find?_eq_none.mp hfind e he (decide_eq_true hkey)
  | some e =>
    have hkey : e.key = key := by simpa using List.find?_some hfind
    -- The entry left out stands before the rest in a list without repeated keys.
    have hnodup : (heldKeys (e :: without key entries)).Nodup :=
      ((perm_cons_without hfind).map _).nodup_iff.mp h
    rw [heldKeys, List.map_cons, List.nodup_cons, hkey] at hnodup
    exact hnodup.1

/-! ## Making room -/

/-- The loop that makes room is left with no entry to drop while the new one still does not fit. -/
inductive RunsOut (maxCost incoming : Cost) : List Entry → Cost → Prop where
  | empty {cost total : Cost} (hadd : Cost.add cost incoming = .ok total)
      (hover : maxCost < total) : RunsOut maxCost incoming [] cost
  | drop {e : Entry} {rest : List Entry} {cost total left : Cost}
      (hadd : Cost.add cost incoming = .ok total) (hover : maxCost < total)
      (hsub : Cost.sub cost e.cost = .ok left) (hrest : RunsOut maxCost incoming rest left) :
      RunsOut maxCost incoming (e :: rest) cost

/-- While the recorded cost is that of the entries, the loop never runs out of them. -/
theorem not_runsOut {maxCost incoming : Cost} (hle : incoming ≤ maxCost) {entries : List Entry}
    {cost : Cost} (h : cost.toNat = totalCost entries) :
    ¬ RunsOut maxCost incoming entries cost := by
  intro hruns
  induction hruns with
  | @empty cost total hadd hover =>
    -- Without entries only the new one counts, and that is within the budget.
    have hzero : cost.toNat = 0 := h
    have htotal := toNat_of_add hadd
    rw [UInt64.lt_iff_toNat_lt] at hover
    rw [UInt64.le_iff_toNat_le] at hle
    omega
  | @drop e rest cost total left hadd hover hsub hrest ih =>
    apply ih
    rw [totalCost_cons] at h
    obtain ⟨left', hsub', hleft⟩ := sub_of_le (a := cost) (b := e.cost) (by omega)
    obtain rfl := Except.ok.inj (hsub'.symm.trans hsub)
    omega

/-! ## What every call keeps -/

/-- At most one entry under each key, and a recorded cost that is that of the entries and within the
budget. -/
structure WithinBudget (budget : Cost) (c : LruCache) : Prop where
  maxCost : c.maxCost = budget
  nodup : (heldKeys c.entries).Nodup
  balanced : Balanced c
  cost_le : c.cost ≤ budget

namespace WithinBudget

variable {budget : Cost}

theorem new (budget : Cost) : WithinBudget budget { maxCost := budget } where
  maxCost := rfl
  nodup := .nil
  balanced := rfl
  cost_le := UInt64.le_iff_toNat_le.mpr (Nat.zero_le _)

/-- No entry costs more than all of them together. -/
theorem entry_le (h : WithinBudget budget c) {e : Entry} (he : e ∈ c.entries) :
    e.cost ≤ budget := by
  have hsingle : totalCost [e] ≤ totalCost c.entries :=
    totalCost_le_of_sublist (List.singleton_sublist.mpr he)
  have hbalanced : c.cost.toNat = totalCost c.entries := h.balanced
  have hcost := UInt64.le_iff_toNat_le.mp h.cost_le
  rw [totalCost_cons] at hsingle
  rw [UInt64.le_iff_toNat_le]
  omega

/-- What is left without a key is within the budget and has room for that key. -/
theorem release (h : WithinBudget budget c) (key : String) :
    Balanced (release key c).state ∧ (release key c).state.maxCost = budget ∧
      (LruCache.release key c).state.entries = without key c.entries := by
  have hrelease := satisfies_release h.balanced key
  obtain ⟨-, -, hbalanced, hentries, hmax⟩ := hrelease.answers fun _ _ => id
  exact ⟨hbalanced, hmax.trans h.maxCost, hentries⟩

theorem preserves_get (key : String) : Preserves (WithinBudget budget) (get key) := by
  intro c h
  obtain ⟨hbalanced, hcost⟩ := balanced_get h.balanced key
  refine ⟨?_, ?_, hbalanced, hcost ▸ h.cost_le⟩
  · unfold get
    split <;> exact h.maxCost
  · unfold get
    split
    · next e hfind => exact ((perm_cons_without hfind).map _).nodup_iff.mp h.nodup
    · exact h.nodup

/-- Leaving out a key and dropping the entries used last keeps every key unique. -/
private theorem nodup_of_kept (h : WithinBudget budget c) {e : Entry} {kept : List Entry}
    (hfirst : kept <+: without e.key c.entries) : (heldKeys (e :: kept)).Nodup := by
  have hwithout : (heldKeys (without e.key c.entries)).Nodup :=
    h.nodup.sublist ((without_sublist e.key c.entries).map _)
  rw [heldKeys, List.map_cons, List.nodup_cons]
  refine ⟨fun hmem => ?_, hwithout.sublist (hfirst.sublist.map _)⟩
  exact not_mem_heldKeys_without h.nodup ((hfirst.sublist.map _).subset hmem)

theorem preserves_set (key : String) (bytes : Bytes) (cost : Cost) :
    Preserves (WithinBudget budget) (set key bytes cost) := by
  apply Preserves.of_satisfies
  intro c h
  unfold set
  split
  · -- An entry beyond the budget is declined.
    exact ⟨h.maxCost, h.nodup, h.balanced, h.cost_le⟩
  · next hle =>
    rw [Std.not_lt] at hle
    apply (satisfies_accept h.balanced ⟨key, bytes, cost⟩).imp
    · rintro _ c' ⟨-, ⟨hbalanced, hmax⟩, -, hfits, kept, hfirst, hentries⟩
      refine ⟨hmax.trans h.maxCost, ?_, hbalanced, h.maxCost ▸ hfits hle⟩
      rw [hentries]
      exact h.nodup_of_kept hfirst
    · -- Out of range, the entries under other keys stay.
      rintro why c' ⟨⟨hbalanced, hmax⟩, -, -, hentries⟩
      have hless := totalCost_le_of_sublist (without_sublist key c.entries)
      refine ⟨hmax.trans h.maxCost, ?_, hbalanced, ?_⟩
      · rw [hentries]
        exact h.nodup.sublist ((without_sublist key c.entries).map _)
      · have hcost : c.cost.toNat = totalCost c.entries := h.balanced
        have hcost' : c'.cost.toNat = totalCost c'.entries := hbalanced
        have hbudget := UInt64.le_iff_toNat_le.mp h.cost_le
        rw [hentries] at hcost'
        rw [UInt64.le_iff_toNat_le]
        dsimp only at hcost'
        omega

theorem preserves_clear : Preserves (WithinBudget budget) clear := fun _ h =>
  ⟨h.maxCost, .nil, rfl, UInt64.le_iff_toNat_le.mpr (Nat.zero_le _)⟩

theorem preserves_perform (call : CacheCall) :
    Preserves (WithinBudget budget) (call.perform : Action LruCache CacheReply) :=
  CacheCall.preserves_perform preserves_get preserves_clear fun key bytes cost _ =>
    preserves_set key bytes cost

/-- A run leaves a cache within its budget. -/
theorem play (h : WithinBudget budget c) (calls : List CacheCall) :
    WithinBudget budget (CacheCall.play c calls) :=
  CacheCall.preserves_play (fun call _ => preserves_perform call) h

end WithinBudget

/-! ## What becomes of an offer -/

/-- An offer is declined at a cost beyond the budget. Otherwise it is taken, unless its cost and
that of the entries under other keys are together beyond a word. -/
theorem answer_set (h : Balanced c) (key : String) (bytes : Bytes) (cost : Cost) :
    (set key bytes cost c).answer =
      if c.maxCost < cost then .ok false
      else if totalCost (without key c.entries) + cost.toNat < UInt64.size then .ok true
      else .error (.fault .addOverflow) := by
  unfold set
  split
  · rfl
  · have haccept := satisfies_accept h ⟨key, bytes, cost⟩
    cases hanswer : (accept ⟨key, bytes, cost⟩ c).answer with
    | ok accepted =>
      obtain ⟨rfl, -, hlt, -⟩ := haccept.of_ok hanswer
      rw [if_pos hlt]
    | error why =>
      obtain ⟨-, rfl, hge, -⟩ := haccept.of_error hanswer
      rw [if_neg (Nat.not_lt.mpr hge)]

/-- What becomes of an offer to a cache. -/
structure Settles (c : LruCache) (key : String) (bytes : Bytes) (cost : Cost) : Prop where
  answer : (set key bytes cost c).answer =
    if c.maxCost < cost then .ok false
    else if totalCost (without key c.entries) + cost.toNat < UInt64.size then .ok true
    else .error (.fault .addOverflow)
  /-- The loop has an entry to drop as long as the new one does not fit. -/
  neverRunsOut : cost ≤ c.maxCost →
    ¬ RunsOut c.maxCost cost (release key c).state.entries.reverse (release key c).state.cost
  /-- The loop ends with the new entry fitting. -/
  fits : cost ≤ c.maxCost → ∀ room,
    makeRoom c.maxCost cost (release key c).state.entries.reverse (release key c).state.cost
        = room →
      room.answer = .ok () → room.cost.toNat + cost.toNat ≤ c.maxCost.toNat
  /-- An entry that is taken is held, and used last. -/
  taken : (set key bytes cost c).answer = .ok true →
    ∃ kept, kept <+: without key c.entries ∧
      (set key bytes cost c).state.entries = ⟨key, bytes, cost⟩ :: kept

theorem WithinBudget.settles {budget : Cost} (h : WithinBudget budget c) (key : String)
    (bytes : Bytes) (cost : Cost) : c.Settles key bytes cost := by
  have hreverse : (LruCache.release key c).state.cost.toNat
      = totalCost (LruCache.release key c).state.entries.reverse :=
    (h.release key).1.trans (totalCost_reverse _).symm
  refine ⟨answer_set h.balanced key bytes cost, fun hle => not_runsOut hle hreverse, ?_, ?_⟩
  · intro hle room hroom hok
    obtain ⟨-, -, ⟨-, -, hfits⟩ | ⟨hfault, -, -⟩⟩ := makeRoom_spec hreverse hroom
    · exact hfits hle
    · rw [hok] at hfault
      exact nomatch hfault
  · intro htaken
    unfold set at htaken ⊢
    split at htaken
    · -- A declined entry is not taken.
      exact nomatch htaken
    · next hle =>
      rw [if_neg hle]
      obtain ⟨-, -, -, -, hkept⟩ := (satisfies_accept h.balanced _).of_ok htaken
      exact hkept

/-! ## Bytes held -/

/-- The number of bytes held. -/
def heldBytes (c : LruCache) : Nat := (c.entries.map fun e => e.bytes.length).sum

/-- Every entry costs as much as it is long. -/
def Fair (c : LruCache) : Prop := Balanced c ∧ ∀ e ∈ c.entries, e.cost.toNat = e.bytes.length

theorem Fair.heldBytes_eq (h : Fair c) : heldBytes c = c.cost.toNat := by
  rw [heldBytes, h.1, totalCost, List.map_congr_left h.2]

end LruCache

/-- An offer made by the call, if it makes one, costs as much as it is long. -/
def CacheCall.PaysLength : CacheCall → Prop
  | set _ bytes cost => cost.toNat = bytes.length
  | _ => True

namespace LruCache

variable {c : LruCache}

theorem Fair.preserves_perform {call : CacheCall} (hpays : call.PaysLength) :
    Preserves Fair (call.perform : Action LruCache CacheReply) := by
  apply CacheCall.preserves_perform
  · intro key c h
    exact ⟨(balanced_get h.1 key).1, fun e he => h.2 e (entries_get_subset c key he)⟩
  · exact fun _ _ => ⟨rfl, fun _ he => absurd he List.not_mem_nil⟩
  · rintro key bytes cost rfl
    apply Preserves.of_satisfies
    intro c h
    -- Whatever comes of the offer, no other entry is added.
    have hnew : ∀ e ∈ (⟨key, bytes, cost⟩ : Entry) :: c.entries, e.cost.toNat = e.bytes.length :=
      List.forall_mem_cons.mpr ⟨hpays, h.2⟩
    apply (satisfies_set h.1 key bytes cost).imp
    · rintro _ c' ⟨hbalanced, hsubset⟩
      exact ⟨hbalanced, fun e he => hnew e (hsubset he)⟩
    · rintro why c' ⟨⟨hbalanced, hsubset⟩, -⟩
      exact ⟨hbalanced, fun e he => hnew e (hsubset he)⟩

/-- What a board does when it offers messages under a key: it offers their encoding to its cache, at
the cost of its length, and does nothing else. -/
theorem state_populate {σ γ : Type} [Cache γ] (b : Board σ γ) (key : String) (ms : List Message)
    {cost : Cost} (hcost : cost.toNat = (Json.encodeMessages ms).length) :
    (Board.populate key ms b).state =
      { b with cache :=
          ((CacheCall.set key (Json.encodeMessages ms) cost).perform b.cache).state } := by
  obtain rfl : UInt64.ofNat (Json.encodeMessages ms).length = cost := by
    rw [← hcost, UInt64.ofNat_toNat]
  rw [CacheCall.state_perform_set]
  -- After the offer the board only reports what came of it.
  show (Action.andThen _ _ b).state = _
  unfold Action.andThen Board.atCache Action.on
  generalize Cache.set key (Json.encodeMessages ms)
    (UInt64.ofNat (Json.encodeMessages ms).length) b.cache = o
  obtain ⟨why | (_ | _), cache, events⟩ := o <;> rfl

/-! ## Runs -/

/-- What a cache holds and tells after a run, and what it makes of the next offer. -/
structure Ledgered (budget : Cost) (c : LruCache) : Prop where
  within : WithinBudget budget c
  entries_le : ∀ e ∈ c.entries, e.cost ≤ budget
  statsCost : (Cache.stats c).cost = totalCost c.entries
  statsCount : (Cache.stats c).entryCount = c.entries.length
  settles : ∀ key bytes cost, c.Settles key bytes cost

/-- A cache with valid settings can be made. -/
theorem ofConfig_of_valid {config : CacheConfig} (hvalid : config.validate = .ok ()) :
    ofConfig config = .ok { maxCost := config.maxCost } := by
  rw [ofConfig, hvalid]

/-- A cache with any budget but zero can be made. -/
theorem ofConfig_of_pos {config : CacheConfig} (hpositive : 1 ≤ config.maxCost) :
    ofConfig config = .ok { maxCost := config.maxCost } := by
  have hne : config.maxCost ≠ 0 := by
    rintro hzero
    rw [hzero] at hpositive
    exact absurd hpositive (by decide)
  apply ofConfig_of_valid
  rw [CacheConfig.validate, if_neg hne]

/-- Every run of a new cache stays within its budget, whatever it offers. If its offers cost as much
as they are long, as those of a board do, the cache holds no more bytes than its budget. -/
theorem withinBudget_of_run {config : CacheConfig} (hpositive : 1 ≤ config.maxCost) :
    ∃ new, ofConfig config = .ok new ∧ ∀ calls : List CacheCall,
      Ledgered config.maxCost (CacheCall.play new calls) ∧
        ((∀ call ∈ calls, call.PaysLength) →
          heldBytes (CacheCall.play new calls) ≤ config.maxCost.toNat) ∧
        ∀ {σ : Type} (b : Board σ LruCache) (key : String) (ms : List Message) (cost : Cost),
          cost.toNat = (Json.encodeMessages ms).length →
            (Board.populate key ms b).state =
              { b with cache :=
                  ((CacheCall.set key (Json.encodeMessages ms) cost).perform b.cache).state } := by
  refine ⟨{ maxCost := config.maxCost }, ofConfig_of_pos hpositive, ?_⟩
  intro calls
  have hwithin : WithinBudget config.maxCost (CacheCall.play { maxCost := config.maxCost } calls) :=
    CacheCall.preserves_play (fun call _ => WithinBudget.preserves_perform call)
      (WithinBudget.new config.maxCost)
  refine ⟨⟨hwithin, fun _ => hwithin.entry_le, hwithin.balanced, rfl, hwithin.settles⟩, ?_, ?_⟩
  · intro hpays
    have hfair : Fair (CacheCall.play { maxCost := config.maxCost } calls) :=
      CacheCall.preserves_play (fun call hcall => Fair.preserves_perform (hpays call hcall))
        ⟨rfl, fun _ he => absurd he List.not_mem_nil⟩
    rw [hfair.heldBytes_eq]
    exact UInt64.le_iff_toNat_le.mp hwithin.cost_le
  · exact fun b key ms cost => state_populate b key ms

/-- The greatest budget there is. -/
def widestConfig : CacheConfig := { maxCost := 0xFFFFFFFFFFFFFFFF }

/-- An offer under a key that is held and whose cost goes out of range beside that of another entry,
and then a look-up and one more offer. -/
def overflowingCalls : List CacheCall :=
  [.set "a" [1] 0x8000000000000000, .set "b" [2, 2] 5, .get "a",
    .set "b" [3] 0x8000000000000000, .stats, .set "c" [4] 7]

/-- Offers at the cost of their length, with a replacement and a clear. -/
def fairCalls : List CacheCall :=
  [.set "a" [1, 2, 3] 3, .clear, .set "a" [1] 1, .set "b" [2, 2] 2, .set "a" [3, 3] 2]

/-- The offer out of range drops the entry under its key and no other, and what is left is within
the budget. -/
theorem withinBudget_of_run_overflowing :
    1 ≤ widestConfig.maxCost ∧ (∀ call ∈ fairCalls, call.PaysLength) ∧
      ∃ new, ofConfig widestConfig = .ok new ∧
        (set "b" [3] 0x8000000000000000 (CacheCall.play new (overflowingCalls.take 3))).answer
          = .error (.fault .addOverflow) ∧
        heldKeys (CacheCall.play new overflowingCalls).entries = ["c", "a"] ∧
        Ledgered widestConfig.maxCost (CacheCall.play new overflowingCalls) ∧
        heldBytes (CacheCall.play new fairCalls) = 4 ∧
        heldBytes (CacheCall.play new fairCalls) ≤ widestConfig.maxCost.toNat := by
  have hpositive : 1 ≤ widestConfig.maxCost := by decide
  have hpays : ∀ call ∈ fairCalls, call.PaysLength := by
    simp [fairCalls, CacheCall.PaysLength]
  obtain ⟨new, hnew, hrun⟩ := withinBudget_of_run hpositive
  refine ⟨hpositive, hpays, new, hnew, ?_⟩
  have hfresh : ofConfig widestConfig = .ok { maxCost := widestConfig.maxCost } := rfl
  obtain rfl := Except.ok.inj (hfresh.symm.trans hnew)
  exact ⟨by decide +kernel, by decide +kernel, (hrun overflowingCalls).1, by decide +kernel,
    (hrun fairCalls).2.1 hpays⟩

end LruCache

end Guestbook
