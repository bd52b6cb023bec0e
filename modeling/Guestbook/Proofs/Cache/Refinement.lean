import Mathlib.Data.List.Nodup
import Guestbook.Proofs.Cache.Budget
import Guestbook.Proofs.Cache.Lawful

/-!
# A cost-bounded cache is part of a map

A run on a cost-bounded cache is compared with a run on a map cache that makes the same calls but
for the offers that were not taken. The map holds, under each key, the latest bytes taken since the
last clear. The cost-bounded cache holds the same or nothing, whatever was dropped, replaced,
declined or out of range, and it holds all of them as long as it dropped none to make room.

## Main definitions
- `CacheCall.takenBy`, `CacheCall.latest`: the calls with the offers that were taken, and what they
  put last under a key
- `CacheCall.AllAnswered`: a run in which no call goes out of range
- `LruCache.Within`, `LruCache.Matches`: a cost-bounded cache that holds a part of a map, or all of
  it
- `LruCache.Refines`: a run beside the one on a map

## Main statements
- `within_perform`, `matches_perform`: a call
- `allAnswered_of_cost`, `allAnswered_of_budget`: runs in which no call goes out of range
- `refines_of_run`: every run
-/

namespace Guestbook

/-! ## Offers that are taken -/

namespace CacheCall

variable {γ : Type} [Cache γ]

/-- Whether a call with an answer is anything but an offer that was not taken. -/
def isTaken : CacheCall → Except Stop CacheReply → Bool
  | set .., .ok (.truth accepted) => accepted
  | set .., _ => false
  | _, _ => true

/-- The calls of a run without the offers that the cache did not take. -/
def takenBy (c : γ) : List CacheCall → List CacheCall
  | [] => []
  | call :: calls =>
    let o := call.perform c
    if call.isTaken o.answer then call :: takenBy o.state calls else takenBy o.state calls

/-- What a call that is taken leaves under a key. -/
def after (key : String) (found : Option Bytes) : CacheCall → Option Bytes
  | set k bytes _ => if k = key then some bytes else found
  | clear => none
  | _ => found

/-- The bytes of the latest offer under a key since the last clear. -/
def latest (key : String) (calls : List CacheCall) : Option Bytes := calls.foldl (after key) none

/-- Every call of a run is answered, so none goes out of range. -/
def AllAnswered (c : γ) : List CacheCall → Prop
  | [] => True
  | call :: calls =>
    (∃ reply, (call.perform c).answer = .ok reply) ∧ AllAnswered (call.perform c).state calls

/-- The cost of an offer; any other call costs nothing. -/
def offered : CacheCall → Nat
  | set _ _ cost => cost.toNat
  | _ => 0

end CacheCall

/-! ## The map -/

namespace MapCache

theorem find?_perform (call : CacheCall) (m : MapCache) (key : String) :
    (call.perform m).state.entries.find? key = call.after key (m.entries.find? key) := by
  cases call with
  | get other =>
    rw [CacheCall.state_perform_get]
    show (get other m).state.entries.find? key = _
    unfold get
    split <;> rfl
  | set other bytes cost => exact SortedMap.find?_insert m.entries other key bytes
  | clear => rfl
  | stats => rfl

/-- A map holds the latest offer under each key. -/
theorem find?_play (calls : List CacheCall) (m : MapCache) (key : String) :
    (CacheCall.play m calls).entries.find? key
      = calls.foldl (CacheCall.after key) (m.entries.find? key) := by
  induction calls generalizing m with
  | nil => rfl
  | cons call calls ih =>
    rw [List.foldl_cons, ← find?_perform]
    exact ih (call.perform m).state

end MapCache

namespace LruCache

variable {c : LruCache} {m : MapCache} {budget : Cost}

/-! ## Bytes under a key -/

/-- The bytes that the first entry under a key holds. -/
def bytesUnder (key : String) (entries : List Entry) : Option Bytes :=
  (entries.find? fun e => e.key = key).map (·.bytes)

theorem bytesUnder_cons (key : String) (e : Entry) (entries : List Entry) :
    bytesUnder key (e :: entries)
      = if e.key = key then some e.bytes else bytesUnder key entries := by
  rw [bytesUnder, List.find?_cons]
  split
  · next h => rw [if_pos (of_decide_eq_true h)]; rfl
  · next h => rw [if_neg (of_decide_eq_false h)]; rfl

/-- Leaving out one key leaves the others alone. -/
theorem bytesUnder_without_of_ne {key other : String} (h : key ≠ other) (entries : List Entry) :
    bytesUnder other (without key entries) = bytesUnder other entries := by
  induction entries with
  | nil => rfl
  | cons e entries ih =>
    rw [without_cons]
    by_cases hkey : e.key = key
    · rw [if_pos hkey, bytesUnder_cons, if_neg (by rwa [hkey])]
    · rw [if_neg hkey, bytesUnder_cons, bytesUnder_cons, ih]

theorem bytesUnder_eq_none {key : String} {entries : List Entry} (h : key ∉ heldKeys entries) :
    bytesUnder key entries = none := by
  rw [bytesUnder, Option.map_eq_none_iff, List.find?_eq_none]
  intro e he hkey
  obtain rfl : e.key = key := of_decide_eq_true hkey
  exact h (List.mem_map_of_mem he)

/-- What the first entries hold under a key, all of them hold. -/
theorem bytesUnder_of_prefix {key : String} {kept entries : List Entry} (h : kept <+: entries)
    {bytes : Bytes} (hbytes : bytesUnder key kept = some bytes) :
    bytesUnder key entries = some bytes := by
  obtain ⟨rest, rfl⟩ := h
  obtain ⟨e, hfind, rfl⟩ := Option.map_eq_some_iff.mp hbytes
  rw [bytesUnder, List.find?_append, hfind]
  rfl

/-- What is held without the entries of a key was held. -/
theorem bytesUnder_of_without {key other : String} {entries : List Entry}
    (h : (heldKeys entries).Nodup) {bytes : Bytes}
    (hbytes : bytesUnder other (without key entries) = some bytes) :
    bytesUnder other entries = some bytes := by
  by_cases hother : key = other
  · subst hother
    rw [bytesUnder_eq_none (not_mem_heldKeys_without h)] at hbytes
    exact nomatch hbytes
  · rwa [bytesUnder_without_of_ne hother] at hbytes

/-- An entry in the place of those of its key holds what a map holds that takes it. -/
theorem bytesUnder_taken (e : Entry) (other : String) (entries : List Entry) :
    bytesUnder other (e :: without e.key entries) =
      if e.key = other then some e.bytes else bytesUnder other entries := by
  rw [bytesUnder_cons]
  split
  · rfl
  · next hother => exact bytesUnder_without_of_ne hother entries

/-- With more entries dropped to make room, no more is held than in the map. -/
theorem bytesUnder_of_taken {e : Entry} {other : String} {kept entries : List Entry}
    (hkept : kept <+: without e.key entries) {bytes : Bytes}
    (hbytes : bytesUnder other (e :: kept) = some bytes) :
    (if e.key = other then some e.bytes else bytesUnder other entries) = some bytes := by
  rw [← bytesUnder_taken]
  exact bytesUnder_of_prefix (List.cons_prefix_cons.mpr ⟨rfl, hkept⟩) hbytes

/-- With one entry under a key at most, the first one is the only one. -/
theorem mem_iff_bytesUnder {entries : List Entry} (h : (heldKeys entries).Nodup) (key : String)
    (bytes : Bytes) :
    (∃ e ∈ entries, e.key = key ∧ e.bytes = bytes) ↔ bytesUnder key entries = some bytes := by
  constructor
  · intro hentry
    obtain ⟨e, he, rfl, rfl⟩ := hentry
    induction entries with
    | nil => exact absurd he List.not_mem_nil
    | cons head entries ih =>
      rw [heldKeys, List.map_cons, List.nodup_cons] at h
      rw [bytesUnder_cons]
      rcases List.mem_cons.mp he with rfl | he
      · rw [if_pos rfl]
      · -- An entry further on has another key than the head.
        have hne : head.key ≠ e.key := by
          intro hkey
          rw [hkey] at h
          exact h.1 (List.mem_map_of_mem he)
        rw [if_neg hne]
        exact ih h.2 he
  · intro hbytes
    obtain ⟨e, hfind, rfl⟩ := Option.map_eq_some_iff.mp hbytes
    exact ⟨e, List.mem_of_find?_eq_some hfind, by simpa using List.find?_some hfind, rfl⟩

theorem answer_get (key : String) (c : LruCache) :
    (get key c).answer = .ok (bytesUnder key c.entries) := by
  unfold get
  split
  · next e h => rw [bytesUnder, show c.entries.find? _ = some e from h]; rfl
  · next h => rw [bytesUnder, show c.entries.find? _ = none from h]; rfl

theorem bytesUnder_get (key other : String) (c : LruCache) :
    bytesUnder other (get key c).state.entries = bytesUnder other c.entries := by
  unfold get
  split
  · next e h =>
    obtain ⟨-, hkey⟩ := mem_of_find? h
    dsimp only
    rw [bytesUnder_cons]
    split
    · -- The entry found is the one under its key.
      next hother =>
      obtain rfl : key = other := hkey.symm.trans hother
      rw [bytesUnder, show c.entries.find? _ = some e from h]
      rfl
    · next hother => exact bytesUnder_without_of_ne (hkey ▸ hother) c.entries
  · rfl

/-! ## Entries dropped to make room -/

/-- Every entry is kept or dropped, if room is made. -/
theorem length_makeRoom {maxCost incoming : Cost} {entries : List Entry} {cost : Cost}
    (h : (makeRoom maxCost incoming entries cost).answer = .ok ()) :
    (makeRoom maxCost incoming entries cost).dropped.length
      + (makeRoom maxCost incoming entries cost).kept.length = entries.length := by
  -- Each turn drops one entry; where the incoming cost fits the rest is kept.
  fun_induction makeRoom maxCost incoming entries cost with
  | case1 => rfl
  | case4 => exact Nat.zero_add _
  | case6 e rest cost total hadd hover left hsub room ih =>
    have hrest := ih h
    show (room.dropped.length + 1) + room.kept.length = rest.length + 1
    change room.dropped.length + room.kept.length = rest.length at hrest
    omega
  | _ => exact nomatch h

/-- Taking an entry counts the entries dropped for it. -/
theorem satisfies_accept_counted (c : LruCache) (e : Entry) :
    (accept e c).Satisfies
      (fun _ c' => c.evictions ≤ c'.evictions ∧
        c'.evictions + c'.entries.length = c.evictions + ((without e.key c.entries).length + 1))
      fun _ c' => c.evictions ≤ c'.evictions := by
  have hrelease : (release e.key c).Satisfies
      (fun _ c' => c'.evictions = c.evictions ∧ c'.entries = without e.key c.entries)
      fun _ c' => c'.evictions = c.evictions := by
    unfold release
    cases hfind : c.find? e.key with
    | none => exact ⟨rfl, (without_of_find?_eq_none hfind).symm⟩
    | some old =>
      dsimp only
      split
      · exact ⟨rfl, rfl⟩
      · exact rfl
  unfold accept
  rw [Action.satisfies_bind]
  apply hrelease.imp
  · intro _ c₁ hpost
    obtain ⟨hevictions₁, hentries₁⟩ := hpost
    have hroom := @length_makeRoom c₁.maxCost e.cost c₁.entries.reverse c₁.cost
    rw [Action.satisfies_bind]
    unfold evict
    generalize makeRoom c₁.maxCost e.cost c₁.entries.reverse c₁.cost = room at hroom
    obtain ⟨answer, kept, cost, dropped⟩ := room
    rw [← hevictions₁, ← hentries₁]
    cases answer with
    | ok _ =>
      have hlength := hroom rfl
      rw [List.length_reverse] at hlength
      rw [Outcome.satisfies_iff_of_ok rfl, Action.satisfies_bind]
      unfold push
      dsimp only at hlength ⊢
      -- Even where the cost of the entry is out of range, those dropped before are counted.
      split
      · refine ⟨Nat.le_add_right _ _, ?_⟩
        show c₁.evictions + dropped.length + (kept.reverse.length + 1) = _
        rw [List.length_reverse]
        omega
      · exact Nat.le_add_right _ _
    | error fault => exact Nat.le_add_right _ _
  · intro why c' hevictions
    exact Nat.le_of_eq hevictions.symm

/-! ## Calls -/

/-- What a call leaves under each key is what it leaves there in a map, or nothing. It leaves the
same as in a map if it is answered and drops no entry to make room. -/
structure Follows (c : LruCache) (call : CacheCall) (o : Outcome LruCache CacheReply) : Prop where
  below : ∀ key bytes, bytesUnder key o.state.entries = some bytes →
    (if call.isTaken o.answer then call.after key (bytesUnder key c.entries)
      else bytesUnder key c.entries) = some bytes
  evictions : c.evictions ≤ o.state.evictions
  same : (∃ reply, o.answer = .ok reply) → o.state.evictions = c.evictions → ∀ key,
    bytesUnder key o.state.entries =
      if call.isTaken o.answer then call.after key (bytesUnder key c.entries)
        else bytesUnder key c.entries

/-- A call that changes what a map would change follows it. -/
theorem Follows.of_eq {call : CacheCall} {o : Outcome LruCache CacheReply}
    (hentries : ∀ key, bytesUnder key o.state.entries =
      if call.isTaken o.answer then call.after key (bytesUnder key c.entries)
        else bytesUnder key c.entries)
    (hevictions : o.state.evictions = c.evictions) : Follows c call o where
  below := fun key _ hbytes => (hentries key).symm.trans hbytes
  evictions := Nat.le_of_eq hevictions.symm
  same := fun _ _ => hentries

/-- An offer follows a map whether it is taken, declined or out of range. -/
theorem follows_set (h : WithinBudget budget c) (key : String) (bytes : Bytes) (cost : Cost) :
    Follows c (.set key bytes cost) ((CacheCall.set key bytes cost).perform c) := by
  have hstate := CacheCall.state_perform_set key bytes cost c
  have hanswer := CacheCall.answer_perform_set key bytes cost c
  generalize (CacheCall.set key bytes cost).perform c = o at hstate hanswer ⊢
  obtain ⟨answer, c', events⟩ := o
  obtain rfl : c' = (set key bytes cost c).state := hstate
  obtain rfl : answer = (set key bytes cost c).answer.map CacheReply.truth := hanswer
  unfold set
  split
  · -- A declined offer leaves the entries alone.
    exact .of_eq (fun _ => rfl) rfl
  · have haccept := satisfies_accept h.balanced ⟨key, bytes, cost⟩
    have hcounted := satisfies_accept_counted c ⟨key, bytes, cost⟩
    generalize accept ⟨key, bytes, cost⟩ c = o at haccept hcounted
    obtain ⟨answer | answer, c', events⟩ := o
    · -- Out of range, the entry under the key is lost.
      obtain ⟨-, -, -, hentries⟩ := haccept
      refine ⟨?_, hcounted, fun ⟨_, hreply⟩ => nomatch hreply⟩
      intro other found hfound
      change bytesUnder other c'.entries = some found at hfound
      rw [hentries] at hfound
      exact bytesUnder_of_without h.nodup hfound
    · obtain ⟨rfl, -, -, -, kept, hkept, hentries⟩ := haccept
      obtain ⟨hle, hlength⟩ := hcounted
      change kept <+: without key c.entries at hkept
      refine ⟨?_, hle, ?_⟩
      · intro other found hfound
        change bytesUnder other c'.entries = some found at hfound
        rw [hentries] at hfound
        exact bytesUnder_of_taken (e := ⟨key, bytes, cost⟩) hkept hfound
      · intro _ hevictions other
        change c'.evictions = c.evictions at hevictions
        -- No entry was dropped, so all others are kept.
        obtain rfl : kept = without key c.entries := by
          apply hkept.eq_of_length
          change c'.evictions + c'.entries.length
            = c.evictions + ((without key c.entries).length + 1) at hlength
          rw [hentries, List.length_cons] at hlength
          omega
        show bytesUnder other c'.entries = _
        rw [hentries]
        exact bytesUnder_taken ⟨key, bytes, cost⟩ other c.entries

theorem follows_perform (h : WithinBudget budget c) (call : CacheCall) :
    Follows c call (call.perform c) := by
  cases call with
  | get key =>
    apply Follows.of_eq
    · intro other
      rw [CacheCall.state_perform_get]
      exact bytesUnder_get key other c
    · rw [CacheCall.state_perform_get]
      show (get key c).state.evictions = c.evictions
      unfold get
      split <;> rfl
  | set key bytes cost => exact follows_set h key bytes cost
  | clear => exact .of_eq (fun _ => rfl) rfl
  | stats => exact .of_eq (fun _ => rfl) rfl

/-! ## Beside a map -/

/-- A cost-bounded cache holds under each key what a map holds there, or nothing. -/
def Within (c : LruCache) (m : MapCache) : Prop :=
  ∀ key bytes, bytesUnder key c.entries = some bytes → m.entries.find? key = some bytes

/-- A cost-bounded cache holds under each key what a map holds there. -/
def Matches (c : LruCache) (m : MapCache) : Prop :=
  ∀ key, bytesUnder key c.entries = m.entries.find? key

end LruCache

namespace MapCache

/-- A map after a call that a cost-bounded cache answered: a map that makes the call if it was
taken. -/
def follow (call : CacheCall) (answer : Except Stop CacheReply) (m : MapCache) : MapCache :=
  if call.isTaken answer then (call.perform m).state else m

theorem find?_follow (call : CacheCall) (answer : Except Stop CacheReply) (m : MapCache)
    (key : String) :
    (follow call answer m).entries.find? key =
      if call.isTaken answer then call.after key (m.entries.find? key)
        else m.entries.find? key := by
  unfold follow
  split
  · exact find?_perform call m key
  · rfl

end MapCache

namespace CacheCall

/-- What is left under a key grows with what was there. -/
theorem after_of_below {key : String} {found found' : Option Bytes} {call : CacheCall}
    (h : ∀ bytes, found = some bytes → found' = some bytes) {bytes : Bytes}
    (hbytes : call.after key found = some bytes) : call.after key found' = some bytes := by
  cases call with
  | set other bytes' cost =>
    change (if other = key then some bytes' else found) = some bytes at hbytes
    show (if other = key then some bytes' else found') = some bytes
    split at hbytes
    · next hkey => rwa [if_pos hkey]
    · next hkey =>
      rw [if_neg hkey]
      exact h bytes hbytes
  | clear => exact hbytes
  | get other => exact h bytes hbytes
  | stats => exact h bytes hbytes

theorem play_takenBy_cons (m : MapCache) (c : LruCache) (call : CacheCall)
    (calls : List CacheCall) :
    play m (takenBy c (call :: calls))
      = play (m.follow call (call.perform c).answer) (takenBy (call.perform c).state calls) := by
  rw [takenBy, MapCache.follow]
  cases call.isTaken (call.perform c).answer <;> rfl

end CacheCall

namespace LruCache

variable {c : LruCache} {m : MapCache} {budget : Cost}

theorem within_perform (h : WithinBudget budget c) (hm : Within c m) (call : CacheCall) :
    Within (call.perform c).state (m.follow call (call.perform c).answer) := by
  intro key bytes hbytes
  have hbelow := (follows_perform h call).below key bytes hbytes
  rw [MapCache.find?_follow]
  split at hbelow
  · next htaken =>
    rw [if_pos htaken]
    exact CacheCall.after_of_below (hm key) hbelow
  · next htaken =>
    rw [if_neg htaken]
    exact hm key bytes hbelow

/-- A call that is answered and drops no entry to make room loses none. -/
theorem matches_perform (h : WithinBudget budget c) (hm : Matches c m) {call : CacheCall}
    (hanswered : ∃ reply, (call.perform c).answer = .ok reply)
    (hnone : (call.perform c).state.evictions = c.evictions) :
    Matches (call.perform c).state (m.follow call (call.perform c).answer) := by
  intro key
  rw [MapCache.find?_follow, (follows_perform h call).same hanswered hnone key, hm key]

/-! ## Runs -/

theorem evictions_play (h : WithinBudget budget c) (calls : List CacheCall) :
    c.evictions ≤ (CacheCall.play c calls).evictions := by
  induction calls generalizing c with
  | nil => exact Nat.le_refl _
  | cons call calls ih =>
    have hrest := ih (WithinBudget.preserves_perform call c h)
    exact Nat.le_trans (follows_perform h call).evictions hrest

theorem within_play (h : WithinBudget budget c) (hm : Within c m) (calls : List CacheCall) :
    Within (CacheCall.play c calls) (CacheCall.play m (CacheCall.takenBy c calls)) := by
  -- The map follows call by call, and each call keeps the cache within it.
  induction calls generalizing c m with
  | nil => exact hm
  | cons call calls ih =>
    rw [CacheCall.play_takenBy_cons]
    exact ih (WithinBudget.preserves_perform call c h) (within_perform h hm call)

theorem matches_play (h : WithinBudget budget c) (hm : Matches c m) {calls : List CacheCall}
    (hanswered : CacheCall.AllAnswered c calls)
    (hnone : (CacheCall.play c calls).evictions = c.evictions) :
    Matches (CacheCall.play c calls) (CacheCall.play m (CacheCall.takenBy c calls)) := by
  induction calls generalizing c m with
  | nil => exact hm
  | cons call calls ih =>
    obtain ⟨hcall, hcalls⟩ := hanswered
    -- The count of entries dropped only grows, so it is the same after the call and after the rest.
    have hwithin := WithinBudget.preserves_perform call c h
    have hfirst := (follows_perform h call).evictions
    have hrest := evictions_play hwithin calls
    change (CacheCall.play (call.perform c).state calls).evictions = c.evictions at hnone
    rw [CacheCall.play_takenBy_cons]
    apply ih hwithin _ hcalls
    · omega
    · exact matches_perform h hm hcall (by omega)

/-! ## Runs in range -/

/-- A call is answered if the cost of its offer and that of the entries held are a word together. -/
theorem answered_perform (h : Balanced c) {call : CacheCall}
    (hroom : totalCost c.entries + call.offered < UInt64.size ∨
      totalCost c.entries + c.maxCost.toNat < UInt64.size) :
    ∃ reply, (call.perform c).answer = .ok reply := by
  cases call with
  | set key bytes cost =>
    rw [CacheCall.answer_perform_set]
    show ∃ reply, (set key bytes cost c).answer.map CacheReply.truth = .ok reply
    rw [answer_set h]
    split
    · exact ⟨_, rfl⟩
    · next hle =>
      -- What stays held under the other keys costs no more than what is held.
      rw [Std.not_lt, UInt64.le_iff_toNat_le] at hle
      have hless := totalCost_le_of_sublist (without_sublist key c.entries)
      change totalCost c.entries + cost.toNat < UInt64.size ∨ _ at hroom
      rw [if_pos (by omega)]
      exact ⟨_, rfl⟩
  | get key =>
    rw [CacheCall.answer_perform_get]
    show ∃ reply, (get key c).answer.map CacheReply.bytes = .ok reply
    rw [answer_get]
    exact ⟨_, rfl⟩
  | clear => exact ⟨_, rfl⟩
  | stats => exact ⟨_, rfl⟩

theorem totalCost_perform_le (h : Balanced c) (call : CacheCall) :
    totalCost (call.perform c).state.entries ≤ totalCost c.entries + call.offered := by
  cases call with
  | set key bytes cost =>
    have hset : (set key bytes cost c).Satisfies
        (fun _ c' => totalCost c'.entries ≤ totalCost c.entries + cost.toNat)
        fun _ c' => totalCost c'.entries ≤ totalCost c.entries + cost.toNat := by
      have hless := totalCost_le_of_sublist (without_sublist key c.entries)
      unfold set
      split
      · exact Nat.le_add_right _ _
      · apply (satisfies_accept h ⟨key, bytes, cost⟩).imp
        · intro _ c' hpost
          obtain ⟨-, -, -, -, kept, hkept, hentries⟩ := hpost
          have hkeptCost := totalCost_le_of_sublist hkept.sublist
          rw [hentries, totalCost_cons]
          dsimp only at hkeptCost ⊢
          omega
        · intro _ c' hpost
          obtain ⟨-, -, -, hentries⟩ := hpost
          rw [hentries]
          dsimp only
          omega
    rw [CacheCall.state_perform_set]
    exact hset.state
  | get key =>
    obtain ⟨hbalanced, hcost⟩ := balanced_get h key
    rw [CacheCall.state_perform_get]
    show totalCost (get key c).state.entries ≤ _
    rw [← hbalanced, hcost, h]
    exact Nat.le_add_right _ _
  | clear => exact Nat.zero_le _
  | stats => exact Nat.le_add_right _ _

/-- No call goes out of range if all costs offered are a word together. -/
theorem allAnswered_of_cost (h : WithinBudget budget c) {calls : List CacheCall}
    (hsum : totalCost c.entries + (calls.map CacheCall.offered).sum < UInt64.size) :
    CacheCall.AllAnswered c calls := by
  induction calls generalizing c with
  | nil => trivial
  | cons call calls ih =>
    rw [List.map_cons, List.sum_cons] at hsum
    have hcost := totalCost_perform_le h.balanced call
    exact ⟨answered_perform h.balanced (.inl (by omega)),
      ih (WithinBudget.preserves_perform call c h) (by omega)⟩

/-- No call goes out of range if twice the budget is a word. -/
theorem allAnswered_of_budget (h : WithinBudget budget c) (hbudget : 2 * budget.toNat < UInt64.size)
    (calls : List CacheCall) : CacheCall.AllAnswered c calls := by
  induction calls generalizing c with
  | nil => trivial
  | cons call calls ih =>
    have hcost : c.cost.toNat = totalCost c.entries := h.balanced
    have hle := UInt64.le_iff_toNat_le.mp h.cost_le
    refine ⟨answered_perform h.balanced (.inr ?_), ih (WithinBudget.preserves_perform call c h)⟩
    rw [h.maxCost]
    omega

/-! ## Refinement -/

theorem mem_entries {key : String} {bytes : Bytes} (h : (heldKeys c.entries).Nodup) :
    (key, bytes) ∈ LawfulCache.entries c ↔ bytesUnder key c.entries = some bytes := by
  rw [← mem_iff_bytesUnder h]
  show (key, bytes) ∈ c.entries.map (fun e => (e.key, e.bytes)) ↔ _
  simp only [List.mem_map, Prod.mk.injEq]

theorem map_fst_entries (c : LruCache) :
    (LawfulCache.entries c).map Prod.fst = heldKeys c.entries := by
  show (c.entries.map fun e => (e.key, e.bytes)).map Prod.fst = heldKeys c.entries
  rw [List.map_map]
  rfl

/-- The map after the same calls without the offers that were not taken. -/
def mapOf (c : LruCache) (calls : List CacheCall) : MapCache :=
  CacheCall.play {} (CacheCall.takenBy c calls)

/-- A run of a cost-bounded cache beside that of the map. -/
structure Refines (new : LruCache) (calls : List CacheCall) : Prop where
  /-- There is one entry under a key at most. -/
  nodup : (heldKeys (CacheCall.play new calls).entries).Nodup
  /-- Every entry is one of the map. -/
  subset : LawfulCache.entries (CacheCall.play new calls) ⊆ LawfulCache.entries (mapOf new calls)
  /-- The map has the latest bytes taken since the last clear. -/
  latest : ∀ key, (Cache.get key (mapOf new calls)).answer
    = .ok (CacheCall.latest key (CacheCall.takenBy new calls))
  /-- Every hit serves them. -/
  hits : ∀ key bytes, (Cache.get key (CacheCall.play new calls)).answer = .ok (some bytes) →
    CacheCall.latest key (CacheCall.takenBy new calls) = some bytes
  /-- Until an entry is dropped to make room both hold and answer the same. -/
  same : CacheCall.AllAnswered new calls → (CacheCall.play new calls).evictions = 0 →
    (LawfulCache.entries (CacheCall.play new calls)).Perm (LawfulCache.entries (mapOf new calls)) ∧
      ∀ key, (Cache.get key (CacheCall.play new calls)).answer
        = (Cache.get key (mapOf new calls)).answer

theorem WithinBudget.refines (h : WithinBudget budget c) (hempty : c.entries = [])
    (hnone : c.evictions = 0) (calls : List CacheCall) : Refines c calls := by
  have hwithin : WithinBudget budget (CacheCall.play c calls) := h.play calls
  have hbelow : Within (CacheCall.play c calls) (mapOf c calls) := by
    apply within_play h
    intro key bytes hbytes
    rw [hempty] at hbytes
    exact nomatch hbytes
  have hlatest : ∀ key, (mapOf c calls).entries.find? key
      = CacheCall.latest key (CacheCall.takenBy c calls) := fun key =>
    MapCache.find?_play (CacheCall.takenBy c calls) {} key
  have hmem : ∀ key bytes, (key, bytes) ∈ LawfulCache.entries (CacheCall.play c calls) ↔
      bytesUnder key (CacheCall.play c calls).entries = some bytes := fun _ _ =>
    mem_entries hwithin.nodup
  refine ⟨hwithin.nodup, ?_, ?_, ?_, ?_⟩
  · intro entry hentry
    obtain ⟨key, bytes⟩ := entry
    exact SortedMap.mem_of_findEntry (hbelow key bytes ((hmem key bytes).mp hentry))
  · intro key
    rw [← hlatest]
    exact MapCache.answer_get key (mapOf c calls)
  · intro key bytes hhit
    have hanswer := answer_get key (CacheCall.play c calls)
    rw [← hlatest]
    exact hbelow key bytes (Except.ok.inj (hanswer.symm.trans hhit))
  · intro hanswered hevictions
    have hmatches : Matches (CacheCall.play c calls) (mapOf c calls) :=
      matches_play h (fun key => by rw [hempty]; rfl) hanswered (hevictions.trans hnone.symm)
    constructor
    · have hnodup : (LawfulCache.entries (CacheCall.play c calls)).Nodup := by
        apply List.Nodup.of_map Prod.fst
        rw [map_fst_entries]
        exact hwithin.nodup
      -- Lists without repetition are the same up to order if they have the same entries.
      apply (List.perm_ext_iff_of_nodup hnodup (mapOf c calls).entries.nodup_entries).mpr
      intro entry
      obtain ⟨key, bytes⟩ := entry
      rw [hmem, hmatches key]
      exact ⟨SortedMap.mem_of_findEntry, SortedMap.find?_of_mem⟩
    · intro key
      have hanswer := answer_get key (CacheCall.play c calls)
      rw [hmatches key] at hanswer
      exact hanswer.trans (MapCache.answer_get key (mapOf c calls)).symm

/-- Every run of a new cost-bounded cache is part of that of a map which leaves out the offers that
were not taken, whatever was dropped, replaced, declined or out of range on the way. No call is out
of range if the costs offered, or twice the budget, are a word. -/
theorem refines_of_run {config : CacheConfig} (hpositive : 1 ≤ config.maxCost) :
    ∃ new, ofConfig config = .ok new ∧ ∀ calls : List CacheCall,
      Refines new calls ∧
        ((calls.map CacheCall.offered).sum < UInt64.size ∨
          2 * config.maxCost.toNat < UInt64.size → CacheCall.AllAnswered new calls) := by
  refine ⟨{ maxCost := config.maxCost }, ofConfig_of_pos hpositive, ?_⟩
  intro calls
  have hnew := WithinBudget.new config.maxCost
  refine ⟨hnew.refines rfl rfl calls, ?_⟩
  intro hrange
  rcases hrange with hsum | hbudget
  · exact allAnswered_of_cost hnew ((Nat.zero_add _).symm ▸ hsum)
  · exact allAnswered_of_budget hnew hbudget calls

/-- A budget that three entries do not fit in. -/
def tightConfig : CacheConfig := { maxCost := 10 }

/-- Offers of which one makes room for another, one is declined and one replaces an entry, after a
clear. -/
def crowdingCalls : List CacheCall :=
  [.set "a" [9] 1, .clear, .set "a" [1] 4, .set "b" [2] 4, .get "a", .set "c" [3] 4,
    .set "c" [5] 11, .set "a" [4, 4] 2]

/-- Offers that all fit, but for one that is declined. -/
def fittingCalls : List CacheCall :=
  [.set "a" [1] 4, .set "b" [2] 4, .set "c" [3] 11, .set "a" [4, 4] 2, .get "b"]

/-- The entry that was not used for the longest time is dropped from the cost-bounded cache and
stays in the map. While the offers fit both hold the same. -/
theorem refines_of_run_crowding :
    1 ≤ tightConfig.maxCost ∧ 2 * tightConfig.maxCost.toNat < UInt64.size ∧
      ∃ new, ofConfig tightConfig = .ok new ∧ Refines new crowdingCalls ∧
        LawfulCache.entries (CacheCall.play new crowdingCalls) = [("a", [4, 4]), ("c", [3])] ∧
        LawfulCache.entries (mapOf new crowdingCalls) = [("a", [4, 4]), ("b", [2]), ("c", [3])] ∧
        (CacheCall.play new fittingCalls).evictions = 0 ∧
        (CacheCall.play new fittingCalls).rejections = 1 ∧
        (LawfulCache.entries (CacheCall.play new fittingCalls)).Perm
          (LawfulCache.entries (mapOf new fittingCalls)) := by
  have hpositive : 1 ≤ tightConfig.maxCost := by decide
  have hbudget : 2 * tightConfig.maxCost.toNat < UInt64.size := by decide
  obtain ⟨new, hnew, hrun⟩ := refines_of_run hpositive
  refine ⟨hpositive, hbudget, new, hnew, (hrun crowdingCalls).1, ?_⟩
  obtain ⟨hfitting, hanswered⟩ := hrun fittingCalls
  have hsame := hfitting.same (hanswered (.inr hbudget))
  obtain rfl := Except.ok.inj ((ofConfig_of_pos hpositive).symm.trans hnew)
  have hnone : (CacheCall.play ({ maxCost := tightConfig.maxCost } : LruCache)
      fittingCalls).evictions = 0 := by decide +kernel
  exact ⟨by decide +kernel, by decide +kernel, hnone, by decide +kernel, (hsame hnone).1⟩

end LruCache

end Guestbook
