import Guestbook.Proofs.Board.ReadThrough
import Guestbook.Proofs.Board.Reads
import Guestbook.Proofs.Cache.Lawful
import Guestbook.Proofs.Json.RoundTrip

/-!
# Reads through the cache

What the cache of a board holds under a key is described by a property of messages, which every
entry has and every offer keeps. A read through the cache then answers an entry with the property or
what the store holds, and it fails only if the store refuses it or the cost of an entry that it
offers is beyond a word.

## Main definitions
- `Caches`: every entry of a cache decodes to messages with a property
- `Board.Serves`: messages that a read through the cache may answer

## Main statements
- `satisfies_cached`, `satisfies_populate`: the parts of a read through the cache
- `satisfies_readThrough_of_caches`: a read through the entry under a key
- `satisfies_allCached`: the full list
-/

namespace Guestbook

open Outcome (Satisfies)

variable {γ : Type} [Cache γ] [LawfulCache γ] {P : String → List Message → Prop}

/-! ## What a cache holds -/

/-- Every entry of a cache decodes to messages that `P` allows under its key. -/
structure Caches (P : String → List Message → Prop) (cache : γ) : Prop where
  balanced : LawfulCache.Balanced cache
  decodes : ∀ key bytes, (key, bytes) ∈ LawfulCache.entries cache →
    ∃ ms, Json.decodeMessages bytes = .ok ms ∧ P key ms

namespace Caches

variable {cache cache' : γ}

theorem of_isEmpty (h : LawfulCache.IsEmpty cache) : Caches P cache where
  balanced := h.balanced
  decodes := by
    intro key bytes hentry
    rw [h.entries] at hentry
    exact absurd hentry List.not_mem_nil

/-- A cache that comes to hold nothing else keeps what it holds. -/
theorem of_subset (h : Caches P cache) (hbalanced : LawfulCache.Balanced cache')
    (hsubset : LawfulCache.entries cache' ⊆ LawfulCache.entries cache) : Caches P cache' where
  balanced := hbalanced
  decodes := fun key bytes hentry => h.decodes key bytes (hsubset hentry)

/-- A cache may be offered messages that belong under the key. -/
theorem of_offer (h : Caches P cache) {key : String} {ms : List Message} (hms : P key ms)
    (hbalanced : LawfulCache.Balanced cache')
    (hsubset : LawfulCache.entries cache'
      ⊆ (key, Json.encodeMessages ms) :: LawfulCache.entries cache) : Caches P cache' where
  balanced := hbalanced
  decodes := by
    intro key' bytes hentry
    rcases List.mem_cons.mp (hsubset hentry) with heq | hentry
    · -- The entry is the one offered, and an encoding decodes to what it encodes.
      obtain ⟨rfl, rfl⟩ := Prod.mk.inj heq
      exact ⟨ms, Json.decodeMessages_encodeMessages ms, hms⟩
    · exact h.decodes key' bytes hentry

end Caches

namespace Board

variable {b : Board (ObservedStore MemoryStore) γ}

/-- What a look-up in the cache of a board answers. -/
def found (b : Board (ObservedStore MemoryStore) γ) (key : String) : Except Stop (Option Bytes) :=
  (Cache.get key b.cache).answer

/-- The messages that a read under a key answers: those that the cache has under the key, or else
those of the store. -/
def Serves (b : Board (ObservedStore MemoryStore) γ) (key : String) (stored ms : List Message) :
    Prop :=
  (b.found key = .ok none ∧ ms = stored) ∨
    ∃ bytes, b.found key = .ok (some bytes) ∧ Json.decodeMessages bytes = .ok ms

/-- What messages cost a cache. -/
def price (ms : List Message) : Cost := UInt64.ofNat (Json.encodeMessages ms).length

theorem price_le (ms : List Message) : (price ms).toNat ≤ (Json.encodeMessages ms).length := by
  rw [price, UInt64.toNat_ofNat']
  exact Nat.mod_le _ _

omit [Cache γ] [LawfulCache γ] in
@[simp] theorem satisfies_atCache {α : Type} (a : Action γ α)
    {Q : α → Board (ObservedStore MemoryStore) γ → Prop}
    {E : Stop → Board (ObservedStore MemoryStore) γ → Prop} :
    (atCache a b).Satisfies Q E ↔
      (a b.cache).Satisfies (fun x cache => Q x { b with cache })
        fun why cache => E why { b with cache } := Iff.rfl

/-! ## Parts of a read -/

/-- A look-up on the board cannot fail and answers what the cache has under the key, which has the
property of the entries. -/
theorem satisfies_cached (hc : Caches P b.cache) (key : String) :
    (cached key b).Satisfies
      (fun found c => (match found with
          | none => b.found key = .ok none
          | some ms => P key ms ∧
            ∃ bytes, b.found key = .ok (some bytes) ∧ Json.decodeMessages bytes = .ok ms) ∧
        ∃ cache, c = { b with cache } ∧ Caches P cache ∧
          (Cache.stats cache).cost = (Cache.stats b.cache).cost)
      fun _ _ => False := by
  unfold cached
  rw [Action.satisfies_bind, satisfies_atCache]
  refine (LawfulCache.satisfies_get hc.balanced key).with_answer.imp ?_ fun _ _ => id
  intro found cache hpost
  obtain ⟨⟨⟨hbalanced, hsubset, hcost⟩, hfound⟩, hanswer⟩ := hpost
  have hcache := hc.of_subset hbalanced hsubset
  cases found with
  | none => exact ⟨hanswer, cache, rfl, hcache, hcost⟩
  | some bytes =>
    -- The entry served was held, so it decodes.
    obtain ⟨ms, hdecode, hms⟩ := hc.decodes key bytes (hfound bytes rfl)
    dsimp only
    rw [hdecode]
    exact ⟨⟨hms, bytes, hanswer, hdecode⟩, cache, rfl, hcache, hcost⟩

/-- Offering messages to the cache keeps what it holds, whether it takes them or not. -/
theorem satisfies_populate (hc : Caches P b.cache) {key : String} {ms : List Message}
    (hms : P key ms) :
    (populate key ms b).Satisfies
      (fun _ c => ∃ cache, c = { b with cache } ∧ Caches P cache)
      fun why c => (why = .fault .addOverflow ∧
          UInt64.size ≤ (Cache.stats b.cache).cost + (price ms).toNat) ∧
        ∃ cache, c = { b with cache } ∧ Caches P cache := by
  unfold populate
  rw [Action.satisfies_bind, satisfies_atCache]
  apply (LawfulCache.satisfies_set hc.balanced key (Json.encodeMessages ms) _).imp
  · intro accepted cache hpost
    obtain ⟨hbalanced, hsubset⟩ := hpost
    have hcache := hc.of_offer hms hbalanced hsubset
    cases accepted <;> exact ⟨cache, rfl, hcache⟩
  · intro why cache hpost
    obtain ⟨⟨hbalanced, hsubset⟩, hwhy, hcost⟩ := hpost
    exact ⟨⟨hwhy, hcost⟩, cache, rfl, hc.of_offer hms hbalanced hsubset⟩

/-! ## A read through an entry -/

/-- A read through an entry answers what the cache holds or what was read from the store. It stops
where the read does, or for the cost of what was read. -/
theorem satisfies_readThrough_of_caches (hidle : b.store.inner.gate.connecting = false)
    (hc : Caches P b.cache) {key : String} {hit : Event}
    {read : Action (Board (ObservedStore MemoryStore) γ) (List Message)}
    {stored : List Message → Prop} {stops : Stop → Prop}
    (hread : ∀ cache, (read { b with cache }).Satisfies
      (fun ms c => stored ms ∧ Read { b with cache } c ∧ c.cache = cache)
      fun why c => stops why ∧ Stayed { b with cache } c ∧ c.cache = cache)
    (hP : ∀ ms, stored ms → P key ms) :
    (readThrough key hit read b).Satisfies
      (fun ms c => (P key ms ∧ (b.found key = .ok none ∧ stored ms ∨
          ∃ bytes, b.found key = .ok (some bytes) ∧ Json.decodeMessages bytes = .ok ms)) ∧
        Read b c ∧ Caches P c.cache)
      fun why c => (stops why ∨ why = .fault .addOverflow ∧ ∃ ms, stored ms ∧
          UInt64.size ≤ (Cache.stats b.cache).cost + (price ms).toNat) ∧
        Stayed b c ∧ Caches P c.cache := by
  have hlooked : ∀ cache, Read b { b with cache } := fun cache => (Read.refl hidle).withCache cache
  apply satisfies_readThrough ((satisfies_cached hc key).imp (fun _ _ => id) fun _ _ => False.elim)
  · rintro ms c ⟨hfound, cache, rfl, hcache, -⟩
    exact ⟨⟨hfound.1, .inr hfound.2⟩, hlooked cache, hcache⟩
  · rintro c ⟨hfound, cache, rfl, hcache, hcost⟩
    apply (hread cache).imp
    · -- A miss offers what it read.
      rintro ms d ⟨hms, hread', rfl⟩
      apply (satisfies_populate hcache (hP ms hms)).imp
      · rintro - e ⟨cache', rfl, hcache'⟩
        exact ⟨⟨hP ms hms, .inl ⟨hfound, hms⟩⟩,
          ((hlooked _).trans hread').withCache cache', hcache'⟩
      · rintro why e ⟨⟨hwhy, hsize⟩, cache', rfl, hcache'⟩
        rw [hcost] at hsize
        exact ⟨.inr ⟨hwhy, ms, hms, hsize⟩, (((hlooked _).trans hread').withCache cache').stayed,
          hcache'⟩
    · rintro why d ⟨hwhy, hstayed, rfl⟩
      exact ⟨.inl hwhy, (hlooked _).stayed_of_stayed hstayed, hcache⟩

/-- The full list is what the cache holds or what the store holds. -/
theorem satisfies_allCached (hb : Settled b) (hc : Caches P b.cache) (byTimestamp : Bool)
    {stored : List Message} (hstored : stored = if byTimestamp
      then Message.sortByTimestamp b.store.inner.messages else b.store.inner.messages)
    (hP : P Page.allMessagesKey stored) :
    (allCached byTimestamp b).Satisfies
      (fun ms c => (P Page.allMessagesKey ms ∧ b.Serves Page.allMessagesKey stored ms) ∧
        Read b c ∧ Caches P c.cache)
      fun why c => (b.store.Refuses .scanAll why ∨ why = .fault .addOverflow ∧
          UInt64.size ≤ (Cache.stats b.cache).cost + (price stored).toNat) ∧
        Stayed b c ∧ Caches P c.cache := by
  have hall : ∀ cache : γ, (all byTimestamp { b with cache }).Satisfies
      (fun ms c => ms = stored ∧ Read { b with cache } c ∧ c.cache = cache)
      fun why c => b.store.Refuses .scanAll why ∧ Stayed { b with cache } c ∧ c.cache = cache := by
    intro cache
    rw [hstored]
    exact satisfies_all (hb.withCache cache) byTimestamp
  rw [allCached_eq]
  apply (satisfies_readThrough_of_caches hb.idle hc hall fun ms hms => hms ▸ hP).imp
  · exact fun _ _ => id
  · rintro why c ⟨hrefuses | ⟨hwhy, ms, rfl, hsize⟩, hstayed, hcache⟩
    · exact ⟨.inl hrefuses, hstayed, hcache⟩
    · exact ⟨.inr ⟨hwhy, hsize⟩, hstayed, hcache⟩

end Board

end Guestbook
