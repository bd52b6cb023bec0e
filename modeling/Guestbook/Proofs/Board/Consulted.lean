import Guestbook.Proofs.Board.Frame
import Guestbook.Proofs.Board.Reads

/-!
# Which requests consult which key

A request reads through one entry of the cache or through none: full lists do, and pages that are
valid and counted. On a board over the in-memory store, the key of the full list is consulted by
full lists and by pages that hold all messages, and the key of a page by that page only.

## Main definitions
- `BoardRequest.consulted`: the key that a request consults, if it consults one

## Main statements
- `BoardRequest.exists_readThrough`: what consults a key is a read through the entry under it
- `BoardRequest.cache_serve_of_unconsulted`: what consults none leaves the cache alone
- `BoardRequest.consulted_list_iff`, `BoardRequest.consulted_page_iff`: which requests consult which
  key
-/

namespace Guestbook

open Guestbook.Action (Preserves preserves_pure)

namespace BoardRequest

open Board (ReadsKeep readThrough)

section Consulted

variable {σ γ : Type} [Store σ] [Cache γ] {b : Board σ γ} {r : BoardRequest} {key : String}

/-- The key that a request consults in the cache of a board, if it consults one. A page that cannot
be counted stops before it does. -/
def consulted (b : Board σ γ) : BoardRequest → Option String
  | allCached _ => some Page.allMessagesKey
  | page number size =>
    if number < 1 ∨ size < 1 then none
    else match (Board.count b).answer with
      | .ok n => some (Board.pageEntry number size n)
      | .error _ => none
  | _ => none

omit [Cache γ] in
/-- Only full lists through the cache, and valid pages that are counted, consult a key. -/
theorem consulted_eq_some (h : r.consulted b = some key) :
    (key = Page.allMessagesKey ∧ ∃ byTimestamp, r = allCached byTimestamp) ∨
      ∃ number size n, r = page number size ∧ ¬ (number < 1 ∨ size < 1) ∧
        (Board.count b).answer = .ok n ∧ key = Board.pageEntry number size n := by
  cases r with
  | allCached byTimestamp => exact .inl ⟨(Option.some.inj h).symm, byTimestamp, rfl⟩
  | page number size =>
    rw [consulted] at h
    split at h
    · cases h
    · next hvalid =>
      split at h
      · next n hcount =>
        exact .inr ⟨number, size, n, rfl, hvalid, hcount, (Option.some.inj h).symm⟩
      · cases h
  | _ => cases h

omit [Cache γ] in
theorem consulted_page {number size : Int64} {n : Nat} (hvalid : ¬ (number < 1 ∨ size < 1))
    (hcount : (Board.count b).answer = .ok n) :
    (page number size).consulted b = some (Board.pageEntry number size n) := by
  rw [consulted, if_neg hvalid, hcount]

/-- What consults a key is a read through the entry under it, from a board with the same cache. -/
theorem exists_readThrough (h : r.consulted b = some key) :
    ∃ (c : Board σ γ) (hit : Event) (read : Action (Board σ γ) (List Message)),
      c.cache = b.cache ∧ (∀ P, ReadsKeep P → Preserves P read) ∧
        (r.serve b).answer = (readThrough key hit read c).answer.map .messages ∧
        (r.serve b).state = (readThrough key hit read c).state := by
  rcases consulted_eq_some h with
    ⟨rfl, byTimestamp, rfl⟩ | ⟨number, size, n, rfl, hvalid, hcount, rfl⟩
  · exact ⟨b, _, Board.all byTimestamp, rfl, fun _ hP => Board.preserves_all hP byTimestamp,
      answer_serve_allCached byTimestamp b, state_serve_allCached byTimestamp b⟩
  · -- The read begins after the count, which leaves the cache alone.
    have hpage := Board.page_of_count hvalid hcount
    refine ⟨(Board.count b).state, Board.pageHit number size n, Board.pageRead number size n, rfl,
      fun _ hP => Board.preserves_pageRead hP number size n, ?_, ?_⟩
    · rw [answer_serve_page, hpage.1]
    · rw [state_serve_page, hpage.2]

/-- A read that consults no key leaves the cache alone. -/
theorem cache_serve_of_unconsulted (hr : r.reads = true) (h : r.consulted b = none) :
    (r.serve b).state.cache = b.cache := by
  have hreads : ReadsKeep fun c : Board σ γ => c.cache = b.cache := .ofCache (· = b.cache)
  cases r with
  | post m => cases hr
  | delete id => cases hr
  | all byTimestamp =>
    exact ((Board.preserves_all hreads byTimestamp).bind fun _ => preserves_pure _) b rfl
  | allCached byTimestamp => cases h
  | range low high =>
    exact ((Board.preserves_range hreads low high).bind fun _ => preserves_pure _) b rfl
  | page number size =>
    have hpage : (Board.page number size b).state.cache = b.cache := by
      by_cases hvalid : number < 1 ∨ size < 1
      · rw [Board.page_of_invalid hvalid]
        rfl
      · rw [Board.page_of_valid hvalid]
        cases hcount : (Board.count b).answer with
        | ok n =>
          rw [consulted_page hvalid hcount] at h
          cases h
        | error why =>
          rw [(Action.bind_of_error hcount).2]
          rfl
    rw [state_serve_page, hpage]
  | count => exact ((Board.preserves_count hreads).bind fun _ => preserves_pure _) b rfl
  | awaitReady timeout =>
    exact ((hreads.awaitReady timeout).bind fun _ => preserves_pure _) b rfl
  | isConnected => rfl
  | close => exact (hreads.close.bind fun _ => preserves_pure _) b rfl

end Consulted

/-! ## Which requests consult which key -/

section Keys

variable {γ : Type} {b : Board (ObservedStore MemoryStore) γ} {r : BoardRequest}
  (hb : Board.Settled b) (hsize : (b.store.inner.records.size : Int) ≤ Word.greatest)

include hb hsize

/-- A counted page consults the key of the full list exactly if it holds all messages. -/
theorem pageEntry_of_count (number size : Int64) {n : Nat}
    (hcount : (Board.count b).answer = .ok n) :
    Board.pageEntry number size n = if (b.store.inner.records.size : Int) ≤ size.toInt
      then Page.allMessagesKey else Page.key number size := by
  obtain rfl : n = b.store.inner.records.size := ((Board.satisfies_count hb).of_ok hcount).1
  simp only [Board.pageEntry, Int64.le_iff_toInt_le, Word.toInt_ofNat_of_le hsize]

/-- The key of the full list is consulted by full lists, and by pages that hold all messages. -/
theorem consulted_list_iff :
    r.consulted b = some Page.allMessagesKey ↔
      (∃ byTimestamp, r = allCached byTimestamp) ∨
        ∃ number size, r = page number size ∧ (1 ≤ number ∧ 1 ≤ size) ∧
          (b.store.inner.records.size : Int) ≤ size.toInt ∧
            ∃ n, (Board.count b).answer = .ok n := by
  constructor
  · intro h
    rcases consulted_eq_some h with ⟨-, hlist⟩ | ⟨number, size, n, rfl, hvalid, hcount, hkey⟩
    · exact .inl hlist
    · rw [pageEntry_of_count hb hsize number size hcount] at hkey
      split at hkey
      · next hwhole =>
        exact .inr ⟨number, size, rfl, Page.valid_iff.mp hvalid, hwhole, n, hcount⟩
      · exact absurd hkey.symm (Page.key_ne_allMessagesKey number size)
  · rintro (⟨byTimestamp, rfl⟩ | ⟨number, size, rfl, hvalid, hwhole, n, hcount⟩)
    · rfl
    · rw [consulted_page (Page.valid_iff.mpr hvalid) hcount,
        pageEntry_of_count hb hsize number size hcount, if_pos hwhole]

/-- The key of a page is consulted by that page only, while it does not hold all messages. -/
theorem consulted_page_iff {number size : Int64} :
    r.consulted b = some (Page.key number size) ↔
      r = page number size ∧ (1 ≤ number ∧ 1 ≤ size) ∧
        size.toInt < b.store.inner.records.size ∧ ∃ n, (Board.count b).answer = .ok n := by
  constructor
  · intro h
    rcases consulted_eq_some h with ⟨hkey, -⟩ | ⟨number', size', n, rfl, hvalid, hcount, hkey⟩
    · exact absurd hkey (Page.key_ne_allMessagesKey number size)
    · rw [pageEntry_of_count hb hsize number' size' hcount] at hkey
      split at hkey
      · exact absurd hkey (Page.key_ne_allMessagesKey number size)
      · next hpart =>
        -- The key tells which page it is.
        obtain ⟨rfl, rfl⟩ := Page.key_inj hkey
        exact ⟨rfl, Page.valid_iff.mp hvalid, Int.not_le.mp hpart, n, hcount⟩
  · rintro ⟨rfl, hvalid, hpart, n, hcount⟩
    rw [consulted_page (Page.valid_iff.mpr hvalid) hcount,
      pageEntry_of_count hb hsize number size hcount, if_neg (Int.not_le.mpr hpart)]

end Keys

end BoardRequest

end Guestbook
