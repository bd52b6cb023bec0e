import Guestbook.Cache.Map
import Guestbook.Proofs.Board.ReadThrough
import Guestbook.Proofs.Json.SelfDelimiting
import Guestbook.Store.Memory

/-!
# Damaged entries

A board writes the encoding of a list of messages under each of its keys. An entry that was cut
short, or that goes on after the encoding with more than blanks, is found out by the next read under
its key: the read fails and names the key, and no shorter or different list is answered. This holds
for any store and any cache.

## Main definitions
- `Board.ReportsDamage`: what reads make of damaged entries

## Main statements
- `Board.answer_cached`: a look-up that finds an entry
- `Board.readThrough_of_refused`: a read through an entry that does not decode
- `Board.reportsDamage`: every board
-/

namespace Guestbook.Board

variable {σ γ : Type} [Store σ] [Cache γ] {b : Board σ γ}

/-- The failure of a read under a key whose entry does not decode. -/
def Unreadable {α : Type} (key : String) (bytes : Bytes) (answer : Except Stop α) : Prop :=
  ∃ e, Json.decodeMessages bytes = .error e ∧ answer = .error (.error (.unreadableEntry key e.text))

/-- A damaged entry under the key that a read looks up makes the read fail, and an entry that is
part of an encoding or starts with it is never answered as another list. -/
structure ReportsDamage (b : Board σ γ) : Prop where
  cached : ∀ key ms bytes found, (Cache.get key b.cache).answer = .ok (some bytes) →
    (bytes <+: Json.encodeMessages ms ∨ Json.encodeMessages ms <+: bytes) →
      (cached key b).answer = .ok found → found = some ms
  allCached : ∀ byTimestamp ms bytes,
    (Cache.get Page.allMessagesKey b.cache).answer = .ok (some bytes) → Json.Damaged ms bytes →
      Unreadable Page.allMessagesKey bytes (allCached byTimestamp b).answer
  page : ∀ number size n ms bytes, 1 ≤ number → 1 ≤ size → (count b).answer = .ok n →
    (Cache.get (pageEntry number size n) b.cache).answer = .ok (some bytes) →
      Json.Damaged ms bytes → Unreadable (pageEntry number size n) bytes (page number size b).answer

omit [Store σ] in
/-- A look-up that finds an entry answers what it decodes to, or fails and names the key. -/
theorem answer_cached {key : String} {bytes : Bytes}
    (hfound : (Cache.get key b.cache).answer = .ok (some bytes)) :
    (cached key b).answer = match Json.decodeMessages bytes with
      | .ok ms => .ok (some ms)
      | .error e => .error (.error (.unreadableEntry key e.text)) := by
  have hlookup : (atCache (Cache.get key) b).answer = .ok (some bytes) := hfound
  refine (Action.bind_of_ok hlookup).1.trans ?_
  dsimp only
  cases Json.decodeMessages bytes <;> rfl

omit [Store σ] in
theorem answer_cached_of_refused {key : String} {bytes : Bytes} {e : Json.DecodeError}
    (hfound : (Cache.get key b.cache).answer = .ok (some bytes))
    (hrefused : Json.decodeMessages bytes = .error e) :
    (cached key b).answer = .error (.error (.unreadableEntry key e.text)) := by
  rw [answer_cached hfound, hrefused]

omit [Store σ] in
/-- A read through an entry that does not decode ends with the look-up. -/
theorem readThrough_of_refused {b : Board σ γ} {key : String} {bytes : Bytes} {e : Json.DecodeError}
    (hfound : (Cache.get key b.cache).answer = .ok (some bytes))
    (hrefused : Json.decodeMessages bytes = .error e) (hit : Event)
    (read : Action (Board σ γ) (List Message)) :
    (readThrough key hit read b).answer = .error (.error (.unreadableEntry key e.text)) ∧
      (readThrough key hit read b).state = (cached key b).state :=
  Action.bind_of_error (answer_cached_of_refused hfound hrefused)

theorem answer_allCached_of_refused {bytes : Bytes} {e : Json.DecodeError}
    (hfound : (Cache.get Page.allMessagesKey b.cache).answer = .ok (some bytes))
    (hrefused : Json.decodeMessages bytes = .error e) (byTimestamp : Bool) :
    (allCached byTimestamp b).answer
      = .error (.error (.unreadableEntry Page.allMessagesKey e.text)) :=
  (readThrough_of_refused hfound hrefused _ _).1

theorem answer_page_of_refused {number size : Int64} {n : Nat} {bytes : Bytes}
    {e : Json.DecodeError} (hnumber : 1 ≤ number) (hsize : 1 ≤ size)
    (hcount : (count b).answer = .ok n)
    (hfound : (Cache.get (pageEntry number size n) b.cache).answer = .ok (some bytes))
    (hrefused : Json.decodeMessages bytes = .error e) :
    (page number size b).answer
      = .error (.error (.unreadableEntry (pageEntry number size n) e.text)) := by
  rw [(page_of_count (Page.valid_iff.mpr ⟨hnumber, hsize⟩) hcount).1]
  -- Counting the messages leaves the cache alone.
  have hcache : (count b).state.cache = b.cache := rfl
  rw [← hcache] at hfound
  exact (readThrough_of_refused hfound hrefused _ _).1

/-- The end of an encoding shows, so a damaged entry is never answered as a list. -/
theorem reportsDamage (b : Board σ γ) :
    Json.SelfDelimiting Json.encodeMessages Json.decodeMessages ∧ b.ReportsDamage := by
  refine ⟨Json.selfDelimiting_encodings.2, ?_, ?_, ?_⟩
  · intro key ms bytes found hfound hentry hanswer
    rw [answer_cached hfound] at hanswer
    cases hdecode : Json.decodeMessages bytes with
    | error e =>
      rw [hdecode] at hanswer
      exact nomatch hanswer
    | ok ms' =>
      rw [hdecode] at hanswer
      obtain rfl := Except.ok.inj hanswer
      rw [Json.eq_of_decodes hentry hdecode]
  · intro byTimestamp ms bytes hfound hdamaged
    obtain ⟨e, hrefused⟩ := hdamaged.refused
    exact ⟨e, hrefused, answer_allCached_of_refused hfound hrefused byTimestamp⟩
  · intro number size n ms bytes hnumber hsize hcount hfound hdamaged
    obtain ⟨e, hrefused⟩ := hdamaged.refused
    exact ⟨e, hrefused, answer_page_of_refused hnumber hsize hcount hfound hrefused⟩

/-- A board with two messages and an entry for the first page of one message, which lost its last
byte. -/
def cutBoard : Board MemoryStore MapCache :=
  let first : Message := { id := 1, author := "a", text := "first" }
  let second : Message := { id := 2, author := "b", text := "second" }
  { store := { records := .ofList [(1, Record.ofMessage first), (2, Record.ofMessage second)] }
    cache := MapCache.insertRaw (Page.key 1 1) (Json.encodeMessages [first]).dropLast {} }

/-- The page fails, although all that is missing is the closing bracket. -/
theorem reportsDamage_cut :
    Unreadable (Page.key 1 1)
      (Json.encodeMessages [{ id := 1, author := "a", text := "first" }]).dropLast
      (page 1 1 cutBoard).answer := by
  have hfound : (Cache.get (pageEntry 1 1 2) cutBoard.cache).answer = .ok
      (some (Json.encodeMessages [{ id := 1, author := "a", text := "first" }]).dropLast) := by
    -- Not all messages fit on the page, so its own key is looked up.
    rw [pageEntry, if_neg (by decide)]
    exact MapCache.answer_get_insertRaw _ _ _
  exact (reportsDamage cutBoard).2.page 1 1 2 _ _ (by decide) (by decide) rfl hfound (.dropLast _)

end Guestbook.Board
