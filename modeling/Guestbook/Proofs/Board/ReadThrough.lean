import Guestbook.Board
import Guestbook.Proofs.InStep
import Guestbook.Proofs.Page

/-!
# Reads through one entry

Every read through the cache consults one key. If the cache has an entry under the key, the read
answers it or fails; otherwise it reads the store and offers what it read under that key and no
other. The full list has the same key always, and a page one that depends on how many messages there
are. So what holds of a read through an entry holds of full lists and of pages.

## Main definitions
- `readThrough`: a read through the entry under a key
- `pageEntry`, `pageRead`: the key of a page, and what it reads from the store

## Main statements
- `allCached_eq`, `page_of_invalid`, `page_of_valid`: full lists and valid pages are such reads
- `satisfies_readThrough`: what holds after one, from its look-up, its read and its offer
- `preserves_readThrough`, `inStep_readThrough`: what its parts have in common with it
-/

namespace Guestbook.Board

open Outcome (Satisfies)
open Guestbook.Action (InStep Preserves preserves_pure preserves_fail preserves_report)

variable {σ γ : Type} [Store σ] [Cache γ]

/-- A read through the entry under a key; `hit` is reported if there is one. -/
def readThrough (key : String) (hit : Event) (read : Action (Board σ γ) (List Message)) :
    Action (Board σ γ) (List Message) := do
  match ← cached key with
  | some ms =>
    Action.report hit
    return ms
  | none =>
    let ms ← read
    populate key ms
    return ms

/-- The full list is read through the same entry always. -/
theorem allCached_eq (byTimestamp : Bool) :
    (allCached byTimestamp : Action (Board σ γ) (List Message))
      = readThrough Page.allMessagesKey (.listHit Page.allMessagesKey) (all byTimestamp) := rfl

/-! ## Pages -/

/-- The key that a page is looked up under on a board with `n` messages. -/
def pageEntry (number size : Int64) (n : Nat) : String :=
  if Int64.ofNat n ≤ size then Page.allMessagesKey else Page.key number size

/-- What a page of a board with `n` messages reports if it is in the cache. -/
def pageHit (number size : Int64) (n : Nat) : Event :=
  if Int64.ofNat n ≤ size then .listHit Page.allMessagesKey else .pageHit (Page.key number size)

/-- What a page of a board with `n` messages reads from the store if it is not in the cache. -/
def pageRead (number size : Int64) (n : Nat) : Action (Board σ γ) (List Message) :=
  if Int64.ofNat n ≤ size then all false
  else do
    let window ← Action.orFault (PageWindow.of number size (Int64.ofNat n))
    Action.report (.pageMiss number size (Int64.ofNat n) window)
    readWindow size window

/-- A page that is not valid is refused before any call. -/
theorem page_of_invalid {number size : Int64} (hinvalid : number < 1 ∨ size < 1) :
    (page number size : Action (Board σ γ) (List Message))
      = Action.fail (.invalidPage number size) := by
  unfold page
  rw [if_pos hinvalid]
  rfl

/-- A valid page is read through an entry that depends on the number of messages. -/
theorem page_of_valid {number size : Int64} (hvalid : ¬ (number < 1 ∨ size < 1)) :
    (page number size : Action (Board σ γ) (List Message))
      = count >>= fun n =>
        readThrough (pageEntry number size n) (pageHit number size n) (pageRead number size n) := by
  unfold page
  rw [if_neg hvalid]
  dsimp only
  congr 1
  funext n
  by_cases hwhole : Int64.ofNat n ≤ size
  · simp only [pageEntry, pageHit, pageRead, if_pos hwhole]
    rfl
  · simp only [pageEntry, pageHit, pageRead, if_neg hwhole, readThrough]
    congr 1
    funext found
    cases found with
    | some ms => rfl
    | none => simp only [bind_assoc]

/-- A page that holds all messages is the full list. -/
theorem readThrough_of_whole {size : Int64} {n : Nat} (hwhole : Int64.ofNat n ≤ size)
    (number : Int64) :
    (readThrough (pageEntry number size n) (pageHit number size n) (pageRead number size n) :
        Action (Board σ γ) (List Message)) = allCached false := by
  rw [pageEntry, pageHit, pageRead, if_pos hwhole, if_pos hwhole, if_pos hwhole, allCached_eq]

theorem page_of_count {number size : Int64} (hvalid : ¬ (number < 1 ∨ size < 1)) {b : Board σ γ}
    {n : Nat} (hcount : (count b).answer = .ok n) :
    let read : Action (Board σ γ) (List Message) :=
      readThrough (pageEntry number size n) (pageHit number size n) (pageRead number size n)
    (page number size b).answer = (read (count b).state).answer ∧
      (page number size b).state = (read (count b).state).state := by
  rw [page_of_valid hvalid]
  exact Action.bind_of_ok hcount

/-! ## After a read -/

omit [Store σ] in
/-- What holds after a read through an entry: with an entry it is what the look-up leaves, and
without one the read follows and then the offer. -/
theorem satisfies_readThrough {b : Board σ γ} {key : String} {hit : Event}
    {read : Action (Board σ γ) (List Message)} {F : Option (List Message) → Board σ γ → Prop}
    {Q : List Message → Board σ γ → Prop} {E : Stop → Board σ γ → Prop}
    (hlook : (cached key b).Satisfies F E) (hhit : ∀ ms c, F (some ms) c → Q ms c)
    (hmiss : ∀ c, F none c → (read c).Satisfies
      (fun ms d => (populate key ms d).Satisfies (fun _ e => Q ms e) E) E) :
    (readThrough key hit read b).Satisfies Q E := by
  unfold readThrough
  rw [Action.satisfies_bind]
  apply hlook.imp
  · intro found c hfound
    cases found with
    | some ms => exact hhit ms c hfound
    | none =>
      rw [Action.satisfies_bind]
      apply (hmiss c hfound).imp
      · intro ms d hoffer
        rw [Action.satisfies_bind]
        exact hoffer
      · exact fun _ _ => id
  · exact fun _ _ => id

/-! ## What a read keeps -/

omit [Store σ] in
theorem preserves_cached {P : Board σ γ → Prop} {key : String}
    (hget : Preserves P (atCache (Cache.get key) : Action (Board σ γ) (Option Bytes))) :
    Preserves P (cached key : Action (Board σ γ) (Option (List Message))) := by
  refine hget.bind fun found => ?_
  cases found with
  | none => exact preserves_pure _
  | some bytes =>
    dsimp only
    split
    · exact preserves_pure _
    · exact preserves_fail _

omit [Store σ] in
theorem preserves_populate {P : Board σ γ → Prop} {key : String}
    (hset : ∀ bytes cost,
      Preserves P (atCache (Cache.set key bytes cost) : Action (Board σ γ) Bool))
    (ms : List Message) : Preserves P (populate key ms : Action (Board σ γ) Unit) := by
  refine (hset _ _).bind fun accepted => ?_
  split
  · exact preserves_report _
  · exact preserves_pure _

omit [Store σ] in
/-- A read through an entry keeps what the look-up, the read and the offer keep. -/
theorem preserves_readThrough {P : Board σ γ → Prop} {key : String} {hit : Event}
    {read : Action (Board σ γ) (List Message)}
    (hget : Preserves P (atCache (Cache.get key) : Action (Board σ γ) (Option Bytes)))
    (hset : ∀ bytes cost,
      Preserves P (atCache (Cache.set key bytes cost) : Action (Board σ γ) Bool))
    (hread : Preserves P read) : Preserves P (readThrough key hit read) := by
  refine (preserves_cached hget).bind fun found => ?_
  cases found with
  | some ms => exact (preserves_report _).bind fun _ => preserves_pure _
  | none => exact hread.bind fun ms => (preserves_populate hset ms).bind fun _ => preserves_pure _

/-! ## Two boards -/

section TwoBoards

variable {τ γ' : Type} [Store τ] [Cache γ'] {R : Board σ γ → Board τ γ' → Prop} {key : String}

omit [Store σ] [Store τ] in
theorem inStep_cached_of_get
    (hget : InStep R (atCache (Cache.get key)) (atCache (Cache.get key))) :
    InStep R (cached key) (cached key) := by
  apply hget.bind
  intro found
  cases found with
  | none => exact Action.inStep_pure _
  | some bytes =>
    dsimp only
    split
    · exact Action.inStep_pure _
    · exact Action.inStep_fail _

omit [Store σ] [Store τ] in
theorem inStep_populate_of_set
    (hset : ∀ bytes cost,
      InStep R (atCache (Cache.set key bytes cost)) (atCache (Cache.set key bytes cost)))
    (ms : List Message) : InStep R (populate key ms) (populate key ms) := by
  apply (hset _ _).bind
  intro accepted
  cases accepted with
  | true => exact Action.inStep_pure _
  | false => exact Action.inStep_report _

omit [Store σ] [Store τ] in
/-- Two reads through the same entry run in step if look-up, read and offer do. -/
theorem inStep_readThrough {hit : Event} {read : Action (Board σ γ) (List Message)}
    {read' : Action (Board τ γ') (List Message)}
    (hget : InStep R (atCache (Cache.get key)) (atCache (Cache.get key)))
    (hset : ∀ bytes cost,
      InStep R (atCache (Cache.set key bytes cost)) (atCache (Cache.set key bytes cost)))
    (hread : InStep R read read') :
    InStep R (readThrough key hit read) (readThrough key hit read') := by
  apply (inStep_cached_of_get hget).bind
  intro found
  cases found with
  | some ms => exact (Action.inStep_report _).bind fun _ => Action.inStep_pure _
  | none =>
    apply hread.bind
    intro ms
    exact (inStep_populate_of_set hset ms).bind fun _ => Action.inStep_pure _

end TwoBoards

end Guestbook.Board
