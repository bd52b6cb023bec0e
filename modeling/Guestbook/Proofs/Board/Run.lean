import Guestbook.Board.Request
import Guestbook.Proofs.Board.Writes

/-!
# Runs of a board

A run starts from a new board and makes moves in any order: requests to the board, connections that
come and go, failures of the store, and caches that decline what they are offered. Beside the board
goes the log that its answers tell of: the messages whose post was answered with an id, without
those whose later delete was answered with true. Every run ends with a board that keeps its log.

## Main definitions
- `Move`, `Move.perform`: a move of a run
- `History`: a board and the log that its answers tell of
- `History.opened`, `History.play`: a new board, and a run of moves

## Main statements
- `satisfies_serve`: a request keeps the log
- `keeps_perform`: a move keeps the log
- `keeps_play`, `keeps_run`: a run keeps the log
-/

namespace Guestbook

open Outcome (Satisfies)

/-! ## Moves -/

/-- The log after a request was answered. -/
def BoardRequest.logAfter (log : List Message) : BoardRequest → BoardReply → List Message
  | .post m, .id id => log ++ [{ m with id }]
  | .delete id, .truth true => log.filter fun m => m.id ≠ id
  | _, _ => log

/-- A move of a run. -/
inductive Move (γ : Type) [Cache γ] [LawfulCache γ] where
  | request (r : BoardRequest)
  /-- The attempt to connect that is made in the background. -/
  | connectFirst
  | setReachable (on : Bool)
  | setFailing (on : Bool)
  /-- Lets a store call of an operation fail without effect, once so many have passed: the next call
  or any later one, the second query of a search for instance. -/
  | mishap (method : StoreMethod) (m : Mishap) (passed : Nat)
  /-- Changes how the cache behaves, such as whether it declines what it is offered. -/
  | tune (tuning : LawfulCache.Tuning γ)

namespace Move

variable {γ : Type} [Cache γ] [LawfulCache γ]

/-- Makes a move. -/
def perform : Move γ → Action (Board (ObservedStore MemoryStore) γ) BoardReply
  | request r => r.serve
  | connectFirst => do
    Board.atStore (ObservedStore.inside MemoryStore.connectFirst)
    return .done
  | setReachable on => do
    Board.atStore (ObservedStore.inside (Action.update (MemoryStore.setReachable on)))
    return .done
  | setFailing on => do
    Board.atStore (ObservedStore.inside (Action.update (MemoryStore.setFailing on)))
    return .done
  | mishap method m passed => do
    Board.atStore (Action.update (ObservedStore.addMishap method m passed))
    return .done
  | tune tuning => do
    Board.atCache (Action.update tuning.apply)
    return .done

theorem state_perform_connectFirst (b : Board (ObservedStore MemoryStore) γ) :
    ((connectFirst : Move γ).perform b).state
      = (Board.atStore (ObservedStore.inside MemoryStore.connectFirst) b).state :=
  Action.state_bind_pure ..

/-- The log after a move. -/
def logAfter (log : List Message) : Move γ → Except Stop BoardReply → List Message
  | request r, .ok reply => r.logAfter log reply
  | _, _ => log

/-- Whether a move reads the full list through the cache in the order of timestamps. -/
def readsByTime : Move γ → Bool
  | request (.allCached byTimestamp) => byTimestamp
  | _ => false

end Move

/-- A board and the log that its answers tell of. -/
structure History (γ : Type) where
  board : Board (ObservedStore MemoryStore) γ
  log : List Message := []

namespace History

variable {γ : Type}

/-- A new board over an empty store that can be reached or not. -/
def opened (reachable : Bool) (cache : γ) : History γ :=
  { board := { store := { inner := { reachable } }, cache } }

variable [Cache γ] [LawfulCache γ]

/-- One move of a run. -/
def next (h : History γ) (m : Move γ) : History γ :=
  let o := m.perform h.board
  { board := o.state, log := m.logAfter h.log o.answer }

/-- A run of moves. -/
def play (h : History γ) (moves : List (Move γ)) : History γ := moves.foldl next h

end History

/-! ## Requests keep the log -/

namespace Board

variable {γ : Type} [Cache γ] [LawfulCache γ] {b c : Board (ObservedStore MemoryStore) γ}
  {log : List Message} {issued : Int} {timed : Bool}

omit [LawfulCache γ] in
/-- A page never stops for a failure of the cache. -/
theorem PageStop.sparesCache {page size : Int64} {why : Stop}
    (h : PageStop b log page size why) : why.SparesCache := by
  cases h with
  | invalid h => exact .of_area nofun
  | refused h =>
    obtain ⟨store, -, call, -, hrefuses⟩ := h
    exact hrefuses.sparesCache
  | uncountable h => exact .fault _
  | crowded hms h => exact .fault _

/-- A read that bypasses the cache keeps the log. -/
private theorem satisfies_plainRead (h : Keeps b timed log issued) {α : Type}
    {a : Action (Board (ObservedStore MemoryStore) γ) α} (reply : α → BoardReply) {Q : α → Prop}
    {call : Stop → Prop} (hcall : ∀ why, call why → why.SparesCache)
    (ha : (a b).Satisfies (fun x c => Q x ∧ Read b c ∧ c.cache = b.cache)
      fun why c => call why ∧ Stayed b c ∧ c.cache = b.cache) :
    ((a >>= fun x => pure (reply x)) b).Satisfies
      (fun _ c => ∃ issued', Keeps c timed log issued')
      fun why c => why.SparesCache ∧ ∃ issued', Keeps c timed log issued' := by
  rw [Action.satisfies_bind]
  apply ha.imp
  · rintro x c ⟨-, hread, hcache⟩
    exact ⟨issued, h.of_stayed hread.stayed (hcache ▸ h.cache)⟩
  · intro why c hpost
    obtain ⟨hwhy, hstayed, hcache⟩ := hpost
    exact ⟨hcall why hwhy, issued, h.of_stayed hstayed (hcache ▸ h.cache)⟩

/-- A delete that finds no message leaves the log as it is. -/
theorem filter_of_not_mem {id : Int64} (h : id ∉ log.map (·.id)) :
    log.filter (fun m => m.id ≠ id) = log := by
  apply List.filter_eq_self.mpr
  intro m hm
  rw [decide_eq_true_eq]
  rintro rfl
  exact h (List.mem_map_of_mem hm)

/-- What every request leaves, however it ends. -/
theorem satisfies_serve (h : Keeps b timed log issued) (r : BoardRequest)
    (htimed : r = .allCached true → timed = true) :
    (r.serve b).Satisfies
      (fun reply c => ∃ issued', Keeps c timed (r.logAfter log reply) issued')
      fun why c => why.SparesCache ∧ ∃ issued', Keeps c timed log issued' := by
  cases r with
  | post m =>
    refine (Action.satisfies_bind ..).mpr ((satisfies_post h m).imp ?_ fun _ _ => id)
    rintro id c ⟨-, hc⟩
    exact ⟨issued + 1, hc⟩
  | delete id =>
    refine (Action.satisfies_bind ..).mpr ((satisfies_delete h id).imp ?_ ?_)
    · intro existed c hpost
      obtain ⟨hexisted, hc⟩ := hpost
      refine ⟨issued, ?_⟩
      -- The log loses a message only if the answer tells of one.
      cases existed with
      | true => exact hc
      | false =>
        rw [filter_of_not_mem (of_decide_eq_false hexisted.symm)] at hc
        exact hc
    · intro why c hpost
      obtain ⟨hrefuses, hc⟩ := hpost
      exact ⟨hrefuses.sparesCache, issued, hc⟩
  | all byTimestamp =>
    exact satisfies_plainRead h .messages (fun _ => (·.sparesCache))
      (satisfies_all h.settled byTimestamp)
  | allCached byTimestamp =>
    have htimed' : byTimestamp = true → timed = true := by
      rintro rfl
      exact htimed rfl
    refine (Action.satisfies_bind ..).mpr ((satisfies_fullList h byTimestamp htimed').imp ?_ ?_)
    · rintro ms c ⟨-, hread, hcache⟩
      exact ⟨issued, h.of_stayed hread.stayed hcache⟩
    · intro why c hpost
      obtain ⟨hwhy, hstayed, hcache⟩ := hpost
      refine ⟨?_, issued, h.of_stayed hstayed hcache⟩
      rcases hwhy with hrefuses | ⟨rfl, -⟩
      · exact hrefuses.sparesCache
      · exact .fault _
  | range low high =>
    exact satisfies_plainRead h .messages (fun _ => (·.sparesCache))
      (satisfies_range h.settled low high)
  | page number size =>
    refine (Action.satisfies_bind ..).mpr ((satisfies_page h number size).imp ?_ ?_)
    · rintro ms c ⟨-, hc, -⟩
      exact ⟨issued, hc⟩
    · rintro why c ⟨hstop, hc, -⟩
      exact ⟨hstop.sparesCache, issued, hc⟩
  | count =>
    exact satisfies_plainRead h .count (fun _ => (·.sparesCache)) (satisfies_count h.settled)
  | awaitReady timeout =>
    -- Waiting changes nothing, whether the gate becomes ready or not.
    refine (Action.satisfies_bind ..).mpr ((satisfies_inside _).mpr ?_)
    apply (MemoryStore.satisfies_awaitReady timeout).imp
    · rintro - inner rfl
      exact ⟨issued, h⟩
    · rintro why inner ⟨rfl, rfl⟩
      exact ⟨.of_area nofun, issued, h⟩
  | isConnected => exact ⟨issued, h⟩
  | close =>
    -- Only what the gate holds changes.
    refine (Action.satisfies_bind ..).mpr ((satisfies_inside _).mpr ?_)
    refine (MemoryStore.satisfies_close h.settled.idle).imp ?_ fun _ _ h => h.elim
    intro _ inner hinner
    exact ⟨issued, h.of_stayed (.of_inside hinner) h.cache⟩

end Board

/-! ## Runs keep the log -/

namespace Move

open Board (Keeps)

variable {γ : Type} [Cache γ] [LawfulCache γ] {b : Board (ObservedStore MemoryStore) γ}
  {log : List Message} {issued : Int} {timed : Bool}

/-- What every move leaves. -/
theorem keeps_perform (h : Keeps b timed log issued) (m : Move γ)
    (htimed : m.readsByTime = true → timed = true) :
    ∃ issued', Keeps (m.perform b).state timed (m.logAfter log (m.perform b).answer) issued' := by
  cases m with
  | request r =>
    have hserve := Board.satisfies_serve h r (by rintro rfl; exact htimed rfl)
    -- The log follows the answer, and there is one exactly if the request did not stop.
    show ∃ issued', Keeps (r.serve b).state timed
      ((Move.request r).logAfter log (r.serve b).answer) issued'
    cases hanswer : (r.serve b).answer with
    | ok reply => exact hserve.of_ok hanswer
    | error why => exact (hserve.of_error hanswer).2
  | connectFirst =>
    have hconnect : ((connectFirst : Move γ).perform b).Satisfies
        (fun _ c => Keeps c timed log issued) fun _ c => Keeps c timed log issued := by
      refine (Action.satisfies_bind ..).mpr ((Board.satisfies_inside _).mpr ?_)
      refine (MemoryStore.satisfies_connectFirst h.settled.idle).imp ?_ fun _ _ h => h.elim
      intro _ inner hinner
      exact h.of_stayed (.of_inside hinner) h.cache
    exact ⟨issued, hconnect.state⟩
  -- Switches and mishaps leave records, counter and cache alone.
  | setReachable on =>
    exact ⟨issued, ⟨h.settled.idle, h.settled.index, h.settled.inOrder⟩, h.store.congr rfl rfl,
      h.cache⟩
  | setFailing on =>
    exact ⟨issued, ⟨h.settled.idle, h.settled.index, h.settled.inOrder⟩, h.store.congr rfl rfl,
      h.cache⟩
  | mishap method m passed =>
    exact ⟨issued, ⟨h.settled.idle, h.settled.index, h.settled.inOrder⟩, h.store, h.cache⟩
  | tune tuning =>
    -- Tuning adds no entry, so the cache stays current.
    exact ⟨issued, h.settled.withCache _, h.store,
      h.cache.of_subset (tuning.balanced _ h.cache.balanced) (tuning.entries b.cache)⟩

end Move

namespace History

open Board (Keeps)

variable {γ : Type} [Cache γ] [LawfulCache γ]

/-- A new board keeps the empty log. -/
theorem keeps_opened (timed : Bool) {cache : γ} (hcache : LawfulCache.IsEmpty cache)
    (reachable : Bool) :
    Keeps (opened reachable cache).board timed (opened reachable cache).log 0 :=
  ⟨⟨rfl, rfl, fun _ _ => rfl⟩, .empty rfl rfl, .of_isEmpty hcache⟩

/-- A run from a board that keeps its log ends with one. -/
theorem keeps_play {timed : Bool} {h : History γ} {issued : Int}
    (hkeeps : Keeps h.board timed h.log issued)
    (moves : List (Move γ)) (htimed : ∀ m ∈ moves, m.readsByTime = true → timed = true) :
    ∃ issued', Keeps (h.play moves).board timed (h.play moves).log issued' := by
  -- The log and the number of ids issued change from move to move; `timed` is fixed for the run.
  induction moves generalizing h issued with
  | nil => exact ⟨issued, hkeeps⟩
  | cons m moves ih =>
    obtain ⟨issued', hnext⟩ := Move.keeps_perform hkeeps m (htimed m List.mem_cons_self)
    exact ih (h := h.next m) hnext fun m' hm' => htimed m' (List.mem_cons_of_mem m hm')

/-- Every run of a new board ends with a board that keeps its log. -/
theorem keeps_run {cache : γ} (hcache : LawfulCache.IsEmpty cache) (reachable : Bool)
    (moves : List (Move γ)) :
    ∃ issued, Keeps ((opened reachable cache).play moves).board true
      ((opened reachable cache).play moves).log issued :=
  keeps_play (keeps_opened true hcache reachable) moves fun _ _ _ => rfl

end History

end Guestbook
