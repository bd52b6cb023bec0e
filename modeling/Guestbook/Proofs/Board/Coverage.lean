import Guestbook.Proofs.Board.Ids
import Guestbook.Proofs.Board.Paging

/-!
# Pages cover a board without gaps

A run that deletes no message and spends no id on a message that is not stored leaves a board with
the ids from one on, as many as posts were answered. Its pages of any size then show every message.
The first page is one message short, because no message has the id zero, the other blocks are full,
and the last page, which counts from the end, may repeat what the blocks before it show.

## Main definitions
- `Message.NumberedFrom`: the ids from a number on, one after the other
- `Move.LeavesNoGap`, `History.LeavesNoGap`: what neither deletes a message nor wastes an id
- `History.posted`: the posts of a run that were answered
- `Board.shown`: what a page shows
- `Page.Cover`: how the pages of one size cover the messages stored

## Main statements
- `NumberedFrom.length_filter`, `NumberedFrom.mem_drop_iff`: blocks and ends of a numbered list
- `keeps_whole`: a run without gaps
- `covers_of_run`: the pages after every run without gaps
-/

namespace Guestbook

/-! ## Numbered messages -/

namespace Message

/-- The messages have the ids from `low` on, one after the other. -/
def NumberedFrom (low : Int) : List Message → Prop
  | [] => True
  | m :: ms => m.id.toInt = low ∧ NumberedFrom (low + 1) ms

/-- Increasing ids that are as many as a range holds are all of its numbers. -/
theorem IdsIncrease.numberedFrom {ms : List Message} (h : IdsIncrease ms) {low high : Int}
    (hrange : ∀ m ∈ ms, low ≤ m.id.toInt ∧ m.id.toInt ≤ high)
    (hfull : high - low + 1 ≤ ms.length) : NumberedFrom low ms := by
  -- The range loses its first number with the head of the list.
  induction ms generalizing low with
  | nil => trivial
  | cons m ms ih =>
    have hm := hrange m List.mem_cons_self
    obtain ⟨hrest, hafter⟩ := h.within_tail hrange
    have hlength := IdsIncrease.length_le hrest hafter (by omega)
    rw [List.length_cons] at hfull
    -- Were the first id greater, too few numbers would be left for the rest.
    have hlow : m.id.toInt = low := by omega
    rw [hlow] at hafter
    exact ⟨hlow, ih hrest hafter (by omega)⟩

namespace NumberedFrom

variable {low : Int} {ms : List Message}

theorem le_id (h : NumberedFrom low ms) {m : Message} (hm : m ∈ ms) : low ≤ m.id.toInt := by
  induction ms generalizing low with
  | nil => exact absurd hm List.not_mem_nil
  | cons head ms ih =>
    obtain ⟨hhead, hrest⟩ := h
    rcases List.mem_cons.mp hm with rfl | hm
    · omega
    · have hle := ih hrest hm
      omega

/-- A range of ids holds the numbers that it shares with the list. -/
theorem length_filter (h : NumberedFrom low ms) (first last : Int) :
    ((ms.filter fun m => first ≤ m.id.toInt && m.id.toInt ≤ last).length : Int)
      = max 0 (min last (low + ms.length - 1) - max first low + 1) := by
  induction ms generalizing low with
  | nil =>
    rw [List.filter_nil, List.length_nil]
    omega
  | cons m ms ih =>
    obtain ⟨hm, hrest⟩ := h
    have htail := ih hrest
    rw [List.length_cons]
    by_cases hin : first ≤ m.id.toInt ∧ m.id.toInt ≤ last
    · rw [List.filter_cons_of_pos (by simpa using hin), List.length_cons]
      omega
    · rw [List.filter_cons_of_neg (by simpa using hin), htail]
      omega

/-- What is left after the first messages are those with the greater ids. -/
theorem mem_drop_iff (h : NumberedFrom low ms) (k : Nat) (m : Message) :
    m ∈ ms.drop k ↔ m ∈ ms ∧ low + k ≤ m.id.toInt := by
  induction ms generalizing low k with
  | nil => simp
  | cons head ms ih =>
    cases k with
    | zero =>
      rw [List.drop_zero]
      constructor
      · intro hm
        exact ⟨hm, by simpa using le_id h hm⟩
      · intro hm
        exact hm.1
    | succ k =>
      obtain ⟨hhead, hrest⟩ := h
      rw [List.drop_succ_cons, ih hrest, List.mem_cons]
      constructor
      · intro hm
        exact ⟨.inr hm.1, by omega⟩
      · intro hm
        obtain ⟨rfl | hm, hle⟩ := hm
        · -- The head has the least id of all.
          omega
        · exact ⟨hm, by omega⟩

end NumberedFrom

end Message

/-! ## Blocks and the last page -/

namespace Page

open Message (IdsIncrease NumberedFrom)

/-- How the pages of one size cover the messages stored. -/
structure Cover (stored : List Message) (size : Int64) (shown : Int64 → List Message) : Prop where
  numbered : NumberedFrom 1 stored
  /-- What a page shows depends on the messages stored alone, so pages that are read one after the
  other cover them as well. -/
  determined : size.toInt < stored.length → ∀ page, 1 ≤ page.toInt →
    shown page = contents stored page size
  /-- Every message is on a page up to the last one. -/
  all : ∀ m ∈ stored, ∃ page : Int64, (1 ≤ page.toInt ∧
    page.toInt ≤ stored.length / size.toInt + 1) ∧ m ∈ shown page
  /-- The blocks are in id order, each by itself and one after the other. -/
  inOrder : size.toInt < stored.length → ∀ page, 1 ≤ page.toInt →
    page.toInt ≤ stored.length / size.toInt → IdsIncrease (shown page) ∧
      ∀ next : Int64, page.toInt < next.toInt → next.toInt ≤ stored.length / size.toInt →
        ∀ m ∈ shown page, ∀ m' ∈ shown next, m.id < m'.id
  disjoint : size.toInt < stored.length → ∀ page next : Int64, 1 ≤ page.toInt →
    page.toInt < next.toInt → next.toInt ≤ stored.length / size.toInt →
      List.Disjoint (shown page) (shown next)
  /-- The first block lacks the id zero. -/
  first : size.toInt < stored.length → ∀ page, page.toInt = 1 →
    ((shown page).length : Int) = size.toInt - 1
  full : size.toInt < stored.length → ∀ page, 2 ≤ page.toInt →
    page.toInt ≤ stored.length / size.toInt → ((shown page).length : Int) = size.toInt
  /-- Only the last page shows a message again. -/
  repeats : size.toInt < stored.length → ∀ page next : Int64, 1 ≤ page.toInt →
    page.toInt < next.toInt → next.toInt ≤ stored.length / size.toInt + 1 →
      ∀ m ∈ shown page, m ∈ shown next → next.toInt = stored.length / size.toInt + 1

section Contents

variable {log : List Message} {page next size : Int64}

theorem mem_block_iff (hblock : page.toInt ≤ log.length / size.toInt) (m : Message) :
    m ∈ contents log page size ↔ m ∈ log ∧
      (page.toInt - 1) * size.toInt ≤ m.id.toInt ∧ m.id.toInt ≤ page.toInt * size.toInt - 1 := by
  rw [contents, if_pos hblock, List.mem_filter, Bool.and_eq_true, decide_eq_true_eq,
    decide_eq_true_eq]

/-- The last page shows the ids above all but as many as it holds. -/
theorem mem_last_iff (hlog : NumberedFrom 1 log) (hsize : 1 ≤ size.toInt)
    (hlt : size.toInt < log.length) (hlast : log.length / size.toInt < page.toInt) (m : Message) :
    m ∈ contents log page size ↔ m ∈ log ∧ log.length - size.toInt < m.id.toInt := by
  rw [contents, if_neg (Int.not_le.mpr hlast), hlog.mem_drop_iff]
  constructor
  · intro hm
    exact ⟨hm.1, by omega⟩
  · intro hm
    exact ⟨hm.1, by omega⟩

/-- A block starts where the one before it ends. -/
theorem block_lt_block (hsize : 1 ≤ size.toInt) (hlt : page.toInt < next.toInt)
    (hnext : next.toInt ≤ log.length / size.toInt) {m m' : Message}
    (hm : m ∈ contents log page size) (hm' : m' ∈ contents log next size) : m.id < m'.id := by
  obtain ⟨-, -, hhigh⟩ := (mem_block_iff (by omega) m).mp hm
  obtain ⟨-, hlow, -⟩ := (mem_block_iff hnext m').mp hm'
  have hstart : page.toInt * size.toInt ≤ (next.toInt - 1) * size.toInt :=
    Int.mul_le_mul_of_nonneg_right (by omega) (by omega)
  rw [Int64.lt_iff_toInt_lt]
  omega

/-- A block holds as many ids as a page, without the id zero. -/
theorem length_block (hlog : NumberedFrom 1 log) (hsize : 1 ≤ size.toInt)
    (hpage : 1 ≤ page.toInt) (hblock : page.toInt ≤ log.length / size.toInt) :
    ((contents log page size).length : Int)
      = if page.toInt = 1 then size.toInt - 1 else size.toInt := by
  -- The block lies within the log.
  have hend : page.toInt * size.toInt ≤ log.length :=
    calc page.toInt * size.toInt
        ≤ log.length / size.toInt * size.toInt := Int.mul_le_mul_of_nonneg_right hblock (by omega)
      _ ≤ log.length := Int.ediv_mul_le _ (by omega)
  have hstart : (page.toInt - 1) * size.toInt = page.toInt * size.toInt - size.toInt := by
    rw [Int.sub_mul, Int.one_mul]
  rw [contents, if_pos hblock, hlog.length_filter, hstart]
  split
  · next hone =>
    rw [hone, Int.one_mul] at hend ⊢
    omega
  · have hlow : size.toInt ≤ (page.toInt - 1) * size.toInt :=
      calc size.toInt = 1 * size.toInt := (Int.one_mul _).symm
        _ ≤ (page.toInt - 1) * size.toInt :=
          Int.mul_le_mul_of_nonneg_right (by omega) (by omega)
    omega

/-- Every id is in a block or above all blocks, where the last page shows it. -/
theorem exists_page_of_mem (hlog : NumberedFrom 1 log) (hsize : 1 ≤ size.toInt)
    (hlt : size.toInt < log.length) (hcountable : log.length / size.toInt < Word.greatest)
    {m : Message} (hm : m ∈ log) :
    ∃ page : Int64, (1 ≤ page.toInt ∧ page.toInt ≤ log.length / size.toInt + 1) ∧
      m ∈ contents log page size := by
  have hid := hlog.le_id hm
  have hdown : m.id.toInt / size.toInt * size.toInt ≤ m.id.toInt := Int.ediv_mul_le _ (by omega)
  have hnonneg : 0 ≤ m.id.toInt / size.toInt := Int.ediv_nonneg (by omega) (by omega)
  have hregular : 0 ≤ log.length / size.toInt := Int.ediv_nonneg (by omega) (by omega)
  have hleast : Word.least ≤ 0 := by decide
  by_cases hblock : m.id.toInt / size.toInt + 1 ≤ log.length / size.toInt
  · obtain ⟨page, -, hpage⟩ := Word.ofInt_of_mem .addOverflow (n := m.id.toInt / size.toInt + 1)
      (by omega) (by omega)
    have hup : m.id.toInt < (m.id.toInt / size.toInt + 1) * size.toInt :=
      Int.lt_ediv_add_one_mul_self _ (by omega)
    refine ⟨page, ⟨by omega, by omega⟩, (mem_block_iff (by omega) m).mpr ⟨hm, ?_⟩⟩
    rw [hpage, Int.add_sub_cancel]
    omega
  · -- The blocks end at the last multiple of the size, which is less than a page before the end.
    obtain ⟨page, -, hpage⟩ := Word.ofInt_of_mem .addOverflow (n := log.length / size.toInt + 1)
      (by omega) (by omega)
    have hend : (log.length : Int) < (log.length / size.toInt + 1) * size.toInt :=
      Int.lt_ediv_add_one_mul_self _ (by omega)
    have hmultiple : log.length / size.toInt * size.toInt
        ≤ m.id.toInt / size.toInt * size.toInt :=
      Int.mul_le_mul_of_nonneg_right (by omega) (by omega)
    rw [Int.add_mul, Int.one_mul] at hend
    refine ⟨page, ⟨by omega, by omega⟩, ?_⟩
    exact (mem_last_iff hlog hsize hlt (by omega) m).mpr ⟨hm, by omega⟩

/-- The contents of its pages cover a numbered log. -/
theorem cover_contents (hlog : NumberedFrom 1 log) (hincrease : IdsIncrease log)
    (hsize : 1 ≤ size.toInt) (hcountable : log.length / size.toInt < Word.greatest)
    (hlt : size.toInt < log.length) {shown : Int64 → List Message}
    (hshown : ∀ page : Int64, 1 ≤ page.toInt → shown page = contents log page size) :
    Cover log size shown := by
  have hordered : ∀ page next : Int64, 1 ≤ page.toInt → page.toInt < next.toInt →
      next.toInt ≤ log.length / size.toInt → ∀ m ∈ shown page, ∀ m' ∈ shown next, m.id < m'.id := by
    intro page next hpage hnext hle m hm m' hm'
    rw [hshown page hpage] at hm
    rw [hshown next (by omega)] at hm'
    exact block_lt_block hsize hnext hle hm hm'
  -- A message on two blocks would have an id below itself.
  have hdisjoint : ∀ page next : Int64, 1 ≤ page.toInt → page.toInt < next.toInt →
      next.toInt ≤ log.length / size.toInt → List.Disjoint (shown page) (shown next) := by
    intro page next hpage hnext hle m hm hm'
    exact Int64.lt_irrefl (hordered page next hpage hnext hle m hm m hm')
  refine ⟨hlog, fun _ => hshown, ?_, ?_, fun _ => hdisjoint, ?_, ?_, ?_⟩
  · intro m hm
    obtain ⟨page, hpage, hcontents⟩ := exists_page_of_mem hlog hsize hlt hcountable hm
    refine ⟨page, hpage, ?_⟩
    rw [hshown page hpage.1]
    exact hcontents
  · intro _ page hpage hblock
    refine ⟨?_, fun next hnext hle => hordered page next hpage hnext hle⟩
    rw [hshown page hpage]
    exact hincrease.sublist (contents_sublist log page size)
  · intro _ page hone
    have hblock : page.toInt ≤ log.length / size.toInt := by
      rw [hone]
      exact Int.le_ediv_of_mul_le (by omega) (by omega)
    rw [hshown page (by omega), length_block hlog hsize (by omega) hblock, if_pos hone]
  · intro _ page hpage hblock
    rw [hshown page (by omega), length_block hlog hsize (by omega) hblock, if_neg (by omega)]
  · intro _ page next hpage hnext hle m hm hm'
    by_cases hblock : next.toInt ≤ log.length / size.toInt
    · exact absurd hm' (hdisjoint page next hpage hnext hblock hm)
    · omega

end Contents

end Page

/-! ## Moves without gaps -/

namespace Board

variable {γ : Type} {b : Board (ObservedStore MemoryStore) γ} {log : List Message} {issued : Int}
  {timed : Bool}

/-- A store that keeps a log is well kept. -/
theorem Keeps.wellKept [Cache γ] [LawfulCache γ] (h : Keeps b timed log issued) :
    b.store.inner.WellKept issued := by
  refine ⟨h.settled.idle, h.store.counts, h.store.issued_nonneg, ?_⟩
  intro entry hentry
  rw [h.store.entries] at hentry
  obtain ⟨m, hm, rfl⟩ := List.mem_map.mp hentry
  exact ⟨Record.isMessage_ofMessage m, h.store.ids m hm⟩

end Board

namespace Move

variable {γ : Type} [Cache γ] [LawfulCache γ]

/-- A move as a step of a run that counts its ids. -/
def asStep : Move γ → BoardStep γ
  | request r => .request r
  | connectFirst => .connectFirst
  | setReachable on => .setReachable on
  | setFailing on => .setFailing on
  | mishap method m passed => .mishap method m passed
  | tune tuning => .tamper tuning.apply

theorem perform_asStep (m : Move γ) : m.asStep.perform = m.perform := by
  cases m <;> rfl

/-- A move leaves no gap if it neither deletes a message nor spends an id on a message that is not
stored. -/
def LeavesNoGap (b : Board (ObservedStore MemoryStore) γ) : Move γ → Prop
  | request (.post m) => (Board.post m b).answer.isOk ∨ b.issues = 0
  | request (.delete id) => (Board.delete id b).answer ≠ .ok true
  | _ => True

/-- How many posts a move was answered with an id for. -/
def posted : Move γ → Except Stop BoardReply → Nat
  | request (.post _), .ok _ => 1
  | _, _ => 0

open Board (Keeps)

variable {b : Board (ObservedStore MemoryStore) γ} {log : List Message} {issued : Int}
  {timed : Bool}

/-- Every move keeps the log with as many ids issued as it takes. -/
theorem keeps_perform_counted (h : Keeps b timed log issued) (m : Move γ)
    (htimed : m.readsByTime = true → timed = true) :
    Keeps (m.perform b).state timed (m.logAfter log (m.perform b).answer)
      (issued + m.asStep.increments b) := by
  obtain ⟨issued', hkeeps⟩ := keeps_perform h m htimed
  have hwell := (BoardStep.wellKept_perform h.wellKept m.asStep).1
  rw [perform_asStep] at hwell
  -- The counter stands at one value after the move.
  rw [hwell.counts.unique hkeeps.store.counts]
  exact hkeeps

/-- Without a gap the log grows by one message for each id, and each id is answered. -/
theorem length_logAfter (h : Keeps b timed log issued) (m : Move γ) (hwhole : m.LeavesNoGap b) :
    (m.logAfter log (m.perform b).answer).length = log.length + m.asStep.increments b ∧
      m.posted (m.perform b).answer = m.asStep.increments b := by
  cases m with
  | request r =>
    cases r with
    | post msg =>
      have hissues := Board.issues_post h.wellKept msg
      rw [perform, BoardRequest.answer_serve_post]
      cases hpost : (Board.post msg b).answer with
      | ok id =>
        obtain ⟨⟨-, hone⟩, -⟩ := hissues.of_ok hpost
        refine ⟨?_, hone.symm⟩
        show (log ++ [{ msg with id }]).length = log.length + b.issues
        rw [hone, List.length_append, List.length_singleton]
      | error why =>
        have hzero : b.issues = 0 := by
          rcases hwhole with hok | hzero
          · rw [hpost] at hok
            exact absurd hok Bool.false_ne_true
          · exact hzero
        refine ⟨?_, hzero.symm⟩
        show log.length = log.length + b.issues
        rw [hzero, Nat.add_zero]
    | delete id =>
      rw [perform, BoardRequest.answer_serve_delete]
      cases hdelete : (Board.delete id b).answer with
      | ok existed =>
        cases existed with
        | true => exact absurd hdelete hwhole
        | false => exact ⟨rfl, rfl⟩
      | error why => exact ⟨rfl, rfl⟩
    | _ =>
      -- A read is answered without a change of the log.
      generalize (Move.perform _ b).answer = answer
      cases answer <;> exact ⟨rfl, rfl⟩
  | _ => exact ⟨rfl, rfl⟩

end Move

/-! ## Runs without gaps -/

namespace Board

variable {γ : Type} [Cache γ]

/-- What a page of a board shows. -/
def shown (b : Board (ObservedStore MemoryStore) γ) (size page : Int64) : List Message :=
  match (Board.page page size b).answer with
  | .ok ms => ms
  | .error _ => []

variable [LawfulCache γ] {b : Board (ObservedStore MemoryStore) γ} {log : List Message}
  {issued : Int} {timed : Bool} {size : Int64}

/-- The pages of a board that keeps a numbered log cover it. -/
theorem Keeps.cover (h : Keeps b timed log issued) (hlog : Message.NumberedFrom 1 log)
    (hroom : HasRoom b) (hserves : ∀ method ∈ pageMethods, b.store.Serves method)
    (hsize : 1 ≤ size.toInt) :
    (∀ page : Int64, 1 ≤ page.toInt →
      (Board.page page size b).answer = .ok (b.shown size page)) ∧
      Page.Cover log size (b.shown size) := by
  have hshows : ∀ page : Int64, 1 ≤ page.toInt →
      (Board.page page size b).answer = .ok (b.shown size page) ∧
        b.Shows timed log page size (b.shown size page) := by
    intro page hpage
    obtain ⟨ms, hanswer, hms⟩ := answer_page h hroom hserves ⟨hpage, hsize⟩
    have hshown : b.shown size page = ms := by rw [shown, hanswer]
    rw [hshown]
    exact ⟨hanswer, hms⟩
  refine ⟨fun page hpage => (hshows page hpage).1, ?_⟩
  have hone : (1 : Int) ≤ (1 : Int64).toInt := by decide
  by_cases hlt : size.toInt < log.length
  · -- Any page is a block or the last one.
    have hcountable := ((hshows 1 hone).2.part hlt).1.countable
    exact Page.cover_contents hlog h.store.idsIncrease hsize hcountable hlt fun page hpage =>
      ((hshows page hpage).2.part hlt).2
  · -- The first page holds every message.
    have hperm := ((hshows 1 hone).2.isOf h.store.idsIncrease).whole (Int.not_lt.mp hlt)
    refine ⟨hlog, ?_, ?_, ?_, ?_, ?_, ?_, ?_⟩
    case refine_2 =>
      intro m hm
      have hregular : 0 ≤ log.length / size.toInt := Int.ediv_nonneg (by omega) (by omega)
      exact ⟨1, ⟨hone, by rw [Word.toInt_one]; omega⟩, hperm.mem_iff.mpr hm⟩
    all_goals
      -- The board is not larger than a page.
      intro hpart
      exact absurd hpart hlt

end Board

namespace History

open Board (Keeps)

variable {γ : Type} [Cache γ] [LawfulCache γ]

/-- No move of a run leaves a gap. -/
def LeavesNoGap (h : History γ) : List (Move γ) → Prop
  | [] => True
  | m :: moves => m.LeavesNoGap h.board ∧ (h.next m).LeavesNoGap moves

/-- How many posts of a run were answered with an id. -/
def posted (h : History γ) : List (Move γ) → Nat
  | [] => 0
  | m :: moves => m.posted (m.perform h.board).answer + (h.next m).posted moves

/-- A run without gaps ends with as many messages as ids were issued, which is as many as posts were
answered. -/
theorem keeps_whole {h : History γ} {issued : Int} (hkeeps : Keeps h.board true h.log issued)
    (hlength : (h.log.length : Int) = issued) {moves : List (Move γ)}
    (hwhole : h.LeavesNoGap moves) :
    Keeps (h.play moves).board true (h.play moves).log (h.play moves).log.length ∧
      (h.play moves).log.length = h.log.length + h.posted moves := by
  induction moves generalizing h issued with
  | nil => exact ⟨hlength ▸ hkeeps, rfl⟩
  | cons m moves ih =>
    obtain ⟨hmove, hmoves⟩ := hwhole
    obtain ⟨hlog, hposted⟩ := Move.length_logAfter hkeeps m hmove
    have hnext : Keeps (h.next m).board true (h.next m).log
        (issued + m.asStep.increments h.board) :=
      Move.keeps_perform_counted hkeeps m fun _ => rfl
    change (h.next m).log.length = h.log.length + m.asStep.increments h.board at hlog
    obtain ⟨hrest, hcount⟩ := ih hnext (by omega) hmoves
    refine ⟨hrest, ?_⟩
    show ((h.next m).play moves).log.length
      = h.log.length + (m.posted (m.perform h.board).answer + (h.next m).posted moves)
    omega

/-- After every run that deletes no message and spends no id on a message that is not stored, with
any reads in between, the messages stored are as many as posts were answered, with the ids from one
on. While the store serves the calls that a page takes, every page is answered, and the pages of
every size cover the messages. -/
theorem covers_of_run {cache : γ} (hcache : LawfulCache.IsEmpty cache) (reachable : Bool)
    {moves : List (Move γ)} (hwhole : (opened reachable cache).LeavesNoGap moves)
    {b : Board (ObservedStore MemoryStore) γ}
    (hb : b = ((opened reachable cache).play moves).board)
    (hserves : ∀ method ∈ Board.pageMethods, b.store.Serves method) (hroom : b.HasRoom)
    {size : Int64} (hsize : 1 ≤ size.toInt) :
    b.store.inner.messages.length = (opened reachable cache).posted moves ∧
      (∀ page : Int64, 1 ≤ page.toInt →
        (Board.page page size b).answer = .ok (b.shown size page)) ∧
      Page.Cover b.store.inner.messages size (b.shown size) := by
  subst hb
  obtain ⟨hkeeps, hcount⟩ := keeps_whole (keeps_opened true hcache reachable) rfl hwhole
  have hlog := hkeeps.store.idsIncrease.numberedFrom hkeeps.store.ids (by omega)
  rw [hkeeps.store.messages]
  refine ⟨?_, hkeeps.cover hlog hroom hserves hsize⟩
  rw [hcount]
  exact Nat.zero_add _

/-- Three posts that are answered, one during an outage, a delete of an id that was never issued,
and reads in between. -/
def unbrokenMoves : List (Move LruCache) :=
  [.request (.post { author := "a", text := "1" }), .setReachable false,
    .request (.post { author := "x", text := "lost" }), .setReachable true,
    .request (.allCached true), .request (.post { author := "b", text := "2", timestamp := -7 }),
    .request (.delete 9), .request (.page 1 1), .request (.post { author := "c", text := "3" })]

/-- A board with the ids from one to three. -/
def unbrokenBoard : Board (ObservedStore MemoryStore) LruCache :=
  ((opened true ({ maxCost := 1000 } : LruCache)).play unbrokenMoves).board

private theorem leavesNoGap_unbroken :
    (opened true ({ maxCost := 1000 } : LruCache)).LeavesNoGap unbrokenMoves := by
  refine ⟨.inl ?_, trivial, .inr ?_, trivial, trivial, .inl ?_, ?_, trivial, .inl ?_, trivial⟩
  case refine_4 =>
    -- There is no message nine to delete.
    change (Board.delete 9 _).answer ≠ _
    decide +kernel
  all_goals decide +kernel

private theorem serves_unbrokenBoard (method : StoreMethod) :
    unbrokenBoard.store.Serves method :=
  .of_no_mishaps (by decide +kernel) (by decide +kernel) (by decide +kernel) method

private theorem hasRoom_unbrokenBoard : unbrokenBoard.HasRoom := by
  rw [Board.HasRoom]
  decide +kernel

private theorem messages_unbrokenBoard : unbrokenBoard.store.inner.messages
    = [⟨1, "a", "1", 0⟩, ⟨2, "b", "2", -7⟩, ⟨3, "c", "3", 0⟩] := by
  decide +kernel

/-- The pages of two cover the three messages. -/
theorem covers_of_run_unbroken :
    (LawfulCache.IsEmpty ({ maxCost := 1000 } : LruCache) ∧
      (opened true ({ maxCost := 1000 } : LruCache)).LeavesNoGap unbrokenMoves ∧
      (∀ method ∈ Board.pageMethods, unbrokenBoard.store.Serves method) ∧ unbrokenBoard.HasRoom ∧
      1 ≤ (2 : Int64).toInt) ∧
    (opened true ({ maxCost := 1000 } : LruCache)).posted unbrokenMoves = 3 ∧
    Page.Cover unbrokenBoard.store.inner.messages 2 (unbrokenBoard.shown 2) := by
  obtain ⟨hlength, -, hcover⟩ := covers_of_run (LruCache.isEmpty_new 1000) true leavesNoGap_unbroken
    rfl (fun method _ => serves_unbrokenBoard method) hasRoom_unbrokenBoard
    (by decide : 1 ≤ (2 : Int64).toInt)
  change unbrokenBoard.store.inner.messages.length = _ at hlength
  rw [messages_unbrokenBoard] at hlength
  exact ⟨⟨LruCache.isEmpty_new 1000, leavesNoGap_unbroken, fun method _ =>
    serves_unbrokenBoard method, hasRoom_unbrokenBoard, by decide⟩, hlength.symm, hcover⟩

-- Two to a page, the first page shows one message, because no message has the id zero.
example : (Board.page 1 2 unbrokenBoard).answer = .ok [⟨1, "a", "1", 0⟩] := by
  decide +kernel

end History

end Guestbook
