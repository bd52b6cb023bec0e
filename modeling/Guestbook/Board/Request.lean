import Guestbook.Board

/-!
# Requests to a board

Whatever can be asked of a board, as values, so that a run is a list.

## Main definitions
- `BoardRequest`, `BoardReply`: a request, and what it is answered
- `BoardRequest.serve`: serves one request
-/

namespace Guestbook

/-- A request to a board. -/
inductive BoardRequest where
  | post (m : Message)
  | delete (id : Int64)
  | all (byTimestamp : Bool)
  | allCached (byTimestamp : Bool)
  | range (low high : Int64)
  | page (number size : Int64)
  | count
  | awaitReady (timeout : Duration)
  | isConnected
  | close
  deriving DecidableEq, Repr

/-- What a request to a board is answered. -/
inductive BoardReply where
  | done
  | id (n : Int64)
  | truth (b : Bool)
  | count (n : Nat)
  | messages (ms : List Message)
  deriving DecidableEq, Repr

namespace BoardRequest

variable {σ γ : Type} [Store σ] [Cache γ]

/-- Serves one request. -/
def serve : BoardRequest → Action (Board σ γ) BoardReply
  | post m => do return .id (← Board.post m)
  | delete id => do return .truth (← Board.delete id)
  | all byTimestamp => do return .messages (← Board.all byTimestamp)
  | allCached byTimestamp => do return .messages (← Board.allCached byTimestamp)
  | range low high => do return .messages (← Board.range low high)
  | page number size => do return .messages (← Board.page number size)
  | count => do return .count (← Board.count)
  | awaitReady timeout => do
    Board.awaitReady timeout
    return .truth true
  | isConnected => do return .truth (Board.isConnected (← Action.state))
  | close => do
    Board.close
    return .done

end BoardRequest

end Guestbook
