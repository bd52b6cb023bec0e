import Guestbook.Record

/-!
# Members of an encoded message

An encoded message is a JSON object with four members, or an array of their values in this order.
-/

namespace Guestbook.Json

/-- A member of an encoded message. -/
inductive Member where
  | id
  | author
  | message
  | timestamp
  deriving DecidableEq, Repr

namespace Member

/-- The key of a member. -/
def name : Member → String
  | id => Bin.id
  | author => Bin.author
  | message => Bin.message
  | timestamp => Bin.timestamp

/-- All members in the order of writing. -/
def all : List Member := [id, author, message, timestamp]

/-- The member with the given key. -/
def ofName? (key : String) : Option Member := all.find? fun m => m.name = key

end Member

end Guestbook.Json
