import Guestbook.Record.Message

/-!
# Records of messages

A message comes back from its record with every field and without a report.

## Main statements
- `toMessage_ofMessage`: one message
- `map_fst_toMessage_ofMessage`: a list of messages
-/

namespace Guestbook.Record

@[simp] theorem find?_ofMessage_id (m : Message) :
    (ofMessage m).find? Bin.id = some (.int m.id) := by
  simp [ofMessage, SortedMap.ofList, SortedMap.find?_insert, Bin.id, Bin.author, Bin.message,
    Bin.timestamp]

@[simp] theorem find?_ofMessage_author (m : Message) :
    (ofMessage m).find? Bin.author = some (.str m.author) := by
  simp [ofMessage, SortedMap.ofList, SortedMap.find?_insert, Bin.id, Bin.author, Bin.message,
    Bin.timestamp]

@[simp] theorem find?_ofMessage_message (m : Message) :
    (ofMessage m).find? Bin.message = some (.str m.text) := by
  simp [ofMessage, SortedMap.ofList, SortedMap.find?_insert, Bin.id, Bin.author, Bin.message,
    Bin.timestamp]

@[simp] theorem find?_ofMessage_timestamp (m : Message) :
    (ofMessage m).find? Bin.timestamp = some (.int m.timestamp) := by
  simp [ofMessage, SortedMap.ofList, SortedMap.find?_insert]

/-- A message is read from its record as it was, without a report. -/
@[simp] theorem toMessage_ofMessage (m : Message) : toMessage (ofMessage m) = (m, []) := by
  simp [toMessage, readInt, readStr]

/-- The messages of a list of records, one for each record and in their order. -/
@[simp] theorem fst_toMessages (records : List Record) :
    (toMessages records).1 = records.map fun r => (toMessage r).1 := rfl

theorem map_fst_toMessage_ofMessage (ms : List Message) :
    (ms.map ofMessage).map (fun r => (toMessage r).1) = ms := by
  simp [List.map_map, Function.comp_def]

end Guestbook.Record
