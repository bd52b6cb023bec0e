import Mathlib.Algebra.Ring.Nat
import Guestbook.Json.Encode

/-!
# The length of an encoding

An encoding grows with the list that it encodes, and holds at least three bytes for each message.

## Main statements
- `length_encodeMessages_le`: a part of a list has a shorter encoding
- `three_mul_length_le`: an encoding is at least thrice as long as its list
-/

namespace Guestbook.Json

/-- Items and the commas between them, with one comma more. -/
private theorem length_separated_cons (item : Bytes) (items : List Bytes) :
    (separated (item :: items)).length + 1
      = ((item :: items).map fun item => item.length + 1).sum := by
  induction items generalizing item with
  | nil => simp [separated]
  | cons next items ih =>
    -- The first item and its comma stand before the separated rest.
    rw [separated, List.length_append, List.length_cons, ih next,
      List.map_cons (l := next :: items),
      List.sum_cons]
    omega

/-- The bytes that messages and the commas or bracket after them take. -/
def weight (msgs : List Message) : Nat :=
  (msgs.map fun msg => (encodeMessage msg).length + 1).sum

private theorem weight_cons (msg : Message) (msgs : List Message) :
    weight (msg :: msgs) = (encodeMessage msg).length + 1 + weight msgs := by
  simp only [weight, List.map_cons, List.sum_cons]

private theorem length_encodeMessages (msgs : List Message) :
    (encodeMessages msgs).length = max 2 (weight msgs + 1) := by
  rw [encodeMessages, List.length_cons, List.length_append, List.length_singleton]
  cases msgs with
  | nil => rfl
  | cons msg msgs =>
    -- The opening bracket takes one byte, and the closing one the place of the last comma.
    have hlength := length_separated_cons (encodeMessage msg) (msgs.map encodeMessage)
    rw [← List.map_cons, List.map_map] at hlength
    have hweight : weight (msg :: msgs)
        = ((msg :: msgs).map ((fun item => item.length + 1) ∘ encodeMessage)).sum := rfl
    rw [hweight, ← hlength]
    omega

private theorem weight_le {msgs msgs' : List Message} (h : msgs.Sublist msgs') :
    weight msgs ≤ weight msgs' := by
  induction h with
  | slnil => exact Nat.le_refl _
  | cons msg _ ih =>
    rw [weight_cons]
    omega
  | cons_cons msg _ ih =>
    rw [weight_cons, weight_cons]
    omega

/-- A part of a list has no longer an encoding than the whole. -/
theorem length_encodeMessages_le {msgs msgs' : List Message} (h : msgs.Sublist msgs') :
    (encodeMessages msgs).length ≤ (encodeMessages msgs').length := by
  have hweight := weight_le h
  rw [length_encodeMessages, length_encodeMessages]
  omega

private theorem three_mul_length_le_weight (msgs : List Message) :
    3 * msgs.length ≤ weight msgs := by
  induction msgs with
  | nil => exact Nat.le_refl _
  | cons msg msgs ih =>
    have hbraces : 2 ≤ (encodeMessage msg).length := by
      rw [encodeMessage, List.length_cons, List.length_append, List.length_singleton]
      omega
    rw [weight_cons, List.length_cons]
    omega

/-- Each message takes its two braces and a comma or bracket at least. -/
theorem three_mul_length_le (msgs : List Message) :
    3 * msgs.length ≤ (encodeMessages msgs).length := by
  have hweight := three_mul_length_le_weight msgs
  rw [length_encodeMessages]
  omega

end Guestbook.Json
