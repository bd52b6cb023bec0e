import Guestbook.Json.Skip

/-!
# The grammar of JSON

Which bytes are a JSON value, whatever reads them. Brackets nest to any depth, and blanks may stand
between any two tokens. A string literal is a value by its characters alone; it spells a text if its
escapes stand for that text, which half a surrogate pair does for none.

## Main definitions
- `Blanks`, `NumberLiteral`, `Characters`: the leaves
- `Derives`: values, and the entries between two brackets
- `Spells`: a string literal for a text
-/

namespace Guestbook.Json

open Ascii

/-! ## Blanks -/

/-- Bytes that may stand between two tokens. -/
def Blanks (s : Bytes) : Prop := ∀ b ∈ s, isBlank b = true

theorem Blanks.nil : Blanks [] := nofun

instance (s : Bytes) : Decidable (Blanks s) := List.decidableBAll _ s

/-! ## Numbers -/

/-- Nothing but decimal digits. -/
def Digits (s : Bytes) : Prop := ∀ b ∈ s, isDigit b = true

/-- The integer part of a number: zero, or digits of which the first is not zero. -/
inductive IntegerPart : Bytes → Prop where
  | zero : IntegerPart [zero]
  | digits {b : UInt8} {ds : Bytes} (hzero : b ≠ Ascii.zero) (hds : Digits (b :: ds)) :
      IntegerPart (b :: ds)

/-- The fraction of a number, if it has one. -/
inductive Fraction : Bytes → Prop where
  | none : Fraction []
  | digits {b : UInt8} {ds : Bytes} (hds : Digits (b :: ds)) : Fraction (point :: b :: ds)

/-- The exponent of a number, if it has one. -/
inductive Exponent : Bytes → Prop where
  | none : Exponent []
  | digits {mark b : UInt8} {sign ds : Bytes} (hmark : mark = lowerE ∨ mark = upperE)
      (hsign : sign = [] ∨ sign = [plus] ∨ sign = [minus]) (hds : Digits (b :: ds)) :
      Exponent (mark :: (sign ++ b :: ds))

/-- A number without its sign. -/
inductive Unsigned : Bytes → Prop where
  | mk {whole fraction exponent : Bytes} (hwhole : IntegerPart whole)
      (hfraction : Fraction fraction) (hexponent : Exponent exponent) :
      Unsigned (whole ++ (fraction ++ exponent))

/-- A number, which a minus sign may stand before. -/
inductive NumberLiteral : Bytes → Prop where
  | positive {s : Bytes} (h : Unsigned s) : NumberLiteral s
  | negative {s : Bytes} (h : Unsigned s) : NumberLiteral (minus :: s)

/-! ## Strings -/

/-- The letters of short escapes with the bytes that they stand for. -/
def escapeLetters : List (UInt8 × UInt8) :=
  [(quote, quote), (backslash, backslash), (slash, slash), (lowerB, backspace),
    (lowerF, formFeed), (lowerN, lineFeed), (lowerR, carriageReturn), (lowerT, tab)]

/-- The four hexadecimal digits of a code unit. -/
inductive CodeUnit : Nat → Bytes → Prop where
  | mk {a b c d : UInt8} {w x y z : Nat} (ha : hexDigit? a = some w) (hb : hexDigit? b = some x)
      (hc : hexDigit? c = some y) (hd : hexDigit? d = some z) :
      CodeUnit (w * 4096 + x * 256 + y * 16 + z) [a, b, c, d]

/-- A byte that stands for itself in a string. -/
structure Plain (b : UInt8) : Prop where
  quote : b ≠ quote
  backslash : b ≠ backslash
  space : space ≤ b

/-- The bytes between the quotes of a string. -/
inductive Characters : Bytes → Prop where
  | nil : Characters []
  | plain {b : UInt8} {s : Bytes} (hb : Plain b) (hs : Characters s) : Characters (b :: s)
  | letter {l b : UInt8} {s : Bytes} (hl : (l, b) ∈ escapeLetters) (hs : Characters s) :
      Characters (backslash :: l :: s)
  | unit {n : Nat} {ds s : Bytes} (hds : CodeUnit n ds) (hs : Characters s) :
      Characters (backslash :: lowerU :: (ds ++ s))

/-- The bytes between the quotes of a string, and the bytes of the text that it is. -/
inductive Spells : Bytes → Bytes → Prop where
  | nil : Spells [] []
  | plain {b : UInt8} {text s : Bytes} (hb : Plain b) (hs : Spells text s) :
      Spells (b :: text) (b :: s)
  | letter {l b : UInt8} {text s : Bytes} (hl : (l, b) ∈ escapeLetters) (hs : Spells text s) :
      Spells (b :: text) (backslash :: l :: s)
  /-- A character whose code is a single unit. -/
  | unit {c : Char} {ds text s : Bytes} (hds : CodeUnit c.toNat ds) (hs : Spells text s) :
      Spells (Text.toBytes (String.singleton c) ++ text) (backslash :: lowerU :: (ds ++ s))
  /-- A character whose code is a pair of surrogates. -/
  | pair {c : Char} {leading trailing : Nat} {ds ds' text s : Bytes}
      (hleading : 0xD800 ≤ leading ∧ leading ≤ 0xDBFF)
      (htrailing : 0xDC00 ≤ trailing ∧ trailing ≤ 0xDFFF)
      (hc : c.toNat = 0x10000 + (leading - 0xD800) * 1024 + (trailing - 0xDC00))
      (hds : CodeUnit leading ds) (hds' : CodeUnit trailing ds') (hs : Spells text s) :
      Spells (Text.toBytes (String.singleton c) ++ text)
        (backslash :: lowerU :: (ds ++ backslash :: lowerU :: (ds' ++ s)))

/-- A string literal for a text. -/
inductive SpellsText (text : String) : Bytes → Prop where
  | mk {s : Bytes} (hs : Spells (Text.toBytes text) s) : SpellsText text (quote :: (s ++ [quote]))

/-- What spells a text are characters of a string. -/
theorem Spells.characters {text s : Bytes} (h : Spells text s) : Characters s := by
  induction h with
  | nil => exact .nil
  | plain hb _ ih => exact .plain hb ih
  | letter hl _ ih => exact .letter hl ih
  | unit hds _ ih => exact .unit hds ih
  | pair _ _ _ hds hds' _ ih => exact .unit hds (.unit hds' ih)

/-! ## Values -/

/-- A value without brackets. -/
inductive Scalar : Bytes → Prop where
  | null : Scalar (lowerN :: nullTail)
  | true : Scalar (lowerT :: trueTail)
  | false : Scalar (lowerF :: falseTail)
  | number {s : Bytes} (h : NumberLiteral s) : Scalar s
  | string {s : Bytes} (h : Characters s) : Scalar (quote :: (s ++ [quote]))

/-- The byte that opens a bracket. -/
def Bracket.start : Bracket → UInt8
  | list => openBracket
  | object => openBrace

/-- What stands before the value of an entry: blanks, and in an object a key with its colon. -/
inductive EntryStart : Bracket → Bytes → Prop where
  | element {w : Bytes} (hw : Blanks w) : EntryStart .list w
  | key {w s w' w'' : Bytes} (hw : Blanks w) (hs : Characters s) (hw' : Blanks w')
      (hw'' : Blanks w'') :
      EntryStart .object (w ++ quote :: (s ++ quote :: (w' ++ colon :: w'')))

/-- What the grammar derives. -/
inductive Phrase where
  | value
  /-- The entries between two brackets, of which there is at least one. -/
  | entries (bracket : Bracket)

/-- The bytes of a value, and those between the brackets of one. -/
inductive Derives : Phrase → Bytes → Prop where
  | scalar {v : Bytes} (hv : Scalar v) : Derives .value v
  | empty (bracket : Bracket) {w : Bytes} (hw : Blanks w) :
      Derives .value (bracket.start :: (w ++ [bracket.close]))
  | bracketed {bracket : Bracket} {es : Bytes} (hes : Derives (.entries bracket) es) :
      Derives .value (bracket.start :: (es ++ [bracket.close]))
  | last {bracket : Bracket} {start v w : Bytes} (hstart : EntryStart bracket start)
      (hv : Derives .value v) (hw : Blanks w) : Derives (.entries bracket) (start ++ (v ++ w))
  | more {bracket : Bracket} {start v w es : Bytes} (hstart : EntryStart bracket start)
      (hv : Derives .value v) (hw : Blanks w) (hes : Derives (.entries bracket) es) :
      Derives (.entries bracket) (start ++ (v ++ (w ++ comma :: es)))

end Guestbook.Json
