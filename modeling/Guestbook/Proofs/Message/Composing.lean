import Guestbook.Message
import Guestbook.Proofs.Text.Blank

/-!
# Composing a post

What a visitor writes becomes a post unless its text is blank. The text is kept to the letter, while
the name is trimmed; where nothing is left of the name, there is a default. So the fields of a post,
composed again, give the same post.

## Main definitions
- `NamesAuthor`: the author that a visitor's input names
- `ComposedOf`: the post of a visitor's input
- `Composes`: what comes of a visitor's input

## Main statements
- `namesAuthor_iff`: the input names one author
- `composes`: every input
-/

namespace Guestbook.Message

open Text (AllBlank Trimmed Unpadded)

variable {given : Option String} {author text : String} {now : Int64} {m : Message}

/-! ## The author -/

/-- `author` is the author that a visitor's input names: a name with something in it, without the
blanks around it. -/
structure NamesAuthor (given : Option String) (author : String) : Prop where
  nonempty : author ≠ ""
  unpadded : Unpadded author
  within : ∀ name, given = some name → ¬ AllBlank name →
    ∃ before after, name = before ++ author ++ after ∧ AllBlank before ∧ AllBlank after
  otherwise : (∀ name, given = some name → AllBlank name) → author = defaultAuthor

/-- A name that is not blank is trimmed. -/
theorem authorOf_of_not_allBlank {name : String} (h : ¬ AllBlank name) :
    authorOf (some name) = Text.trim name := by
  rw [authorOf, if_neg (mt Text.isBlankText_iff.mp h)]

/-- There is a default for a name that is missing or blank. -/
theorem authorOf_of_allBlank (h : ∀ name, given = some name → AllBlank name) :
    authorOf given = defaultAuthor := by
  cases given with
  | none => rfl
  | some name => rw [authorOf, if_pos (Text.isBlankText_iff.mpr (h name rfl))]

theorem unpadded_defaultAuthor : Unpadded defaultAuthor := by
  have htrim : defaultAuthor = Text.trim defaultAuthor := by decide
  exact (Text.trimmed_iff.mpr htrim).toUnpadded

/-- A visitor's input names the author that is taken from it, and no other. -/
theorem namesAuthor_iff : NamesAuthor given author ↔ author = authorOf given := by
  by_cases hblank : ∀ name, given = some name → AllBlank name
  · rw [authorOf_of_allBlank hblank]
    constructor
    · exact fun h => h.otherwise hblank
    · rintro rfl
      exact ⟨by decide, unpadded_defaultAuthor,
        fun name hname hnot => absurd (hblank name hname) hnot, fun _ => rfl⟩
  · push Not at hblank
    obtain ⟨name, rfl, hnot⟩ := hblank
    rw [authorOf_of_not_allBlank hnot, ← Text.trimmed_iff]
    constructor
    · exact fun h => ⟨h.unpadded, h.within name rfl hnot⟩
    · intro h
      refine ⟨h.ne_empty hnot, h.toUnpadded, ?_, fun hblank => absurd (hblank name rfl) hnot⟩
      intro name' hname' _
      obtain rfl := Option.some.inj hname'
      exact h.within

/-! ## The post -/

/-- `m` is the post of a visitor's input at time `now`. -/
structure ComposedOf (given : Option String) (text : String) (now : Int64) (m : Message) :
    Prop where
  id : m.id = 0
  author : NamesAuthor given m.author
  text : m.text = text
  timestamp : m.timestamp = now
  /-- A visitor who writes what the post says makes the same post. -/
  again : ∀ later, compose (some m.author) m.text later = .ok { m with timestamp := later }

/-- What comes of a visitor's input. -/
structure Composes (given : Option String) (text : String) (now : Int64) : Prop where
  refused : compose given text now = .error .emptyMessage ↔ AllBlank text
  accepted : ¬ AllBlank text → ∃ m, compose given text now = .ok m
  composed : ∀ m, compose given text now = .ok m ↔ ¬ AllBlank text ∧ ComposedOf given text now m

theorem compose_of_allBlank (h : AllBlank text) :
    compose given text now = .error .emptyMessage := by
  rw [compose, if_pos (Text.isBlankText_iff.mpr h)]

theorem compose_of_not_allBlank (h : ¬ AllBlank text) :
    compose given text now = .ok { author := authorOf given, text, timestamp := now } := by
  rw [compose, if_neg (mt Text.isBlankText_iff.mp h)]

/-- An author that was named names itself. -/
theorem NamesAuthor.again (h : NamesAuthor given author) : authorOf (some author) = author := by
  rw [authorOf_of_not_allBlank (h.unpadded.not_allBlank h.nonempty), h.unpadded.trim_eq]

/-- The author and the text of a post determine it. -/
theorem ComposedOf.eq (h : ComposedOf given text now m) :
    m = { author := authorOf given, text, timestamp := now } := by
  obtain ⟨id, author, text', timestamp⟩ := m
  obtain rfl : id = 0 := h.id
  obtain rfl : author = authorOf given := namesAuthor_iff.mp h.author
  obtain rfl : text' = text := h.text
  obtain rfl : timestamp = now := h.timestamp
  rfl

theorem composedOf_of_not_allBlank (h : ¬ AllBlank text) :
    ComposedOf given text now { author := authorOf given, text, timestamp := now } where
  id := rfl
  author := namesAuthor_iff.mpr rfl
  text := rfl
  timestamp := rfl
  again later := by
    have hauthor : authorOf (some (authorOf given)) = authorOf given :=
      (namesAuthor_iff.mpr rfl).again
    rw [compose_of_not_allBlank h, hauthor]

/-- A visitor's input is refused just when its text is blank, and makes the one post that it
describes otherwise. -/
theorem composes (given : Option String) (text : String) (now : Int64) :
    Composes given text now := by
  by_cases hblank : AllBlank text
  · have hrefused : compose given text now = .error .emptyMessage := compose_of_allBlank hblank
    refine ⟨iff_of_true hrefused hblank, fun h => absurd hblank h, fun m => ?_⟩
    rw [hrefused]
    exact iff_of_false (fun h => nomatch h) fun h => h.1 hblank
  · have haccepted : compose given text now = .ok _ := compose_of_not_allBlank hblank
    refine ⟨?_, fun _ => ⟨_, haccepted⟩, fun m => ?_⟩
    · rw [haccepted]
      exact iff_of_false (fun h => nomatch h) hblank
    · rw [haccepted, Except.ok.injEq]
      constructor
      · rintro rfl
        exact ⟨hblank, composedOf_of_not_allBlank hblank⟩
      · exact fun h => h.2.eq.symm

/-- The name is trimmed of wide blanks too, and the text of none. -/
example : compose (some "\u3000Ada  Lovelace\u2003\n") " hi " 5
    = .ok { author := "Ada  Lovelace", text := " hi ", timestamp := 5 } := by decide

end Guestbook.Message
