import WikiPress.Text.Ascii
import WikiPress.Text.Blank
import WikiPress.Text.Case
import WikiPress.Text.Category

/-!
# Regular expressions

The patterns of characters to be removed from slugs.  A pattern is matched against a text at every
position from left to right; of several ways to match, the first one in the order of the pattern
counts, not the longest.

## Main definitions

* `ClassSet`, `ClassSet.contains` : classes of characters.
* `Pattern` : the patterns.
* `Pattern.ends` : where a match may end, in order of preference.
* `Pattern.removeAll` : a text without the matches of a pattern.
* `Pattern.weight`, `Pattern.weightLimit` : how much memory a pattern takes.
-/

namespace WikiPress

open Text

/-- A class of characters. -/
inductive ClassSet where
  | none
  | range (first last : Char)
  | category (ks : List Category)
  | blank
  /-- Letters, marks, digits and connectors. -/
  | word
  | assigned
  | complement (s : ClassSet)
  | union (s t : ClassSet)
  | intersection (s t : ClassSet)
  | difference (s t : ClassSet)
  | symmetricDifference (s t : ClassSet)
  deriving Repr, Inhabited

namespace ClassSet

/-- Circled and squared letters, which are symbols but count as letters in words. -/
def enclosedLetters : CharSet := CharSet.parse "24b6-24e9 1f130-1f149 1f150-1f169 1f170-1f189"

/-- Whether a character belongs to words. -/
def isWordChar (c : Char) : Bool :=
  if c.toNat < 128 then Ascii.isAlphanumeric c || c = '_'
  else
    hasCategory (Category.letters ++ Category.marks ++
      [.letterNumber, .decimalNumber, .connectorPunctuation]) c ||
      enclosedLetters.contains c || c.toNat = 0x200C || c.toNat = 0x200D

/-- All categories of assigned characters. -/
def assignedCategories : List Category :=
  Category.letters ++ Category.marks ++ Category.numbers ++ Category.punctuation ++
    Category.symbols ++ Category.separators ++ [.control, .format, .privateUse]

/-- Whether a character is in a class; if case is ignored, whether any form of it is. -/
def contains (ignoreCase : Bool) : ClassSet → Char → Bool
  | none, _ => false
  | range a b, c => (forms c).any fun d => a ≤ d && d ≤ b
  | category ks, c => (forms c).any (hasCategory ks)
  | blank, c => isBlank c
  | word, c => (forms c).any isWordChar
  | assigned, c => hasCategory assignedCategories c
  | complement s, c => !contains ignoreCase s c
  | union s t, c => contains ignoreCase s c || contains ignoreCase t c
  | intersection s t, c => contains ignoreCase s c && contains ignoreCase t c
  | difference s t, c => contains ignoreCase s c && !contains ignoreCase t c
  | symmetricDifference s t, c => contains ignoreCase s c != contains ignoreCase t c
where
  /-- The characters that are not told apart from a character. -/
  forms (c : Char) : List Char := if ignoreCase then foldOrbit c else [c]

/-- About how many ranges of characters a class has. -/
def rangeCount : ClassSet → Nat
  | none => 0
  | range .. => 1
  | category ks => largest ks
  | blank => 10
  | word => largest Category.letters
  | assigned => largest assignedCategories
  | complement s => s.rangeCount + 1
  | union s t | intersection s t | difference s t | symmetricDifference s t =>
    s.rangeCount + t.rangeCount
where
  /-- The ranges of the category that has the most of them; the others fill its gaps. -/
  largest (ks : List Category) : Nat :=
    ks.foldl (fun n k => max n k.members.ranges.size) 0

end ClassSet

/-- What a pattern may ask of a position. -/
inductive Anchor where
  | textStart | textEnd | lineStart | lineEnd | wordBoundary | noWordBoundary | wordStart
  | wordEnd | wordStartHalf | wordEndHalf
  deriving DecidableEq, Repr, Inhabited

/-- A pattern. -/
inductive Pattern where
  | empty
  | one (ignoreCase : Bool) (s : ClassSet)
  | anchor (a : Anchor)
  | seq (p q : Pattern)
  | alt (p q : Pattern)
  /-- At least `least` and, if `most` is given, at most that many times; as often as possible if
  `greedy`, and as rarely as possible otherwise. -/
  | times (greedy : Bool) (least : Nat) (most : Option Nat) (p : Pattern)
  deriving Repr, Inhabited

namespace Pattern

/-- A position in a text: what precedes it in reverse, and what follows it. -/
abbrev Spot := List Char × List Char

/-- Whether a position satisfies an anchor. -/
def holds (a : Anchor) (spot : Spot) : Bool :=
  let wordBefore := spot.1.head?.any ClassSet.isWordChar
  let wordAfter := spot.2.head?.any ClassSet.isWordChar
  match a with
  | .textStart => spot.1.isEmpty
  | .textEnd => spot.2.isEmpty
  | .lineStart => spot.1.isEmpty || spot.1.head? = some '\n'
  | .lineEnd => spot.2.isEmpty || spot.2.head? = some '\n'
  | .wordBoundary => wordBefore != wordAfter
  | .noWordBoundary => wordBefore == wordAfter
  | .wordStart => !wordBefore && wordAfter
  | .wordEnd => wordBefore && !wordAfter
  | .wordStartHalf => !wordBefore
  | .wordEndHalf => !wordAfter

/-- Positions reached by repeating a step, the first one in order of preference first.  A step
that does not move is not repeated; `fuel` bounds the repetitions that move. -/
def repeatSteps (step : Spot → List Spot) (greedy : Bool) :
    Nat → Nat → Option Nat → Spot → List Spot
  | 0, _, _, spot => [spot]
  | fuel + 1, least, most, spot =>
    if most = some 0 then [spot]
    else
      let more := (step spot).flatMap fun next =>
        if next.2.length < spot.2.length then
          repeatSteps step greedy fuel (least - 1) (most.map (· - 1)) next
        else if 0 < least then [next]
        else []
      if 0 < least then more else if greedy then more ++ [spot] else spot :: more

/-- Where a match from a position may end, in order of preference. -/
def ends : Pattern → Spot → List Spot
  | empty, spot => [spot]
  | one ignoreCase s, (before, rest) =>
    match rest with
    | c :: rest => if s.contains ignoreCase c then [(c :: before, rest)] else []
    | [] => []
  | anchor a, spot => if holds a spot then [spot] else []
  | seq p q, spot => (p.ends spot).flatMap q.ends
  | alt p q, spot => p.ends spot ++ q.ends spot
  | times greedy least most p, spot =>
    repeatSteps p.ends greedy (spot.2.length + 1) least most spot

/-- The text from a position on without the matches.  An empty match removes nothing, so the
character after it is kept. -/
def removeFrom (p : Pattern) : Nat → Spot → List Char
  | 0, spot => spot.2
  | fuel + 1, (before, rest) =>
    let next := ((p.ends (before, rest)).head?).filter fun spot => spot.2.length < rest.length
    match next, rest with
    | some spot, _ => removeFrom p fuel spot
    | none, [] => []
    | none, c :: rest => c :: removeFrom p fuel (c :: before, rest)

/-- The text without the matches of the pattern. -/
def removeAll (p : Pattern) (s : List Char) : List Char := removeFrom p (s.length + 1) ([], s)

/-- Whether the pattern matches somewhere in the text. -/
def isMatch (p : Pattern) (s : List Char) : Bool := go [] s
where
  /-- Whether the pattern matches from some position on. -/
  go (before : List Char) : List Char → Bool
    | [] => !(p.ends (before, [])).isEmpty
    | c :: rest => !(p.ends (before, c :: rest)).isEmpty || go (c :: before) rest

/-- The pattern that matches nowhere. -/
def never : Pattern := .one false .none

/-! ### Weights -/

/-- About how many bytes a pattern takes when its repetitions are written out: 32 for each step,
60 for each further range of a class, and 48 for each choice. -/
def weight : Pattern → Nat
  | empty | anchor _ => 32
  | one _ s => 32 + 60 * (s.rangeCount - 1)
  | seq p q => p.weight + q.weight
  | alt p q => p.weight + q.weight + 48
  | times _ least none p => max least 1 * p.weight + 48
  | times _ least (some most) p => least * p.weight + (most - least) * (p.weight + 48)

/-- Heavier patterns are refused. -/
def weightLimit : Nat := 10 * 1024 * 1024

end Pattern

end WikiPress
