import WikiPress.Text.Measure
import WikiPress.Token

/-!
# Rules

A rule recognises one construct of its own at a place in a text and gives the tokens that stand
for it.  Rules are tried in order at a place; the first one that matches and moves forward claims
the text it moved over.  All rules act on the same cursor, which is put back after a rule that
claims nothing.

## Main definitions

* `Place` : a text, a byte position in it, and what is known of its first and last line.
* `Attempt`, `Rule` : what a rule says of a place.
* `Rule.firstClaim?` : the claim of the first rule that has one.
* `Cursor`, `Cursor.tryRules` : what rules change while they are tried one after the other.
* `Step`, `scan` : the steps over a text from its start to its end.
-/

namespace WikiPress

open Text

/-- A byte position in a text. -/
structure Place where
  text : List Char
  position : Nat := 0
  /-- The text begins at the start of a line. -/
  startsLine : Bool
  /-- The text ends at the end of a line. -/
  endsLine : Bool
  /-- The text from the position on; nothing if the position falls inside a character or past the
  end. -/
  rest : List Char := (dropBytes? text position).getD []
  rest_eq : rest = (dropBytes? text position).getD [] := by rfl

namespace Place

/-- Another position in the same text. -/
def goTo (p : Place) (position : Nat) : Place :=
  { text := p.text, position, startsLine := p.startsLine, endsLine := p.endsLine }

theorem eq_rest_of_dropBytes? {p : Place} {n : Nat} {rest : List Char}
    (h : dropBytes? p.rest n = some rest) :
    rest = (dropBytes? p.text (p.position + n)).getD [] := by
  cases hp : dropBytes? p.text p.position with
  | some s =>
    rw [p.rest_eq, hp, Option.getD_some] at h
    rw [← dropBytes?_of_dropBytes? n hp, h, Option.getD_some]
  | none =>
    rw [p.rest_eq, hp, Option.getD_none] at h
    cases n with
    | zero =>
      rw [dropBytes?_zero, Option.some.injEq] at h
      rw [← h, Nat.add_zero, hp, Option.getD_none]
    | succ n => simp [dropBytes?] at h

/-- The place that is some bytes further on. -/
def moveBy (p : Place) (n : Nat) : Place :=
  match h : dropBytes? p.rest n with
  | some rest =>
    { p with position := p.position + n, rest, rest_eq := eq_rest_of_dropBytes? h }
  | none => p.goTo (p.position + n)

theorem position_moveBy (p : Place) (n : Nat) : (p.moveBy n).position = p.position + n := by
  unfold moveBy
  split <;> rfl

theorem text_moveBy (p : Place) (n : Nat) : (p.moveBy n).text = p.text := by
  unfold moveBy
  split <;> rfl

/-- Whether the position is at the start of a line. -/
def atLineStart (p : Place) : Bool :=
  if p.position = 0 then p.startsLine
  else (dropBytes? p.text (p.position - 1)).any fun s => s.head? = some '\n'

/-- The rest of the line. -/
def line (p : Place) : List Char := p.rest.takeWhile (· ≠ '\n')

/-- Whether the end of the line is part of the text. -/
def lineIsComplete (p : Place) : Bool := p.rest.contains '\n' || p.endsLine

/-- The bytes of the character at the position, and one inside a character or past the end. -/
def characterSize (p : Place) : Nat :=
  match p.rest with
  | c :: _ => c.utf8Size
  | [] => 1

theorem characterSize_pos (p : Place) : 0 < p.characterSize := by
  unfold characterSize
  split
  · exact Char.utf8Size_pos _
  · exact Nat.one_pos

end Place

/-- What a rule says of a place. -/
structure Attempt where
  matched : Bool := false
  tokens : List Token := []
  /-- The number of bytes that the rule moves over. -/
  advance : Nat := 0
  deriving Repr, Inhabited

/-- A rule that declines. -/
def Attempt.declined : Attempt := {}

/-- A rule for a construct of its own. -/
structure Rule where
  name : String
  attempt : Place → Attempt

namespace Rule

/-- The claim of a rule, if it matches and moves forward. -/
def claim? (r : Rule) (p : Place) : Option Attempt :=
  let a := r.attempt p
  if a.matched && 0 < a.advance then some a else none

/-- The claim of the first rule that has one. -/
def firstClaim? (rules : List Rule) (p : Place) : Option Attempt := rules.findSome? (·.claim? p)

theorem advance_pos_of_firstClaim? {rules : List Rule} {p : Place} {a : Attempt}
    (h : firstClaim? rules p = some a) : 0 < a.advance := by
  obtain ⟨r, _, hr⟩ := List.exists_of_findSome?_eq_some h
  simp only [claim?] at hr
  split at hr
  · simp_all
  · simp at hr

end Rule

/-! ### Trying rules -/

/-- A place with the tokens that rules have given there.  Both change while a rule is tried, whether
it matches or not. -/
structure Cursor where
  place : Place
  emitted : List Token := []

namespace Cursor

/-- The cursor after a rule: it is moved, and the tokens of the rule are added. -/
def follow (c : Cursor) (a : Attempt) : Cursor :=
  { c with place := c.place.moveBy a.advance, emitted := c.emitted ++ a.tokens }

/-- The cursor put back to a place, and without tokens. -/
def putBack (c : Cursor) (p : Place) : Cursor := { c with place := p, emitted := [] }

/-- The cursor some bytes further on. -/
def skip (c : Cursor) (n : Nat) : Cursor := { c with place := c.place.moveBy n }

/-- Tries rules in order.  The first one that matches and moves the cursor forward gives its tokens,
and the cursor stays where it stopped; after any other rule the cursor is put back. -/
def tryRules : List Rule → Cursor → Option (List Token) × Cursor
  | [], c => (none, c)
  | r :: rest, c =>
    let a := r.attempt c.place
    let after := c.follow a
    if a.matched && c.place.position < after.place.position then
      (some after.emitted, { after with emitted := [] })
    else tryRules rest (after.putBack c.place)

/-- A claim moves the cursor forward. -/
theorem lt_position_of_tryRules {rules : List Rule} {c after : Cursor} {ts : List Token}
    (h : tryRules rules c = (some ts, after)) : c.place.position < after.place.position := by
  fun_induction tryRules rules c with
  | case1 => simp at h
  | case2 r rest c a next hclaim =>
    simp only [Prod.mk.injEq] at h
    simp only [Bool.and_eq_true, decide_eq_true_eq] at hclaim
    rw [← h.2]
    exact hclaim.2
  | case3 r rest c a next _ ih => exact ih h

/-- Without a claim the cursor is where it was. -/
theorem place_of_tryRules {rules : List Rule} {c after : Cursor}
    (h : tryRules rules c = (none, after)) : after.place = c.place := by
  fun_induction tryRules rules c with
  | case1 => simp_all
  | case2 => simp at h
  | case3 r rest c a next _ ih => exact ih h

end Cursor

/-! ### Scanning -/

/-- What happens at one position of a scan. -/
inductive Outcome where
  /-- The rules are not tried here. -/
  | skipped
  /-- No rule claims the text here. -/
  | declined
  | claimed (tokens : List Token)
  deriving Repr, Inhabited

/-- A step of a scan: from a position to a later one. -/
structure Step where
  start : Nat
  stop : Nat
  outcome : Outcome
  deriving Repr, Inhabited

/-- What happens at a cursor, and the cursor for the next step.  `skip?` gives the number of bytes to
be skipped where the rules are not to be tried. -/
def outcomeAt (skip? : Place → Option Nat) (rules : List Rule) (c : Cursor) : Outcome × Cursor :=
  match skip? c.place with
  | some n => (.skipped, c.skip (max 1 n))
  | none =>
    match c.tryRules rules with
    | (some tokens, after) => (.claimed tokens, after)
    | (none, after) => (.declined, after.skip after.place.characterSize)

theorem lt_position_outcomeAt (skip? : Place → Option Nat) (rules : List Rule) (c : Cursor) :
    c.place.position < (outcomeAt skip? rules c).2.place.position := by
  unfold outcomeAt
  split
  · simp only [Cursor.skip, Place.position_moveBy]
    omega
  · split
    · next h => exact Cursor.lt_position_of_tryRules h
    · next after h =>
      have := after.place.characterSize_pos
      simp only [Cursor.skip, Place.position_moveBy, ← Cursor.place_of_tryRules h]
      omega

/-- The steps from a cursor up to a byte position. -/
def scanTo (skip? : Place → Option Nat) (rules : List Rule) (stop : Nat) (c : Cursor) :
    List Step :=
  if c.place.position < stop then
    let next := outcomeAt skip? rules c
    ⟨c.place.position, next.2.place.position, next.1⟩ :: scanTo skip? rules stop next.2
  else []
  termination_by stop - c.place.position
  decreasing_by
    have := lt_position_outcomeAt skip? rules c
    omega

/-- The steps from a place to the end of the text. -/
def scan (skip? : Place → Option Nat) (rules : List Rule) (p : Place) : List Step :=
  scanTo skip? rules (size p.text) { place := p }

/-- The places at which the rules were tried. -/
def triedPlaces (p : Place) (steps : List Step) : List Place :=
  steps.filterMap fun step =>
    match step.outcome with
    | .skipped => none
    | _ => some (p.goTo step.start)

/-- The places at which the rule with the given number was tried: no rule before it claimed the
text there. -/
def triedBy (rules : List Rule) (number : Nat) (places : List Place) : List Place :=
  places.filter fun p => (Rule.firstClaim? (rules.take number) p).isNone

end WikiPress
