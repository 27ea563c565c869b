import WikiPress.Rule

/-!
# Rules among inline tokens

The text of a paragraph comes as tokens for text, escapes and breaks, mixed with other tokens.
Rules are tried in every maximal run of the former.  The run is written out as one text, in which
an escape stands as it was written and a break is a line feed, and what a rule claims in this text
is replaced by the tokens of the rule.

## Main definitions

* `scanText` : the text that a token stands for in its run.
* `Run`, `Run.ofTokens` : a run of tokens with their places in its text.
* `Run.splice` : the tokens of a run after the rules are applied.
* `spliceRules` : a list of tokens after the rules are applied.
-/

namespace WikiPress

open Text

/-- The text that a token stands for in its run. -/
def scanText (t : Token) : List Char :=
  match t.kind with
  | .text => t.content.toList
  | .textSpecial => t.markup.toList
  | _ => ['\n']

/-- A token with its place in the text of its run. -/
structure Piece where
  token : Token
  start : Nat
  stop : Nat
  deriving Repr

/-- A maximal run of plain tokens. -/
structure Run where
  pieces : List Piece
  text : List Char
  /-- The run is at the start of the tokens. -/
  startsLine : Bool
  /-- The run is at the end of the tokens. -/
  endsLine : Bool
  deriving Repr

namespace Run

/-- Places tokens one after the other from a byte position on. -/
def placeFrom (start : Nat) : List Token → List Piece
  | [] => []
  | t :: rest =>
    let stop := start + size (scanText t)
    ⟨t, start, stop⟩ :: placeFrom stop rest

/-- The run of a list of plain tokens. -/
def ofTokens (startsLine endsLine : Bool) (ts : List Token) : Run :=
  ⟨placeFrom 0 ts, ts.flatMap scanText, startsLine, endsLine⟩

/-- The start of the text of a run. -/
def place (r : Run) : Place :=
  { text := r.text, startsLine := r.startsLine, endsLine := r.endsLine }

/-- Whether a position lies inside an escape, which no claim may begin in. -/
def insideEscape (r : Run) (position : Nat) : Bool :=
  r.pieces.any fun piece =>
    piece.token.kind = .textSpecial && piece.start < position && position < piece.stop

/-- The bytes to be skipped at a place inside an escape. -/
def skip? (r : Run) (p : Place) : Option Nat :=
  if r.insideEscape p.position then some p.characterSize else none

/-- The steps of the rules over the run. -/
def steps (rules : List Rule) (r : Run) : List Step := scan r.skip? rules r.place

/-- What is left of a piece between two positions: the part of a text, and any other token if all
of it lies between them. -/
def cut (text : List Char) (start stop : Nat) (piece : Piece) : List Token :=
  if stop ≤ start then []
  else if piece.stop ≤ start ∨ stop ≤ piece.start then []
  else if piece.token.kind = .text then
    match sliceBytes? text (max piece.start start) (min piece.stop stop) with
    | some (c :: s) => [Token.ofText (String.ofList (c :: s))]
    | _ => []
  else if start ≤ piece.start ∧ piece.stop ≤ stop then [piece.token]
  else []

/-- The tokens of a run between two positions. -/
def between (r : Run) (start stop : Nat) : List Token := r.pieces.flatMap (cut r.text start stop)

/-- The tokens from a position on, with what is claimed in the steps replaced. -/
def spliceFrom (r : Run) (start : Nat) : List Step → List Token
  | [] => r.between start (size r.text)
  | step :: rest =>
    match step.outcome with
    | .claimed tokens =>
      r.between start step.start ++ tokens ++ spliceFrom r (min step.stop (size r.text)) rest
    | _ => spliceFrom r start rest

/-- Whether a step claims text. -/
def isClaim (step : Step) : Bool :=
  match step.outcome with
  | .claimed _ => true
  | _ => false

/-- The tokens of a run after the rules are applied; a run in which nothing is claimed stays as it
is. -/
def splice (rules : List Rule) (r : Run) : List Token :=
  let steps := r.steps rules
  if steps.any isClaim then spliceFrom r 0 steps else r.pieces.map Piece.token

end Run

/-- The parts of a list of tokens: runs of plain tokens, and other tokens.  `atStart` tells
whether the list is at the start of the tokens. -/
def splitRuns (atStart : Bool) : List Token → List (Token ⊕ Run)
  | [] => []
  | t :: rest =>
    if t.kind.isPlain then
      let run := t :: rest.takeWhile fun t => t.kind.isPlain
      let after := rest.dropWhile fun t => t.kind.isPlain
      .inr (Run.ofTokens atStart after.isEmpty run) :: splitRuns false after
    else .inl t :: splitRuns false rest
  termination_by ts => ts.length
  decreasing_by
    · have := (List.dropWhile_sublist (l := rest) fun t => t.kind.isPlain).length_le
      simp only [List.length_cons]
      omega
    · simp

/-- The tokens after the rules are applied. -/
def spliceRules (rules : List Rule) (ts : List Token) : List Token :=
  (splitRuns true ts).flatMap fun part =>
    match part with
    | .inl t => [t]
    | .inr run => run.splice rules

/-- The places in the runs of a list of tokens at which rules are tried. -/
def placesTried (rules : List Rule) (ts : List Token) : List Place :=
  (splitRuns true ts).flatMap fun part =>
    match part with
    | .inl _ => []
    | .inr run => triedPlaces run.place (run.steps rules)

end WikiPress
