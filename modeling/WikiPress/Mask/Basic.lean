import WikiPress.Html.Escape
import WikiPress.Mask.Literal
import WikiPress.Rule

/-!
# Masks

What a rule claims in a source must not be taken apart by the markup around it.  Before the source
is read, every claimed span is therefore replaced by a placeholder, which the markup takes for plain
text: a number between two characters of a private area.  Afterwards the placeholders are replaced
by the tokens of their spans, by the claimed text, or by a plain form of it.

## Main definitions

* `Span` : a claimed piece of a source with its tokens.
* `Mask`, `Mask.ofText` : a source with its spans replaced.
* `Mask.segments` : a text cut into its placeholders and what is between them.
* `Mask.restore`, `Mask.restorePlain`, `Mask.restoreHtml`, `Mask.expand` : the four ways to replace
  the placeholders of a text.
-/

namespace WikiPress

open Text

/-- A claimed piece of a source. -/
structure Span where
  raw : List Char
  tokens : List Token
  deriving Repr, Inhabited

/-- A source with its claimed spans replaced by placeholders. -/
structure Mask where
  text : List Char
  spans : List Span := []
  deriving Repr, Inhabited

namespace Mask

/-- The character that begins a placeholder. -/
def opening : Char := '\uE000'

/-- The character that ends a placeholder. -/
def closing : Char := '\uE001'

/-- The placeholder of the span with a number. -/
def placeholder (number : Nat) : List Char :=
  opening :: (Nat.toDigits 10 number ++ [closing])

/-! ### Masking -/

/-- The bytes to be passed over at a place without a look at the rules. -/
def skip? (p : Place) : Option Nat := Literal.size? p.rest

/-- The steps of the rules over a line. -/
def steps (rules : List Rule) (line : List Char) : List Step :=
  scan skip? rules { text := line, startsLine := true, endsLine := true }

/-- A line from a byte position on with its claimed spans replaced; `number` is the number of the
next span. -/
def replaceFrom (line : List Char) (number start : Nat) : List Step → Mask
  | [] => ⟨(dropBytes? line start).getD [], []⟩
  | step :: rest =>
    match step.outcome with
    | .claimed tokens =>
      let stop := min step.stop (size line)
      let after := replaceFrom line (number + 1) stop rest
      let span : Span := ⟨(sliceBytes? line step.start stop).getD [], tokens⟩
      ⟨(sliceBytes? line start step.start).getD [] ++ placeholder number ++ after.text,
        span :: after.spans⟩
    | _ => replaceFrom line number start rest

/-- A line with its claimed spans replaced. -/
def ofLine (rules : List Rule) (number : Nat) (line : List Char) : Mask :=
  replaceFrom line number 0 (steps rules line)

/-- Lines with their claimed spans replaced, joined by line feeds. -/
def ofLines (rules : List Rule) (number : Nat) : List (List Char) → Mask
  | [] => ⟨[], []⟩
  | [line] => ofLine rules number line
  | line :: rest =>
    let first := ofLine rules number line
    let after := ofLines rules (number + first.spans.length) rest
    ⟨first.text ++ '\n' :: after.text, first.spans ++ after.spans⟩

/-- Whether rules are tried in a source at all: there must be one, and the source must have none of
the characters of placeholders. -/
def applies (rules : List Rule) (source : List Char) : Bool :=
  !rules.isEmpty && !source.any fun c => c = opening || c = closing

/-- A source with its claimed spans replaced. -/
def ofText (rules : List Rule) (source : List Char) : Mask :=
  if applies rules source then ofLines rules 0 (splitAtEach '\n' source) else ⟨source, []⟩

/-- The places in a source at which rules are tried. -/
def placesTried (rules : List Rule) (source : List Char) : List Place :=
  if applies rules source then
    (splitAtEach '\n' source).flatMap fun line =>
      triedPlaces { text := line, startsLine := true, endsLine := true } (steps rules line)
  else []

/-! ### Placeholders in a text -/

/-- A piece of a text: plain text or the placeholder of a span. -/
inductive Segment where
  | plain (text : List Char)
  | span (span : Span)
  deriving Repr, Inhabited

/-- The span whose placeholder begins a text, read after its first character, and what follows the
placeholder.  A number that no span has is the number of none, however large it is. -/
def readSpan? (m : Mask) (s : List Char) : Option (Span × List Char) :=
  let digits := s.takeWhile (· ≠ closing)
  match s.drop digits.length with
  | _ :: rest =>
    (readNumber? m.spans.length digits).bind fun number =>
      m.spans[number]?.map fun span => (span, rest)
  | [] => none

theorem length_lt_of_readSpan? {m : Mask} {s rest : List Char} {span : Span}
    (h : m.readSpan? s = some (span, rest)) : rest.length < s.length := by
  simp only [readSpan?] at h
  split at h
  · next heq =>
    have hd := congrArg List.length heq
    simp only [List.length_drop, List.length_cons] at hd
    simp only [Option.bind_eq_some_iff, Option.map_eq_some_iff] at h
    obtain ⟨_, _, _, _, heq'⟩ := h
    simp only [Prod.mk.injEq] at heq'
    obtain ⟨_, rfl⟩ := heq'
    omega
  · simp at h

/-- A segment for plain text, unless it is empty. -/
def plainSegment (s : List Char) : List Segment := if s.isEmpty then [] else [.plain s]

/-- A text cut at the placeholders of the spans.  It is also cut behind a character that begins no
such placeholder. -/
def segments (m : Mask) (s : List Char) : List Segment :=
  let before := s.takeWhile (· ≠ opening)
  match _h : s.dropWhile (· ≠ opening) with
  | [] => plainSegment before
  | c :: after =>
    match _hs : m.readSpan? after with
    | some (span, rest) => plainSegment before ++ .span span :: segments m rest
    | none => .plain (before ++ [c]) :: segments m after
  termination_by s.length
  decreasing_by
    all_goals
      have hl := (List.dropWhile_sublist (l := s) (· ≠ opening)).length_le
      rw [_h, List.length_cons] at hl
    · have := length_lt_of_readSpan? _hs
      omega
    · omega

/-- Whether a text may have placeholders at all: the mask has spans, and the character that begins
placeholders stands in the text. -/
def holdsPlaceholder (m : Mask) (s : List Char) : Bool :=
  !m.spans.isEmpty && s.contains opening

/-- A text with its placeholders replaced. -/
def replace (m : Mask) (f : Span → List Char) (s : List Char) : List Char :=
  if !m.holdsPlaceholder s then s
  else (m.segments s).flatMap fun
    | .plain t => t
    | .span span => f span

/-- The contents of the text tokens of a list, one after the other. -/
def textOf (ts : List Token) : List Char :=
  (ts.filter fun t => t.kind = .text).flatMap fun t => t.content.toList

/-- A text with the claimed text put back. -/
def restore (m : Mask) (s : List Char) : List Char := m.replace Span.raw s

/-- A text with the plain text of the spans put in. -/
def restorePlain (m : Mask) (s : List Char) : List Char :=
  m.replace (fun span => textOf span.tokens) s

/-- HTML with the claimed text put back, escaped. -/
def restoreHtml (m : Mask) (s : List Char) : List Char :=
  m.replace (fun span => Html.escapeText span.raw) s

/-- The tokens of one segment. -/
def segmentTokens : Segment → List Token
  | .plain t => [Token.ofText (String.ofList t)]
  | .span span => span.tokens

/-- The tokens that a text stands for. -/
def expand (m : Mask) (s : List Char) : List Token :=
  if !m.holdsPlaceholder s then [Token.ofText (String.ofList s)]
  else (m.segments s).flatMap segmentTokens

/-- `restore` on strings. -/
def restoreString (m : Mask) (s : String) : String := String.ofList (m.restore s.toList)

end Mask

end WikiPress
