import WikiPress.Library
import WikiPress.Pattern.Basic
import WikiPress.Text.Number

/-!
# Reading regular expressions

The notation has alternatives, groups, flags, repetitions, classes with set operations, anchors
and escapes.  There is no looking ahead or behind, no reference to a group and no class by script.
A text that is not in the notation is refused as a whole.

## Main definitions

* `Flags` : the flags that are in force at a place of the pattern.
* `Pattern.ofText?` : the pattern that a text writes.
-/

namespace WikiPress

open Text

namespace Pattern

/-- The flags that are in force at a place of the pattern. -/
structure Flags where
  ignoreCase : Bool := false
  /-- The line anchors hold at every line. -/
  multiLine : Bool := false
  /-- The dot matches line feeds. -/
  dotAll : Bool := false
  /-- Repetitions are lazy unless they are marked as greedy. -/
  swapGreed : Bool := false
  /-- Blanks and comments in the pattern do not count. -/
  extended : Bool := false
  deriving Repr, Inhabited

/-- A single character as a pattern. -/
def ofChar (flags : Flags) (c : Char) : Pattern := .one flags.ignoreCase (.range c c)

/-- The characters that are no line feeds, or all characters. -/
def dot (flags : Flags) : Pattern :=
  .one false (if flags.dotAll then .complement .none else .complement (.range '\n' '\n'))

/-! ### Escapes -/

/-- What an escape stands for. -/
inductive Escape where
  | char (c : Char)
  | set (s : ClassSet)
  | anchor (a : Anchor)
  deriving Repr

/-- The long names of categories and groups of categories, next to the short ones. -/
def categoryNames : List (List String × List Category) :=
  [(["l", "letter"], Category.letters),
    (["lu", "uppercaseletter"], [.uppercaseLetter]),
    (["ll", "lowercaseletter"], [.lowercaseLetter]),
    (["lt", "titlecaseletter"], [.titlecaseLetter]),
    (["lc", "casedletter"], [.uppercaseLetter, .lowercaseLetter, .titlecaseLetter]),
    (["lm", "modifierletter"], [.modifierLetter]),
    (["lo", "otherletter"], [.otherLetter]),
    (["m", "mark", "combiningmark"], Category.marks),
    (["mn", "nonspacingmark"], [.nonspacingMark]),
    (["mc", "spacingmark"], [.spacingMark]),
    (["me", "enclosingmark"], [.enclosingMark]),
    (["n", "number"], Category.numbers),
    (["nd", "decimalnumber", "digit"], [.decimalNumber]),
    (["nl", "letternumber"], [.letterNumber]),
    (["no", "othernumber"], [.otherNumber]),
    (["p", "punctuation", "punct"], Category.punctuation),
    (["pc", "connectorpunctuation"], [.connectorPunctuation]),
    (["pd", "dashpunctuation"], [.dashPunctuation]),
    (["ps", "openpunctuation"], [.openPunctuation]),
    (["pe", "closepunctuation"], [.closePunctuation]),
    (["pi", "initialpunctuation"], [.initialPunctuation]),
    (["pf", "finalpunctuation"], [.finalPunctuation]),
    (["po", "otherpunctuation"], [.otherPunctuation]),
    (["s", "symbol"], Category.symbols),
    (["sm", "mathsymbol"], [.mathSymbol]),
    (["sc", "currencysymbol"], [.currencySymbol]),
    (["sk", "modifiersymbol"], [.modifierSymbol]),
    (["so", "othersymbol"], [.otherSymbol]),
    (["z", "separator"], Category.separators),
    (["zs", "spaceseparator"], [.spaceSeparator]),
    (["zl", "lineseparator"], [.lineSeparator]),
    (["zp", "paragraphseparator"], [.paragraphSeparator]),
    (["cc", "control", "cntrl"], [.control]),
    (["cf", "format"], [.format]),
    (["co", "privateuse"], [.privateUse])]

/-- The class of characters with the property of the given name. -/
def propertyClass? (name : List Char) : Option ClassSet :=
  let name := Ascii.lowerText (name.filter fun c => !(isBlank c || c = '_' || c = '-'))
  let name := if 2 < name.length then (dropText? ['i', 's'] name).getD name else name
  let name := ((dropText? "gc=".toList name).or
    (dropText? "generalcategory=".toList name)).getD name
  let key := String.ofList name
  if key = "any" then some (.complement .none)
  else if key = "assigned" then some .assigned
  else if key = "unassigned" ∨ key = "cn" then some (.complement .assigned)
  else if key = "ascii" then some (.range (Char.ofNat 0) (Char.ofNat 127))
  else if key = "whitespace" ∨ key = "wspace" ∨ key = "space" then some .blank
  else if key = "alphabetic" ∨ key = "alpha" then
    some (.category (.letterNumber :: Category.letters))
  else if key = "uppercase" ∨ key = "upper" then some (.category [.uppercaseLetter])
  else if key = "lowercase" ∨ key = "lower" then some (.category [.lowercaseLetter])
  else (categoryNames.find? fun entry => entry.1.contains key).map fun entry =>
    .category entry.2

/-- A class or its complement. -/
def complementIf (negated : Bool) (s : ClassSet) : ClassSet := if negated then .complement s else s

/-- A property after the letter of its escape. -/
def readProperty? (negated : Bool) (s : List Char) : Option (ClassSet × List Char) :=
  match s with
  | '\x7b' :: rest =>
    let name := rest.takeWhile (· ≠ '\x7d')
    match rest.drop name.length with
    | _ :: rest =>
      let (negated, name) := match name with
        | '^' :: name => (!negated, name)
        | _ => (negated, name)
      (propertyClass? name).map fun s => (complementIf negated s, rest)
    | [] => none
  | c :: rest => (propertyClass? [c]).map fun s => (complementIf negated s, rest)
  | [] => none

/-- The character with a hexadecimal number. -/
def charOfHex? (digits : List Char) : Option Char :=
  let n := hexNumber digits
  if digits.isEmpty || !digits.all Ascii.isHexDigit || 0x110000 ≤ n || (0xD800 ≤ n && n < 0xE000)
  then none
  else some (Char.ofNat n)

/-- A character by its number: in braces, or with exactly `length` digits. -/
def readHex? (length : Nat) (s : List Char) : Option (Char × List Char) :=
  match s with
  | '\x7b' :: rest =>
    let digits := rest.takeWhile (· ≠ '\x7d')
    match rest.drop digits.length with
    | _ :: rest => (charOfHex? digits).map fun c => (c, rest)
    | [] => none
  | _ =>
    if s.length < length then none
    else (charOfHex? (s.take length)).map fun c => (c, s.drop length)

/-- A word boundary, which may name its kind in braces. -/
def readBoundary? (s : List Char) : Option (Anchor × List Char) :=
  match s with
  | '\x7b' :: rest =>
    let name := rest.takeWhile (· ≠ '\x7d')
    let rest := (rest.drop name.length).drop 1
    match String.ofList name with
    | "start" => some (.wordStart, rest)
    | "end" => some (.wordEnd, rest)
    | "start-half" => some (.wordStartHalf, rest)
    | "end-half" => some (.wordEndHalf, rest)
    | _ => none
  | _ => some (.wordBoundary, s)

/-- The escape after a backslash. -/
def readEscape? : List Char → Option (Escape × List Char)
  | [] => none
  | c :: rest =>
    match c with
    | 'd' => some (.set (.category [.decimalNumber]), rest)
    | 'D' => some (.set (.complement (.category [.decimalNumber])), rest)
    | 's' => some (.set .blank, rest)
    | 'S' => some (.set (.complement .blank), rest)
    | 'w' => some (.set .word, rest)
    | 'W' => some (.set (.complement .word), rest)
    | 'p' => (readProperty? false rest).map fun (s, rest) => (.set s, rest)
    | 'P' => (readProperty? true rest).map fun (s, rest) => (.set s, rest)
    | 'x' => (readHex? 2 rest).map fun (c, rest) => (.char c, rest)
    | 'u' => (readHex? 4 rest).map fun (c, rest) => (.char c, rest)
    | 'U' => (readHex? 8 rest).map fun (c, rest) => (.char c, rest)
    | 'a' => some (.char (Char.ofNat 7), rest)
    | 'f' => some (.char (Char.ofNat 12), rest)
    | 't' => some (.char '\t', rest)
    | 'n' => some (.char '\n', rest)
    | 'r' => some (.char '\r', rest)
    | 'v' => some (.char (Char.ofNat 11), rest)
    | 'A' => some (.anchor .textStart, rest)
    | 'z' => some (.anchor .textEnd, rest)
    | 'b' => (readBoundary? rest).map fun (a, rest) => (.anchor a, rest)
    | 'B' => some (.anchor .noWordBoundary, rest)
    | '<' => some (.anchor .wordStart, rest)
    | '>' => some (.anchor .wordEnd, rest)
    | _ =>
      if c.toNat < 128 ∧ !Ascii.isAlphanumeric c ∧ !Ascii.isControl c ∨ c = ' ' then
        some (.char c, rest)
      else none

/-! ### Classes -/

/-- The classes with names in colons. -/
def namedClass? (name : List Char) : Option ClassSet :=
  let range (a b : Char) : ClassSet := .range a b
  let alpha : ClassSet := .union (range 'a' 'z') (range 'A' 'Z')
  let digit := range '0' '9'
  let alnum : ClassSet := .union alpha digit
  match String.ofList name with
  | "alnum" => some alnum
  | "alpha" => some alpha
  | "ascii" => some (range (Char.ofNat 0) (Char.ofNat 127))
  | "blank" => some (.union (range ' ' ' ') (range '\t' '\t'))
  | "cntrl" => some (.union (range (Char.ofNat 0) (Char.ofNat 31)) (range '\x7f' '\x7f'))
  | "digit" => some digit
  | "graph" => some (range '!' '~')
  | "lower" => some (range 'a' 'z')
  | "print" => some (range ' ' '~')
  | "punct" => some (.difference (range '!' '~') alnum)
  | "space" => some (.union (range '\t' '\r') (range ' ' ' '))
  | "upper" => some (range 'A' 'Z')
  | "word" => some (.union alnum (range '_' '_'))
  | "xdigit" => some (.union digit (.union (range 'a' 'f') (range 'A' 'F')))
  | _ => none

/-- A class named in colons, read after its bracket. -/
def readNamedClass? (s : List Char) : Option (ClassSet × List Char) :=
  match s with
  | ':' :: rest =>
    let (negated, rest) := match rest with
      | '^' :: rest => (true, rest)
      | _ => (false, rest)
    let name := rest.takeWhile Ascii.isAlpha
    match rest.drop name.length with
    | ':' :: ']' :: rest => (namedClass? name).map fun s => (complementIf negated s, rest)
    | _ => none
  | _ => none

/-- The blanks and comments at the start of a pattern, dropped if they do not count. -/
def dropIgnored (flags : Flags) : Nat → List Char → List Char
  | 0, s => s
  | fuel + 1, s =>
    if !flags.extended then s
    else match s with
      | '#' :: rest => dropIgnored flags fuel (rest.dropWhile (· ≠ '\n'))
      | c :: rest => if isBlank c then dropIgnored flags fuel rest else s
      | [] => s

/-- One member of a class: a character or a class. -/
def readMember? (s : List Char) : Option ((Char ⊕ ClassSet) × List Char) :=
  match s with
  | '\\' :: rest =>
    match readEscape? rest with
    | some (.char c, rest) => some (.inl c, rest)
    | some (.set s, rest) => some (.inr s, rest)
    | _ => none
  | c :: rest => some (.inl c, rest)
  | [] => none

/-- A member of a class, or a range of characters. -/
def readRange? (s : List Char) : Option (ClassSet × List Char) :=
  match readMember? s with
  | none => none
  | some (first, rest) =>
    let alone : ClassSet := match first with
      | .inl c => .range c c
      | .inr s => s
    match rest with
    | '-' :: next =>
      if next.head? = some ']' ∨ next.head? = some '-' ∨ next.isEmpty then some (alone, rest)
      else match first, readMember? next with
        | .inl a, some (.inl b, rest) => if a ≤ b then some (.range a b, rest) else none
        | _, _ => none
    | _ => some (alone, rest)

/-- The operations between classes. -/
inductive SetOperation where
  | intersection | difference | symmetricDifference

/-- The operation at the start of a text. -/
def readSetOperation? : List Char → Option (SetOperation × List Char)
  | '&' :: '&' :: rest => some (.intersection, rest)
  | '-' :: '-' :: rest => some (.difference, rest)
  | '~' :: '~' :: rest => some (.symmetricDifference, rest)
  | _ => none

/-- Applies the operation that waits for its right side. -/
def combine (left : Option (ClassSet × SetOperation)) (s : ClassSet) : ClassSet :=
  match left with
  | none => s
  | some (t, .intersection) => .intersection t s
  | some (t, .difference) => .difference t s
  | some (t, .symmetricDifference) => .symmetricDifference t s

/-- The rest of a class after some of its members.  `left` is the left side of an operation that
waits for its right side, `members` is the union of the members so far. -/
def readClass? (negated : Bool) (left : Option (ClassSet × SetOperation)) (members : ClassSet) :
    Nat → List Char → Option (ClassSet × List Char)
  | 0, _ => none
  | _ + 1, [] => none
  | fuel + 1, s@(c :: rest) =>
    if c = ']' then some (complementIf negated (combine left members), rest)
    else match readSetOperation? s with
      | some (operation, rest) =>
        readClass? negated (some (combine left members, operation)) .none fuel rest
      | none =>
        if c = '[' then
          match readNamedClass? rest with
          | some (s, rest) => readClass? negated left (.union members s) fuel rest
          | none =>
            let (inner, rest) := match rest with
              | '^' :: rest => (true, rest)
              | _ => (false, rest)
            let (first, rest) := openingMembers rest
            match readClass? inner none first fuel rest with
            | some (s, rest) => readClass? negated left (.union members s) fuel rest
            | none => none
        else match readRange? s with
          | some (s, rest) => readClass? negated left (.union members s) fuel rest
          | none => none
where
  /-- Hyphens at the start of a class, or a closing bracket there, are members of it. -/
  openingMembers (s : List Char) : ClassSet × List Char :=
    let hyphens := s.takeWhile (· = '-')
    match hyphens.isEmpty, s.drop hyphens.length with
    | true, ']' :: rest => (.range ']' ']', rest)
    | true, rest => (.none, rest)
    | false, rest => (.range '-' '-', rest)

/-- A class, read after its bracket. -/
def readWholeClass? (s : List Char) : Option (ClassSet × List Char) :=
  let (negated, s) := match s with
    | '^' :: rest => (true, rest)
    | _ => (false, s)
  let (first, s) := readClass?.openingMembers s
  readClass? negated none first (s.length + 1) s

/-! ### Repetitions and groups -/

/-- The number at the start of a text, with blanks around it. -/
def readCount? (s : List Char) : Option (Nat × List Char) :=
  let s := s.dropWhile isBlank
  let digits := s.takeWhile Char.isDigit
  if digits.isEmpty ∨ 0xFFFFFFFF < digitsValue digits then none
  else some (digitsValue digits, (s.drop digits.length).dropWhile isBlank)

/-- The bounds of a repetition in braces, read after the first brace. -/
def readBounds? (s : List Char) : Option (Nat × Option Nat × List Char) :=
  match readCount? s with
  | some (least, '\x7d' :: rest) => some (least, some least, rest)
  | some (least, ',' :: rest) =>
    match rest.dropWhile isBlank with
    | '\x7d' :: rest => some (least, none, rest)
    | rest =>
      match readCount? rest with
      | some (most, '\x7d' :: rest) =>
        if least ≤ most then some (least, some most, rest) else none
      | _ => none
  | _ => none

/-- The repetition at the start of a text: its bounds, and whether it is marked as lazy. -/
def readTimes? (s : List Char) : Option (Nat × Option Nat × Bool × List Char) :=
  let bounds := match s with
    | '*' :: rest => some (0, none, rest)
    | '+' :: rest => some (1, none, rest)
    | '?' :: rest => some (0, some 1, rest)
    | '\x7b' :: rest => readBounds? rest
    | _ => none
  bounds.map fun (least, most, rest) =>
    match rest with
    | '?' :: rest => (least, most, true, rest)
    | _ => (least, most, false, rest)

/-- Flags up to a colon or a closing parenthesis.  The result tells whether a colon ends them. -/
def readFlags? (flags : Flags) (value any : Bool) : List Char → Option (Flags × Bool × List Char)
  | ')' :: rest => if any then some (flags, false, rest) else none
  | ':' :: rest => if value || any then some (flags, true, rest) else none
  | '-' :: rest => if value then readFlags? flags false false rest else none
  | 'i' :: rest => readFlags? { flags with ignoreCase := value } value true rest
  | 'm' :: rest => readFlags? { flags with multiLine := value } value true rest
  | 's' :: rest => readFlags? { flags with dotAll := value } value true rest
  | 'U' :: rest => readFlags? { flags with swapGreed := value } value true rest
  | 'x' :: rest => readFlags? { flags with extended := value } value true rest
  | 'u' :: rest => readFlags? flags value true rest
  | 'R' :: rest => readFlags? flags value true rest
  | _ => none

/-- The name of a group, which ends at a closing bracket, and what follows that. -/
def splitGroupName? (s : List Char) : Option (List Char × List Char) :=
  let isNameChar (c : Char) : Bool :=
    ClassSet.isWordChar c || c = '.' || c = '[' || c = ']'
  let name := s.takeWhile isNameChar
  match s.drop name.length with
  | '>' :: rest =>
    if name.head?.any fun c => c = '_' || (ClassSet.isWordChar c && !c.isDigit) then
      some (name, rest)
    else none
  | _ => none

/-- What a group begins with, after its parenthesis. -/
inductive GroupStart where
  /-- Flags for the rest of the enclosing group. -/
  | flags (f : Flags) (rest : List Char)
  /-- A group with the flags in force inside it, and with its name if it has one. -/
  | group (f : Flags) (name? : Option (List Char)) (rest : List Char)

/-- The beginning of a group. -/
def readGroupStart? (flags : Flags) (s : List Char) : Option GroupStart :=
  match s with
  | '?' :: 'P' :: '<' :: rest =>
    (splitGroupName? rest).map fun (name, rest) => .group flags (some name) rest
  | '?' :: '<' :: rest =>
    (splitGroupName? rest).map fun (name, rest) => .group flags (some name) rest
  | '?' :: rest =>
    (readFlags? flags true false rest).map fun (f, colon, rest) =>
      if colon then .group f none rest else .flags f rest
  | _ => some (.group flags none s)

/-- Patterns one after the other, given in reverse. -/
def sequence (items : List Pattern) : Pattern :=
  items.foldl (fun p item => match p with
    | .empty => item
    | _ => .seq item p) .empty

/-- Alternatives, given in reverse. -/
def alternatives (last : Pattern) (branches : List Pattern) : Pattern :=
  branches.foldl (fun p branch => .alt branch p) last

/-- Reads a group up to its closing parenthesis or the end of the pattern, which is left.
`branches` are the finished alternatives and `items` the parts of the current one, both in
reverse; `repeatable` tells whether a repetition may follow.  No name is given to two groups, and
`names` are those that are taken. -/
def readGroup? (flags : Flags) (branches : List Pattern) (items : List Pattern)
    (repeatable : Bool) (names : List (List Char)) :
    Nat → List Char → Option (Pattern × List (List Char) × List Char)
  | 0, _ => none
  | fuel + 1, s =>
    let done (rest : List Char) : Option (Pattern × List (List Char) × List Char) :=
      some (alternatives (sequence items) branches, names, rest)
    let item (p : Pattern) (rest : List Char) : Option (Pattern × List (List Char) × List Char) :=
      readGroup? flags branches (p :: items) true names fuel rest
    match dropIgnored flags s.length s with
    | [] => done []
    | ')' :: rest => done (')' :: rest)
    | '|' :: rest => readGroup? flags (sequence items :: branches) [] false names fuel rest
    | '(' :: rest =>
      match readGroupStart? flags rest with
      | none => none
      | some (.flags f rest) => readGroup? f branches items false names fuel rest
      | some (.group f name? rest) =>
        if name?.any names.contains then none
        else match readGroup? f [] [] false (name?.toList ++ names) fuel rest with
          | some (p, names, ')' :: rest) =>
            readGroup? flags branches (p :: items) true names fuel rest
          | _ => none
    | '[' :: rest =>
      (readWholeClass? rest).bind fun (s, rest) => item (.one flags.ignoreCase s) rest
    | '.' :: rest => item (dot flags) rest
    | '^' :: rest => item (.anchor (if flags.multiLine then .lineStart else .textStart)) rest
    | '$' :: rest => item (.anchor (if flags.multiLine then .lineEnd else .textEnd)) rest
    | '\\' :: rest =>
      match readEscape? rest with
      | none => none
      | some (.char c, rest) => item (ofChar flags c) rest
      | some (.set s, rest) => item (.one flags.ignoreCase s) rest
      | some (.anchor a, rest) => item (.anchor a) rest
    | c :: rest =>
      if c = '*' ∨ c = '+' ∨ c = '?' ∨ c = '\x7b' then
        match repeatable, items, readTimes? (c :: rest) with
        | true, p :: items, some (least, most, isLazy, rest) =>
          readGroup? flags branches (.times (isLazy == flags.swapGreed) least most p :: items) true
            names fuel rest
        | _, _, _ => none
      else item (ofChar flags c) rest

/-- The pattern that a text writes, unless it is too heavy. -/
def ofText? (s : List Char) : Option Pattern :=
  match readGroup? {} [] [] false [] (s.length + 1) s with
  | some (p, _, []) => if p.weight ≤ weightLimit then some p else none
  | _ => none

end Pattern

instance : PatternLibrary := ⟨fun s => (Pattern.ofText? s).map Pattern.removeAll⟩

end WikiPress
