/-!
# Classes of ASCII characters

The markup grammar, addresses and names of elements are made of ASCII characters.  The classes
here know nothing of other characters: outside ASCII each of them is false and each case map is
the identity.

## Main definitions

* `isPunctuation` : the ASCII punctuation that a backslash can escape.
* `isAlpha`, `isAlphanumeric`, `isHexDigit`, `isControl`
* `lower`, `equalsIgnoringCase`, `startsWithIgnoringCase?`
-/

namespace WikiPress.Ascii

/-- ASCII punctuation. -/
def isPunctuation (c : Char) : Bool :=
  let n := c.toNat
  (33 ≤ n && n ≤ 47) || (58 ≤ n && n ≤ 64) || (91 ≤ n && n ≤ 96) || (123 ≤ n && n ≤ 126)

/-- ASCII letters. -/
def isAlpha (c : Char) : Bool := c.isAlpha

/-- ASCII letters and digits. -/
def isAlphanumeric (c : Char) : Bool := c.isAlphanum

/-- Hexadecimal digits. -/
def isHexDigit (c : Char) : Bool :=
  c.isDigit || ('a' ≤ c && c ≤ 'f') || ('A' ≤ c && c ≤ 'F')

/-- ASCII control characters. -/
def isControl (c : Char) : Bool := c.toNat < 32 || c.toNat = 127

/-- Lower-case letters for the upper-case ASCII letters. -/
def lower (c : Char) : Char := c.toLower

/-- A text with its ASCII letters in lower case. -/
def lowerText (s : List Char) : List Char := s.map lower

/-- Whether two texts agree up to the case of ASCII letters. -/
def equalsIgnoringCase (s t : List Char) : Bool := lowerText s == lowerText t

/-- What follows `start` at the beginning of a text, up to the case of ASCII letters. -/
def dropIgnoringCase? : List Char → List Char → Option (List Char)
  | [], rest => some rest
  | _ :: _, [] => none
  | a :: start, c :: rest =>
    if lower a = lower c then dropIgnoringCase? start rest else none

/-- Whether a text begins with `start`, up to the case of ASCII letters. -/
def startsWithIgnoringCase (start s : List Char) : Bool := (dropIgnoringCase? start s).isSome

end WikiPress.Ascii

namespace WikiPress.Text

/-- What follows `start` at the beginning of a text. -/
def dropText? : List Char → List Char → Option (List Char)
  | [], rest => some rest
  | _ :: _, [] => none
  | a :: start, c :: rest => if a = c then dropText? start rest else none

/-- Whether a text begins with `start`. -/
def startsWith (start s : List Char) : Bool := (dropText? start s).isSome

/-- The text before and after the first occurrence of `part`. -/
def splitAtFirst? (part : List Char) : List Char → Option (List Char × List Char)
  | [] => (dropText? part []).map fun rest => ([], rest)
  | c :: s =>
    match dropText? part (c :: s) with
    | some rest => some ([], rest)
    | none => (splitAtFirst? part s).map fun (before, rest) => (c :: before, rest)

theorem dropText?_eq_some {start s rest : List Char} :
    dropText? start s = some rest ↔ s = start ++ rest := by
  induction start generalizing s with
  | nil => simp [dropText?, eq_comm]
  | cons a start ih =>
    cases s with
    | nil => simp [dropText?]
    | cons c s =>
      by_cases h : a = c
      · subst h; simp [dropText?, ih]
      · simp [dropText?, h, Ne.symm h]

end WikiPress.Text
