/-!
# Blank characters

Two notions of blank are used.  `isBlank` is the Unicode property of white space; the ends of
documents, headings and slugs are trimmed by it.  `isAsciiBlank` is the smaller set that the
grammar of the markup itself knows.

## Main definitions

* `isBlank`, `isAsciiBlank`
* `trimStart`, `trimEnd`, `trim` : a text without the blanks at its ends.
* `trimWith` : the same for any class of characters.
* `words` : the maximal runs of characters that are not blank.
-/

namespace WikiPress.Text

/-- White space as Unicode defines it. -/
def isBlank (c : Char) : Bool :=
  let n := c.toNat
  (9 ≤ n && n ≤ 13) || n = 0x20 || n = 0x85 || n = 0xA0 || n = 0x1680 ||
    (0x2000 ≤ n && n ≤ 0x200A) || n = 0x2028 || n = 0x2029 || n = 0x202F || n = 0x205F ||
    n = 0x3000

/-- Blanks of the markup grammar: space, tab, line feed, vertical tab, form feed and carriage
return. -/
def isAsciiBlank (c : Char) : Bool :=
  c = ' ' || (9 ≤ c.toNat && c.toNat ≤ 13)

/-- The blanks that may stand inside a line of markup. -/
def isSpaceOrTab (c : Char) : Bool := c = ' ' || c = '\t'

/-- The characters that end a line. -/
def isLineEnd (c : Char) : Bool := c = '\n' || c = '\r'

/-! ### Trimming -/

/-- The text without the characters of a class at its end. -/
def dropEndWhile (p : Char → Bool) (s : List Char) : List Char :=
  (s.reverse.dropWhile p).reverse

/-- The text without the characters of a class at its two ends. -/
def trimWith (p : Char → Bool) (s : List Char) : List Char :=
  dropEndWhile p (s.dropWhile p)

/-- The text without blanks at its start. -/
def trimStart (s : List Char) : List Char := s.dropWhile isBlank

/-- The text without blanks at its end. -/
def trimEnd (s : List Char) : List Char := dropEndWhile isBlank s

/-- The text without blanks at its ends. -/
def trim (s : List Char) : List Char := trimWith isBlank s

theorem trim_eq (s : List Char) : trim s = trimEnd (trimStart s) := rfl

/-- The first run of characters that are not blank. -/
def firstWord (s : List Char) : List Char :=
  (trimStart s).takeWhile fun c => !isBlank c

end WikiPress.Text
