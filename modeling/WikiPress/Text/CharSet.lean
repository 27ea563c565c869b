/-!
# Sets of characters written as ranges

Properties of characters are kept as short texts of hexadecimal ranges.  `CharSet.parse` reads
such a text once, and `CharSet.contains` searches the ranges by halving.

## Main definitions

* `CharSet` : ascending, disjoint ranges of code points.
* `CharSet.contains` : membership of a character.
-/

namespace WikiPress.Text

/-- The value of a hexadecimal digit, and zero for any other character. -/
def hexValue (c : Char) : Nat :=
  if '0' ≤ c ∧ c ≤ '9' then c.toNat - 48
  else if 'a' ≤ c ∧ c ≤ 'f' then c.toNat - 87
  else if 'A' ≤ c ∧ c ≤ 'F' then c.toNat - 55
  else 0

/-- The number written by a list of hexadecimal digits. -/
def hexNumber (cs : List Char) : Nat :=
  cs.foldl (fun n c => 16 * n + hexValue c) 0

/-- The pieces of a text between the occurrences of one character, empty pieces included. -/
def splitAtEach (sep : Char) : List Char → List (List Char)
  | [] => [[]]
  | c :: rest =>
    if c = sep then [] :: splitAtEach sep rest
    else match splitAtEach sep rest with
      | [] => [[c]]
      | piece :: pieces => (c :: piece) :: pieces

/-- The entries of a table that is written as one text, with blanks and line feeds between them. -/
def tableEntries (table : String) : List (List Char) :=
  (splitAtEach ' ' (table.toList.map fun c => if c = '\n' then ' ' else c)).filter (!·.isEmpty)

/-- A set of characters: ascending, disjoint ranges of code points with both ends included. -/
structure CharSet where
  ranges : Array (Nat × Nat)

namespace CharSet

/-- Reads ranges `a` or `a-b` in hexadecimal, separated by blanks. -/
def parse (text : String) : CharSet where
  ranges :=
    ((tableEntries text).filterMap fun piece =>
      match splitAtEach '-' piece with
      | [[]] => none
      | [a] => some (hexNumber a, hexNumber a)
      | a :: b :: _ => some (hexNumber a, hexNumber b)
      | [] => none).toArray

/-- Searches `n` among the ranges numbered from `lo` up to `hi`; `steps` bounds the halvings. -/
def search (ranges : Array (Nat × Nat)) (n : Nat) : Nat → Nat → Nat → Bool
  | 0, _, _ => false
  | steps + 1, lo, hi =>
    if lo < hi then
      let mid := (lo + hi) / 2
      match ranges[mid]? with
      | none => false
      | some (a, b) =>
        if n < a then search ranges n steps lo mid
        else if b < n then search ranges n steps (mid + 1) hi
        else true
    else false

/-- Whether the character lies in one of the ranges. -/
def contains (s : CharSet) (c : Char) : Bool :=
  search s.ranges c.toNat (s.ranges.size + 1) 0 s.ranges.size

end CharSet

end WikiPress.Text
