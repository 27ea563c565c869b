import WikiPress.Text.CharSet
import WikiPress.Text.Ascii
import WikiPress.Text.Number

/-!
# Hosts that are numbers

A host may be an address of four bytes, written as one to four numbers, or an address of eight
groups between square brackets.  Both have one canonical form.

## Main definitions

* `Address.endsInNumber` : whether a host must be an address of four bytes.
* `Address.readFourBytes?` : the canonical form of such an address.
* `Address.readGroups?` : the canonical form of an address of eight groups.
-/

namespace WikiPress.Url.Address

open WikiPress.Text

/-! ### Four bytes -/

/-- The digits of a number with its base. -/
def baseOf : List Char → Nat × List Char
  | '0' :: 'x' :: digits => (16, digits)
  | '0' :: 'X' :: digits => (16, digits)
  | '0' :: c :: digits => (8, c :: digits)
  | digits => (10, digits)

/-- Whether a character is a digit in a base. -/
def isDigitIn (base : Nat) (c : Char) : Bool :=
  if base = 8 then '0' ≤ c && c ≤ '7'
  else if base = 10 then c.isDigit
  else Ascii.isHexDigit c

/-- The value of a part of an address, if it is a number. -/
def partValue? (s : List Char) : Option Nat :=
  if s.isEmpty then none
  else
    let (base, digits) := baseOf s
    if digits.all (isDigitIn base) then
      some (digits.foldl (fun n c => base * n + hexValue c) 0)
    else none

/-- The parts of a host between its dots, without an empty part at the end. -/
def parts (host : List Char) : List (List Char) :=
  let all := splitAtEach '.' host
  if 1 < all.length ∧ all.getLast? = some [] then all.dropLast else all

/-- Whether the last part of a host is a number, so that the host must be an address. -/
def endsInNumber (host : List Char) : Bool :=
  match (parts host).getLast? with
  | some last => !last.isEmpty && (last.all Char.isDigit || (partValue? last).isSome)
  | none => false

/-- The value of an address, whose last number fills the bytes that the others leave. -/
def fourBytes? (numbers : List Nat) : Option Nat :=
  match numbers.reverse with
  | [] => none
  | last :: before =>
    let before := before.reverse
    if 3 < before.length ∨ Nat.pow 256 (4 - before.length) ≤ last ∨ before.any (255 < ·) then none
    else some (before.foldl (fun n b => 256 * n + b) 0 * Nat.pow 256 (4 - before.length) + last)

/-- Four bytes between dots. -/
def writeFourBytes (n : Nat) : List Char :=
  let byte := fun k => Nat.toDigits 10 (n / Nat.pow 256 k % 256)
  byte 3 ++ '.' :: byte 2 ++ '.' :: byte 1 ++ '.' :: byte 0

/-- The canonical form of an address of four bytes. -/
def readFourBytes? (host : List Char) : Option (List Char) :=
  (((parts host).mapM partValue?).bind fourBytes?).map writeFourBytes

/-! ### Eight groups -/

/-- The value of a group of up to four hexadecimal digits. -/
def groupValue? (s : List Char) : Option Nat :=
  if 1 ≤ s.length ∧ s.length ≤ 4 ∧ s.all Ascii.isHexDigit then some (hexNumber s) else none

/-- The value of a byte in decimal digits without needless zeros. -/
def byteValue? (s : List Char) : Option Nat :=
  if s.isEmpty ∨ !s.all Char.isDigit ∨ (s.head? = some '0' ∧ 1 < s.length) then none
  else if digitsValue s ≤ 255 then some (digitsValue s)
  else none

/-- The two groups that four bytes between dots stand for. -/
def embedded? (s : List Char) : Option (List Nat) :=
  match (splitAtEach '.' s).mapM byteValue? with
  | some [a, b, c, d] => some [256 * a + b, 256 * c + d]
  | _ => none

/-- The groups of a list of pieces; the last piece may be four bytes if `dotted` is set. -/
def groupsOf? (dotted : Bool) : List (List Char) → Option (List Nat)
  | [] => some []
  | [last] =>
    if dotted ∧ last.contains '.' then embedded? last else (groupValue? last).map ([·])
  | piece :: rest =>
    (groupValue? piece).bind fun n => (groupsOf? dotted rest).map (n :: ·)

/-- The groups of a text between colons; an empty text has none. -/
def sideGroups? (dotted : Bool) (s : List Char) : Option (List Nat) :=
  if s.isEmpty then some [] else groupsOf? dotted (splitAtEach ':' s)

/-- The eight groups of an address, in which a double colon stands for at least one zero. -/
def groups? (s : List Char) : Option (List Nat) :=
  match splitAtFirst? [':', ':'] s with
  | none => (sideGroups? true s).filter (·.length = 8)
  | some (left, right) =>
    (sideGroups? false left).bind fun a =>
      (sideGroups? true right).bind fun b =>
        if a.length + b.length ≤ 7 then
          some (a ++ List.replicate (8 - a.length - b.length) 0 ++ b)
        else none

/-- The number of zeros at the start of a list. -/
def zeros (groups : List Nat) : Nat := (groups.takeWhile (· = 0)).length

/-- The place and the length of the first longest run of zeros, from a place on. -/
def longestZeros (place : Nat) : List Nat → Nat × Nat
  | [] => (place, 0)
  | g :: rest =>
    let here := zeros (g :: rest)
    let later := longestZeros (place + 1) rest
    if later.2 ≤ here then (place, here) else later

/-- Groups between colons. -/
def writeGroups : List Nat → List Char
  | [] => []
  | [g] => Nat.toDigits 16 g
  | g :: rest => Nat.toDigits 16 g ++ ':' :: writeGroups rest

/-- The canonical form of eight groups: a double colon stands for the first longest run of at least
two zeros. -/
def canonicalGroups (groups : List Nat) : List Char :=
  let (place, length) := longestZeros 0 groups
  if length < 2 then writeGroups groups
  else
    writeGroups (groups.take place) ++ ':' :: ':' :: writeGroups (groups.drop (place + length))

/-- The canonical form of an address of eight groups, with its brackets. -/
def readGroups? (s : List Char) : Option (List Char) :=
  (groups? s).map fun groups => '[' :: (canonicalGroups groups ++ [']'])

end WikiPress.Url.Address
