import WikiPress.Json.Basic
import WikiPress.Text.CharSet
import WikiPress.Text.Number
import WikiPress.Text.Ascii

/-!
# Reading JSON

A text holds one value, perhaps with blanks around it.  Lists and objects may be nested to a depth
of 127, a number must not be too large for the range of double precision, and the escape of half a
surrogate pair is refused.

## Main definitions

* `Json.Reader.readText?`, `Json.Reader.readNumber?` : texts and numbers.
* `Json.read?` : the value that a text writes.
-/

namespace WikiPress.Json

open WikiPress.Text

namespace Reader

/-- The blanks between parts. -/
def isSpace (c : Char) : Bool := c = ' ' || c = '\n' || c = '\t' || c = '\r'

/-- What follows the blanks at the start of a text. -/
def skipSpace (s : List Char) : List Char := s.dropWhile isSpace

/-! ### Texts -/

/-- The code unit written by four hexadecimal digits, and what follows them. -/
def readUnit? : List Char → Option (Nat × List Char)
  | a :: b :: c :: d :: rest =>
    if [a, b, c, d].all Ascii.isHexDigit then some (hexNumber [a, b, c, d], rest) else none
  | _ => none

/-- The character of an escape, read after `\u`, and what follows it. -/
def readUnicode? (s : List Char) : Option (Char × List Char) :=
  match readUnit? s with
  | none => none
  | some (unit, rest) =>
    if 0xDC00 ≤ unit ∧ unit ≤ 0xDFFF then none
    else if 0xD800 ≤ unit ∧ unit ≤ 0xDBFF then
      match rest with
      | '\\' :: 'u' :: rest =>
        match readUnit? rest with
        | some (low, rest) =>
          if 0xDC00 ≤ low ∧ low ≤ 0xDFFF then
            some (Char.ofNat (0x10000 + 0x400 * (unit - 0xD800) + (low - 0xDC00)), rest)
          else none
        | none => none
      | _ => none
    else some (Char.ofNat unit, rest)

/-- The character of an escape, read after its backslash, and what follows it. -/
def readEscape? : List Char → Option (Char × List Char)
  | '\x22' :: rest => some ('\x22', rest)
  | '\\' :: rest => some ('\\', rest)
  | '/' :: rest => some ('/', rest)
  | 'b' :: rest => some ('\x08', rest)
  | 'f' :: rest => some ('\x0c', rest)
  | 'n' :: rest => some ('\n', rest)
  | 'r' :: rest => some ('\r', rest)
  | 't' :: rest => some ('\t', rest)
  | 'u' :: rest => readUnicode? rest
  | _ => none

/-- A text, read after its first quote, and what follows its last one.  `seen` is the text so far
in reverse, and `fuel` bounds the number of characters. -/
def readTextFrom? (fuel : Nat) (seen : List Char) (s : List Char) :
    Option (String × List Char) :=
  match fuel, s with
  | 0, _ => none
  | _, [] => none
  | fuel + 1, c :: rest =>
    if c = '\x22' then some (String.ofList seen.reverse, rest)
    else if c = '\\' then
      match readEscape? rest with
      | some (d, rest) => readTextFrom? fuel (d :: seen) rest
      | none => none
    else if c.toNat < 32 then none
    else readTextFrom? fuel (c :: seen) rest

/-- A text, read after its first quote, and what follows its last one. -/
def readText? (s : List Char) : Option (String × List Char) := readTextFrom? (s.length + 1) [] s

/-! ### Numbers -/

/-- The least number that rounds to no finite number of double precision. -/
def tooLarge : Nat := Nat.pow 2 1024 - Nat.pow 2 970

/-- Whether a number is below `tooLarge`. -/
def isFinite (digits : Nat) (exponent : Int) : Bool :=
  if digits = 0 then true
  else if 400 < exponent then false
  else match exponent with
    | .ofNat e => digits * Nat.pow 10 e < tooLarge
    | .negSucc e => (Nat.toDigits 10 digits).length < e || digits < tooLarge * Nat.pow 10 (e + 1)

/-- The digits of an integer part: a zero, or digits that do not begin with one. -/
def readWhole? (s : List Char) : Option (List Char × List Char) :=
  match s with
  | '0' :: rest =>
    if rest.head?.any Char.isDigit then none else some (['0'], rest)
  | _ =>
    let digits := s.takeWhile Char.isDigit
    if digits.isEmpty then none else some (digits, s.drop digits.length)

/-- The digits behind a point, if there is one. -/
def readFraction? : List Char → Option (List Char × List Char)
  | '.' :: rest =>
    let digits := rest.takeWhile Char.isDigit
    if digits.isEmpty then none else some (digits, rest.drop digits.length)
  | s => some ([], s)

/-- The exponent and what follows it, if there is one. -/
def readExponent? : List Char → Option (Option Int × List Char)
  | c :: rest =>
    if c = 'e' ∨ c = 'E' then
      let (negative, rest) := match rest with
        | '-' :: rest => (true, rest)
        | '+' :: rest => (false, rest)
        | _ => (false, rest)
      let digits := rest.takeWhile Char.isDigit
      if digits.isEmpty then none
      else
        let n : Int := digitsValue digits
        some (some (if negative then -n else n), rest.drop digits.length)
    else some (none, c :: rest)
  | [] => some (none, [])

/-- The number of a sign, digits before and behind the point, and an exponent. -/
def numberOf (negative : Bool) (whole fraction : List Char) (exponent : Option Int) :
    Option Number :=
  let n : Nat := digitsValue whole
  let isInteger := fraction.isEmpty && exponent.isNone
  if isInteger ∧ !negative ∧ n ≤ mostWord then some (.integer n)
  else if isInteger ∧ negative ∧ 0 < n ∧ n ≤ 0x8000000000000000 then some (.integer (-n))
  else
    let digits := digitsValue (whole ++ fraction)
    let exponent := exponent.getD 0 - fraction.length
    if isFinite digits exponent then some (.decimal negative digits exponent) else none

/-- The number at the start of a text, and what follows it. -/
def readNumber? (s : List Char) : Option (Number × List Char) :=
  let (negative, s) := match s with
    | '-' :: rest => (true, rest)
    | _ => (false, s)
  (readWhole? s).bind fun (whole, s) =>
    (readFraction? s).bind fun (fraction, s) =>
      (readExponent? s).bind fun (exponent, s) =>
        (numberOf negative whole fraction exponent).map fun n => (n, s)

/-! ### Values -/

/-- A value that is no list and no object, and what follows it. -/
def readScalar? (s : List Char) : Option (Json × List Char) :=
  match s with
  | 'n' :: 'u' :: 'l' :: 'l' :: rest => some (.null, rest)
  | 't' :: 'r' :: 'u' :: 'e' :: rest => some (.bool true, rest)
  | 'f' :: 'a' :: 'l' :: 's' :: 'e' :: rest => some (.bool false, rest)
  | '\x22' :: rest => (readText? rest).map fun (t, rest) => (.text t, rest)
  | _ => (readNumber? s).map fun (n, rest) => (.number n, rest)

mutual

/-- The value at the start of a text, and what follows it.  `depth` is the number of levels that
may still be opened, and `fuel` bounds the number of parts. -/
def readValue? (fuel depth : Nat) (s : List Char) : Option (Json × List Char) :=
  match fuel with
  | 0 => none
  | fuel + 1 =>
    match skipSpace s with
    | '[' :: rest =>
      if depth = 0 then none
      else match skipSpace rest with
        | ']' :: rest => some (.list [], rest)
        | rest => (readValues? fuel (depth - 1) rest).map fun (vs, rest) => (.list vs, rest)
    | '\x7b' :: rest =>
      if depth = 0 then none
      else match skipSpace rest with
        | '\x7d' :: rest => some (.object [], rest)
        | rest => (readMembers? fuel (depth - 1) rest).map fun (ms, rest) => (ofMembers ms, rest)
    | s => readScalar? s

/-- The values of a list up to its closing bracket, and what follows it. -/
def readValues? (fuel depth : Nat) (s : List Char) : Option (List Json × List Char) :=
  match fuel with
  | 0 => none
  | fuel + 1 =>
    match readValue? fuel depth s with
    | none => none
    | some (v, rest) =>
      match skipSpace rest with
      | ',' :: rest => (readValues? fuel depth rest).map fun (vs, rest) => (v :: vs, rest)
      | ']' :: rest => some ([v], rest)
      | _ => none

/-- The members of an object up to its closing brace, and what follows it. -/
def readMembers? (fuel depth : Nat) (s : List Char) :
    Option (List (String × Json) × List Char) :=
  match fuel with
  | 0 => none
  | fuel + 1 =>
    match skipSpace s with
    | '\x22' :: rest =>
      match readText? rest with
      | none => none
      | some (key, rest) =>
        match skipSpace rest with
        | ':' :: rest =>
          match readValue? fuel depth rest with
          | none => none
          | some (v, rest) =>
            match skipSpace rest with
            | ',' :: rest =>
              (readMembers? fuel depth rest).map fun (ms, rest) => ((key, v) :: ms, rest)
            | '\x7d' :: rest => some ([(key, v)], rest)
            | _ => none
        | _ => none
    | _ => none

end

/-- The number of levels that lists and objects may be nested. -/
def mostDepth : Nat := 127

end Reader

/-- The value that a text writes. -/
def read? (s : List Char) : Option Json :=
  match Reader.readValue? (2 * s.length + 2) Reader.mostDepth s with
  | some (v, rest) => if (Reader.skipSpace rest).isEmpty then some v else none
  | none => none

end WikiPress.Json
