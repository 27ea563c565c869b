import WikiPress.Json.Reader
import WikiPress.Text.CharSet
import WikiPress.Text.Number
import WikiPress.Toml.Table

/-!
# Numbers and dates of TOML documents

Truth values, numbers, dates and times are written without quotes.  Digits may be grouped by
underscores, each of which stands between two digits.

## Main definitions

* `Toml.integer?`, `Toml.float?` : numbers.
* `Toml.isDate` : dates, times, and both together.
* `Toml.scalar?` : the value of a word.
-/

namespace WikiPress.Toml

open WikiPress.Text

/-! ### Numbers -/

/-- Digits without the underscores between them. -/
def digits? (isDigit : Char → Bool) (s : List Char) : Option (List Char) :=
  let groups := splitAtEach '_' s
  if groups.all fun g => !g.isEmpty && g.all isDigit then some groups.flatten else none

/-- Decimal digits without the underscores between them, with no zero in front of others. -/
def whole? (s : List Char) : Option (List Char) :=
  (digits? Char.isDigit s).bind fun ds =>
    match ds with
    | '0' :: _ :: _ => none
    | _ => some ds

/-- The sign and the rest of a number. -/
def splitSign : List Char → Bool × List Char
  | '-' :: s => (true, s)
  | '+' :: s => (false, s)
  | s => (false, s)

/-- An integer, if it has at most sixty-four bits. -/
def inRange? (n : Int) : Option Toml :=
  if -0x8000000000000000 ≤ n ∧ n ≤ mostWord then some (.number (.integer n)) else none

/-- The number of digits in some base. -/
def inBase? (base : Nat) (isDigit : Char → Bool) (s : List Char) : Option Toml :=
  (digits? isDigit s).bind fun ds => inRange? (ds.foldl (fun n c => base * n + hexValue c) 0 : Nat)

/-- An integer: in decimal digits with a sign, or in another base without one. -/
def integer? (s : List Char) : Option Toml :=
  match s with
  | '0' :: 'x' :: ds => inBase? 16 Ascii.isHexDigit ds
  | '0' :: 'o' :: ds => inBase? 8 (fun c => '0' ≤ c && c ≤ '7') ds
  | '0' :: 'b' :: ds => inBase? 2 (fun c => c = '0' || c = '1') ds
  | _ =>
    let (negative, s) := splitSign s
    (whole? s).bind fun ds =>
      let n : Int := digitsValue ds
      inRange? (if negative then -n else n)

/-- The exponent that stands behind the letter `e`. -/
def exponent? (s : List Char) : Option Int :=
  let (negative, s) := splitSign s
  (digits? Char.isDigit s).map fun ds =>
    let n : Int := digitsValue ds
    if negative then -n else n

/-- Whether a number in this notation has an exponent. -/
def isExponentMark (c : Char) : Bool := c = 'e' || c = 'E'

/-- A number with a fraction, an exponent, or both. -/
def float? (s : List Char) : Option Toml :=
  let (negative, s) := splitSign s
  if s = "inf".toList ∨ s = "nan".toList then some .notFinite
  else
    let mantissa := s.takeWhile fun c => !isExponentMark c
    (match s.drop mantissa.length with
      | [] => some none
      | _ :: rest => (exponent? rest).map some).bind fun exponent =>
      match splitAtEach '.' mantissa with
      | [whole] =>
        if exponent.isNone then none
        else (whole? whole).bind fun ds =>
          (Json.Reader.numberOf negative ds [] exponent).map .number
      | [whole, fraction] =>
        (whole? whole).bind fun ds =>
          (digits? Char.isDigit fraction).bind fun fs =>
            (Json.Reader.numberOf negative ds fs exponent).map .number
      | _ => none

/-! ### Dates -/

/-- The number of a group of digits, which has the given length and lies between two bounds. -/
def inBounds (length least most : Nat) (s : List Char) : Bool :=
  s.length = length && s.all Char.isDigit && least ≤ digitsValue s && digitsValue s ≤ most

/-- Whether a year has a day more. -/
def isLeapYear (year : Nat) : Bool :=
  year % 4 = 0 && (year % 100 ≠ 0 || year % 400 = 0)

/-- The number of days in a month. -/
def daysIn (year month : Nat) : Nat :=
  if month = 2 then (if isLeapYear year then 29 else 28)
  else if month = 4 ∨ month = 6 ∨ month = 9 ∨ month = 11 then 30
  else 31

/-- Whether a text is a day of the calendar. -/
def isDay (s : List Char) : Bool :=
  match splitAtEach '-' s with
  | [year, month, day] =>
    inBounds 4 0 9999 year && inBounds 2 1 12 month &&
      inBounds 2 1 (daysIn (digitsValue year) (digitsValue month)) day
  | _ => false

/-- Whether a text is an hour and a minute, perhaps with a second and parts of it. -/
def isTime (s : List Char) : Bool :=
  match splitAtEach ':' s with
  | [hour, minute] => inBounds 2 0 23 hour && inBounds 2 0 59 minute
  | [hour, minute, second] =>
    inBounds 2 0 23 hour && inBounds 2 0 59 minute &&
      (match splitAtEach '.' second with
        | [whole] => inBounds 2 0 60 whole
        | [whole, part] => inBounds 2 0 60 whole && !part.isEmpty && part.all Char.isDigit
        | _ => false)
  | _ => false

/-- Whether a text is the distance of a time zone, behind its sign. -/
def isOffset (s : List Char) : Bool :=
  match splitAtEach ':' s with
  | [hour, minute] => inBounds 2 0 23 hour && inBounds 2 0 59 minute
  | _ => false

/-- Whether a text is a time, perhaps with a time zone. -/
def isZonedTime (s : List Char) : Bool :=
  let time := s.takeWhile fun c => c.isDigit || c = ':' || c = '.'
  isTime time &&
    (match s.drop time.length with
      | [] => true
      | ['Z'] => true
      | ['z'] => true
      | '+' :: rest => isOffset rest
      | '-' :: rest => isOffset rest
      | _ => false)

/-- Whether a text is a date, a time, or a date with a time behind it. -/
def isDate (s : List Char) : Bool :=
  isTime s || isDay s ||
    (isDay (s.take 10) &&
      (match s.drop 10 with
        | 'T' :: rest => isZonedTime rest
        | 't' :: rest => isZonedTime rest
        | ' ' :: rest => isZonedTime rest
        | _ => false))

/-! ### Words -/

/-- The value of a word that is not quoted. -/
def scalar? (s : List Char) : Option Toml :=
  if s = "true".toList then some (.bool true)
  else if s = "false".toList then some (.bool false)
  else if isDate s then some (.date (String.ofList s))
  else (integer? s).or (float? s)

end WikiPress.Toml
