/-!
# Numbers in texts

Unsigned numbers are written in decimal digits, perhaps after a plus sign, and have an upper limit.

## Main definitions

* `digitsValue` : the value of decimal digits.
* `readNumber?` : the number that a whole text writes.
-/

namespace WikiPress.Text

/-- The value of a list of decimal digits. -/
def digitsValue (digits : List Char) : Nat :=
  digits.foldl (fun n c => 10 * n + (c.toNat - 48)) 0

/-- The number that a text writes, if it is at most `most`. -/
def readNumber? (most : Nat) (s : List Char) : Option Nat :=
  let digits := match s with
    | '+' :: rest => rest
    | _ => s
  if digits.isEmpty || !digits.all Char.isDigit then none
  else if digitsValue digits ≤ most then some (digitsValue digits)
  else none

/-- The largest number of sixty-four bits. -/
def mostWord : Nat := 0xFFFFFFFFFFFFFFFF

end WikiPress.Text
