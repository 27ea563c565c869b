import WikiPress.Text.Ascii

/-!
# Punycode

Labels of host names with other characters than ASCII are written in ASCII: first the ASCII
characters, then the others in ascending order, each as the distance from the one before in a number
system whose digits change with the distances so far.

## Main definitions

* `Punycode.adapt` : the bias after a distance.
* `Punycode.encode` : a label in ASCII.
* `Punycode.decode?` : the label that a text in ASCII stands for.
-/

namespace WikiPress.Url.Punycode

/-- The digit with a value below 36. -/
def digitOf (value : Nat) : Char :=
  if value < 26 then Char.ofNat (97 + value) else Char.ofNat (22 + value)

/-- The value of a digit. -/
def valueOf? (c : Char) : Option Nat :=
  let n := c.toNat
  if 97 ≤ n ∧ n ≤ 122 then some (n - 97)
  else if 65 ≤ n ∧ n ≤ 90 then some (n - 65)
  else if 48 ≤ n ∧ n ≤ 57 then some (n - 22)
  else none

/-- The threshold of the digit that stands at `36 * k`. -/
def threshold (bias k : Nat) : Nat :=
  if 36 * k ≤ bias then 1 else if bias + 26 ≤ 36 * k then 26 else 36 * k - bias

theorem threshold_pos (bias k : Nat) : 0 < threshold bias k := by
  unfold threshold
  repeat' split
  all_goals omega

/-- A distance divided until it is small, and what the divisions add to the bias. -/
def shrink (distance added : Nat) : Nat × Nat :=
  if 455 < distance then shrink (distance / 35) (added + 36) else (distance, added)
  termination_by distance
  decreasing_by exact Nat.div_lt_self (by omega) (by omega)

/-- The bias after a distance; `count` is the number of characters so far. -/
def adapt (distance count : Nat) (first : Bool) : Nat :=
  let halved := if first then distance / 700 else distance / 2
  let (small, added) := shrink (halved + halved / count) 0
  added + 36 * small / (small + 38)

/-! ### Encoding -/

/-- The digits of a distance, from the digit at `36 * k` on. -/
def digitsOf (bias k distance : Nat) : List Char :=
  let t := threshold bias k
  if distance < t then [digitOf distance]
  else
    digitOf (t + (distance - t) % (36 - t)) :: digitsOf bias (k + 1) ((distance - t) / (36 - t))
  termination_by distance
  decreasing_by
    have h1 := threshold_pos bias k
    have h2 := Nat.div_le_self (distance - threshold bias k) (36 - threshold bias k)
    omega

/-- The state of an encoder: what is written, the distance since the last character, the bias, and
the number of characters written. -/
structure Encoder where
  written : List Char
  distance : Nat := 0
  bias : Nat := 72
  count : Nat
  deriving Repr

/-- One character of the label, seen while the character `n` is being written. -/
def Encoder.see (basic n : Nat) (e : Encoder) (c : Char) : Encoder :=
  if c.toNat < n then { e with distance := e.distance + 1 }
  else if c.toNat = n then
    { written := e.written ++ digitsOf e.bias 1 e.distance, distance := 0,
      bias := adapt e.distance (e.count + 1) (e.count = basic), count := e.count + 1 }
  else e

/-- The encoder after all places of the characters of a list, which ascends from `n` on. -/
def Encoder.run (label : List Char) (basic : Nat) (e : Encoder) (n : Nat) : List Nat → Encoder
  | [] => e
  | m :: rest =>
    let e := { e with distance := e.distance + (m - n) * (e.count + 1) }
    let e := label.foldl (Encoder.see basic m) e
    Encoder.run label basic { e with distance := e.distance + 1 } (m + 1) rest

/-- A number put in its place among ascending numbers. -/
def insertOnce (n : Nat) : List Nat → List Nat
  | [] => [n]
  | m :: rest =>
    if n < m then n :: m :: rest else if n = m then m :: rest else m :: insertOnce n rest

/-- Whether a character is ASCII. -/
def isBasic (c : Char) : Bool := c.toNat < 128

/-- A label in ASCII. -/
def encode (label : List Char) : List Char :=
  let basic := label.filter isBasic
  let others := ((label.filter fun c => !isBasic c).map Char.toNat).foldr insertOnce []
  let start : Encoder :=
    { written := if basic.isEmpty then [] else basic ++ ['-'], count := basic.length }
  (start.run label basic.length 128 others).written

/-! ### Decoding -/

/-- The distance written at the start of a text, and what follows it. -/
def readDistance? (bias k weight distance : Nat) : List Char → Option (Nat × List Char)
  | [] => none
  | c :: rest =>
    match valueOf? c with
    | none => none
    | some value =>
      let t := threshold bias k
      let distance := distance + value * weight
      if value < t then some (distance, rest)
      else readDistance? bias (k + 1) (weight * (36 - t)) distance rest

/-- The label with its other characters put in; `place` and `n` are those of the last one. -/
def insertAll? (fuel : Nat) (label : List Char) (bias n place : Nat) (s : List Char) :
    Option (List Char) :=
  match fuel, s with
  | _, [] => some label
  | 0, _ => none
  | fuel + 1, s =>
    match readDistance? bias 1 1 0 s with
    | none => none
    | some (distance, rest) =>
      let count := label.length + 1
      let first := decide (place = 0)
      let total := place + distance
      let n := n + total / count
      let place := total % count
      if n < 0x110000 ∧ !(0xD800 ≤ n ∧ n ≤ 0xDFFF) then
        insertAll? fuel (label.insertIdx place (Char.ofNat n))
          (adapt distance count first) n (place + 1) rest
      else none

/-- The text before and after the last hyphen; without a hyphen there is nothing before it. -/
def splitAtLastHyphen (s : List Char) : List Char × List Char :=
  let after := (s.reverse.takeWhile (· ≠ '-')).reverse
  (s.take (s.length - after.length - 1), after)

/-- The label that a text in ASCII stands for. -/
def decode? (s : List Char) : Option (List Char) :=
  let (basic, digits) := splitAtLastHyphen s
  if basic.all isBasic then insertAll? (digits.length + 1) basic 72 128 0 digits else none

end WikiPress.Url.Punycode
