import WikiPress.Json.Basic

/-!
# Writing JSON

Values are written on one line, without blanks.

## Main definitions

* `Json.writeText` : a text between double quotes.
* `Json.write` : a value.
-/

namespace WikiPress.Json

/-- A hexadecimal digit. -/
def hexDigit (n : Nat) : Char := if n < 10 then Char.ofNat (48 + n) else Char.ofNat (87 + n)

/-- One character of a text. -/
def writeChar (c : Char) : List Char :=
  if c = '\x22' then ['\\', '\x22']
  else if c = '\\' then ['\\', '\\']
  else if c = '\n' then ['\\', 'n']
  else if c = '\r' then ['\\', 'r']
  else if c = '\t' then ['\\', 't']
  else if c.toNat < 32 then
    ['\\', 'u', '0', '0', hexDigit (c.toNat / 16), hexDigit (c.toNat % 16)]
  else [c]

/-- A text between double quotes. -/
def writeText (s : String) : List Char := '\x22' :: (s.toList.flatMap writeChar ++ ['\x22'])

/-- A natural number in decimal digits. -/
def writeNat (n : Nat) : List Char := Nat.toDigits 10 n

/-- An integer. -/
def writeInt : Int → List Char
  | .ofNat n => writeNat n
  | .negSucc n => '-' :: writeNat (n + 1)

/-- A number. -/
def writeNumber : Number → List Char
  | .integer n => writeInt n
  | .decimal negative digits exponent =>
    (if negative then ['-'] else []) ++ writeNat digits ++ 'e' :: writeInt exponent

mutual

/-- A value. -/
def write : Json → List Char
  | .null => ['n', 'u', 'l', 'l']
  | .bool true => ['t', 'r', 'u', 'e']
  | .bool false => ['f', 'a', 'l', 's', 'e']
  | .number n => writeNumber n
  | .text s => writeText s
  | .list values => '[' :: (writeValues values ++ [']'])
  | .object members => '\x7b' :: (writeMembers members ++ ['\x7d'])

/-- The values of a list. -/
def writeValues : List Json → List Char
  | [] => []
  | v :: rest => write v ++ (if rest.isEmpty then [] else [',']) ++ writeValues rest

/-- The members of an object. -/
def writeMembers : List (String × Json) → List Char
  | [] => []
  | (k, v) :: rest =>
    writeText k ++ ':' :: (write v ++ (if rest.isEmpty then [] else [','])) ++ writeMembers rest

end

end WikiPress.Json
