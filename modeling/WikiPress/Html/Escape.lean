/-!
# Escaping of text in HTML

Text between tags and values between double quotes are written with references for the characters
that would end them.

## Main definitions

* `escape` : text and attribute values, with references for `&`, `<`, `>` and the double quote.
* `escapeText` : text between tags, where a double quote may stand.
* `escapeAddress` : an address in an attribute, with bytes that addresses do not have written as a
  percent sign and two digits.
-/

namespace WikiPress.Html

/-- One character of an attribute value or text. -/
def escapeChar (c : Char) : List Char :=
  if c = '&' then ['&', 'a', 'm', 'p', ';']
  else if c = '<' then ['&', 'l', 't', ';']
  else if c = '>' then ['&', 'g', 't', ';']
  else if c = '\x22' then ['&', 'q', 'u', 'o', 't', ';']
  else [c]

/-- Text for attribute values between double quotes and for text between tags. -/
def escape (s : List Char) : List Char := s.flatMap escapeChar

/-- One character of a text between tags. -/
def escapeTextChar (c : Char) : List Char :=
  if c = '\x22' then [c] else escapeChar c

/-- Text between tags. -/
def escapeText (s : List Char) : List Char := s.flatMap escapeTextChar

/-- The characters that addresses are written with. -/
def isAddressChar (c : Char) : Bool :=
  c.isAlphanum || "-_.+!*(),%#@?=;:/$~".toList.contains c

/-- A hexadecimal digit in upper case. -/
def upperHexDigit (n : Nat) : Char := if n < 10 then Char.ofNat (48 + n) else Char.ofNat (55 + n)

/-- A byte as a percent sign and two digits. -/
def percentByte (b : UInt8) : List Char :=
  ['%', upperHexDigit (b.toNat / 16), upperHexDigit (b.toNat % 16)]

/-- One character of an address. -/
def escapeAddressChar (c : Char) : List Char :=
  if isAddressChar c then [c]
  else if c = '&' then ['&', 'a', 'm', 'p', ';']
  else if c = '\x27' then ['&', '#', 'x', '2', '7', ';']
  else (String.utf8EncodeChar c).flatMap percentByte

/-- An address in an attribute. -/
def escapeAddress (s : List Char) : List Char := s.flatMap escapeAddressChar

end WikiPress.Html
