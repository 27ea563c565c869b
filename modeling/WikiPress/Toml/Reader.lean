import WikiPress.Toml.Scalar

/-!
# Reading TOML

A document is read line by line.  Values in brackets may go over several lines, with comments in
between, and may be nested to a depth of 80.

## Main definitions

* `Toml.Reader.readText?` : texts in one of the four kinds of quotes.
* `Toml.Reader.readKey?` : keys with points between their parts.
* `Toml.Reader.readValue?` : values.
* `Toml.read?` : the table of a document.
-/

namespace WikiPress.Toml

open WikiPress.Text

namespace Reader

/-! ### Blanks, comments and line ends -/

/-- The blanks inside a line. -/
def isBlank (c : Char) : Bool := c = ' ' || c = '\t'

/-- What follows the blanks at the start of a text. -/
def skipBlanks (s : List Char) : List Char := s.dropWhile isBlank

/-- The characters that may stand in comments and between quotes: all but controls, and tabs. -/
def isPlain (c : Char) : Bool := c = '\t' || !Ascii.isControl c

/-- What follows a line end. -/
def dropLineEnd? : List Char → Option (List Char)
  | '\n' :: rest => some rest
  | '\r' :: '\n' :: rest => some rest
  | _ => none

/-- What follows the blanks and the comment at the start of a text. -/
def skipComment (s : List Char) : List Char :=
  match skipBlanks s with
  | '#' :: rest => rest.dropWhile isPlain
  | rest => rest

/-- What follows the end of a line, in front of which there may be blanks and a comment. -/
def endLine? (s : List Char) : Option (List Char) :=
  match skipComment s with
  | [] => some []
  | rest => dropLineEnd? rest

/-- What follows all lines that hold nothing but what `skip` drops; `fuel` bounds their number. -/
def skipLines (skip : List Char → List Char) (fuel : Nat) (s : List Char) : List Char :=
  match fuel with
  | 0 => s
  | fuel + 1 =>
    match dropLineEnd? (skip s) with
    | some rest => skipLines skip fuel rest
    | none => skip s

/-- What follows blanks, comments and line ends. -/
def skipSpace (s : List Char) : List Char := skipLines skipComment (s.length + 1) s

/-! ### Texts -/

/-- The character of a code point that is written in `count` hexadecimal digits. -/
def readCode? (count : Nat) (s : List Char) : Option (Char × List Char) :=
  let ds := s.take count
  let n := hexNumber ds
  if ds.length = count ∧ ds.all Ascii.isHexDigit then
    if n.isValidChar then some (Char.ofNat n, s.drop count) else none
  else none

/-- The character of an escape, read after its backslash, and what follows it. -/
def readEscape? : List Char → Option (Char × List Char)
  | '\x22' :: rest => some ('\x22', rest)
  | '\\' :: rest => some ('\\', rest)
  | 'b' :: rest => some ('\x08', rest)
  | 'e' :: rest => some ('\x1b', rest)
  | 'f' :: rest => some ('\x0c', rest)
  | 'n' :: rest => some ('\n', rest)
  | 'r' :: rest => some ('\r', rest)
  | 't' :: rest => some ('\t', rest)
  | 'x' :: rest => readCode? 2 rest
  | 'u' :: rest => readCode? 4 rest
  | 'U' :: rest => readCode? 8 rest
  | _ => none

/-- What follows a line end that is escaped, read after the backslash: the blanks of the next lines
do not count. -/
def dropEscapedLine? (s : List Char) : Option (List Char) :=
  (dropLineEnd? (skipBlanks s)).map fun rest => skipLines skipBlanks (rest.length + 1) rest

/-- The text up to its closing quote, and what follows the quote.  In text that is `escaped` a
backslash begins an escape.  `seen` is the text so far in reverse, and `fuel` bounds the number of
characters. -/
def readLineText? (quote : Char) (escaped : Bool) (fuel : Nat) (seen s : List Char) :
    Option (String × List Char) :=
  match fuel, s with
  | 0, _ => none
  | _, [] => none
  | fuel + 1, c :: rest =>
    if c = quote then some (String.ofList seen.reverse, rest)
    else if escaped ∧ c = '\\' then
      match readEscape? rest with
      | some (d, rest) => readLineText? quote escaped fuel (d :: seen) rest
      | none => none
    else if isPlain c then readLineText? quote escaped fuel (c :: seen) rest
    else none

/-- The text up to its three closing quotes, in front of which two more may stand, and what follows
them.  The line ends in it are written as line feeds. -/
def readLongText? (quote : Char) (escaped : Bool) (fuel : Nat) (seen s : List Char) :
    Option (String × List Char) :=
  match fuel, s with
  | 0, _ => none
  | _, [] => none
  | fuel + 1, c :: rest =>
    if c = quote then
      let count := min 5 (s.takeWhile (· = quote)).length
      if 3 ≤ count then
        some (String.ofList (List.replicate (count - 3) quote ++ seen).reverse, s.drop count)
      else readLongText? quote escaped fuel (c :: seen) rest
    else if escaped ∧ c = '\\' then
      match readEscape? rest, dropEscapedLine? rest with
      | some (d, rest), _ => readLongText? quote escaped fuel (d :: seen) rest
      | none, some rest => readLongText? quote escaped fuel seen rest
      | none, none => none
    else match dropLineEnd? s with
      | some rest => readLongText? quote escaped fuel ('\n' :: seen) rest
      | none => if isPlain c then readLongText? quote escaped fuel (c :: seen) rest else none

/-- A text that begins with a quote of the given kind, and what follows it.  A line end behind three
opening quotes does not count. -/
def readQuoted? (quote : Char) (escaped : Bool) (s : List Char) : Option (String × List Char) :=
  match dropText? [quote, quote, quote] s with
  | some rest =>
    readLongText? quote escaped (rest.length + 1) [] ((dropLineEnd? rest).getD rest)
  | none => readLineText? quote escaped s.length [] (s.drop 1)

/-- The text in quotes at the start of a text, and what follows it. -/
def readText? (s : List Char) : Option (String × List Char) :=
  match s with
  | '\x22' :: _ => readQuoted? '\x22' true s
  | '\x27' :: _ => readQuoted? '\x27' false s
  | _ => none

/-! ### Keys -/

/-- The characters of keys without quotes. -/
def isKeyChar (c : Char) : Bool := Ascii.isAlphanumeric c || c = '-' || c = '_'

/-- One part of a key, and what follows it. -/
def readKeyPart? (s : List Char) : Option (String × List Char) :=
  match s with
  | '\x22' :: rest => readLineText? '\x22' true s.length [] rest
  | '\x27' :: rest => readLineText? '\x27' false s.length [] rest
  | _ =>
    let name := s.takeWhile isKeyChar
    if name.isEmpty then none else some (String.ofList name, s.drop name.length)

/-- A key with blanks around its parts, and what follows it; `fuel` bounds the number of parts. -/
def readKeyFrom? (fuel : Nat) (parents : List String) (s : List Char) :
    Option (Key × List Char) :=
  match fuel with
  | 0 => none
  | fuel + 1 =>
    match readKeyPart? (skipBlanks s) with
    | none => none
    | some (name, rest) =>
      match skipBlanks rest with
      | '.' :: rest => readKeyFrom? fuel (parents ++ [name]) rest
      | rest => some (⟨parents, name⟩, rest)

/-- A key with blanks around its parts, and what follows it. -/
def readKey? (s : List Char) : Option (Key × List Char) := readKeyFrom? (s.length + 1) [] s

/-! ### Values -/

/-- The characters of words without quotes. -/
def isWordChar (c : Char) : Bool :=
  Ascii.isAlphanumeric c || c = '+' || c = '-' || c = '.' || c = ':' || c = '_'

/-- A word: a time may stand behind its date, with one blank between them. -/
def takeWord (s : List Char) : List Char :=
  let word := s.takeWhile isWordChar
  match s.drop word.length with
  | ' ' :: c :: rest =>
    if isDay word && c.isDigit then word ++ ' ' :: (c :: rest).takeWhile isWordChar else word
  | _ => word

/-- A value without brackets, and what follows it. -/
def readScalar? (s : List Char) : Option (Toml × List Char) :=
  if s.head? = some '\x22' ∨ s.head? = some '\x27' then
    (readText? s).map fun (t, rest) => (.text t, rest)
  else
    let word := takeWord s
    (scalar? word).map fun v => (v, s.drop word.length)

mutual

/-- The value at the start of a text, and what follows it.  `depth` is the number of brackets that
may still be opened, and `fuel` bounds the number of parts. -/
def readValue? (fuel depth : Nat) (s : List Char) : Option (Toml × List Char) :=
  match fuel with
  | 0 => none
  | fuel + 1 =>
    match s with
    | '[' :: rest =>
      if depth = 0 then none
      else (readItems? fuel (depth - 1) [] (skipSpace rest)).map fun (vs, rest) =>
        (.list false vs, rest)
    | '\x7b' :: rest =>
      if depth = 0 then none
      else (readPairs? fuel (depth - 1) [] (skipSpace rest)).map fun (es, rest) =>
        (.table .braces es, rest)
    | _ => readScalar? s

/-- The items of a list up to its closing bracket, behind those that were `seen`. -/
def readItems? (fuel depth : Nat) (seen : List Toml) (s : List Char) :
    Option (List Toml × List Char) :=
  match fuel with
  | 0 => none
  | fuel + 1 =>
    match s with
    | ']' :: rest => some (seen, rest)
    | _ =>
      match readValue? fuel depth s with
      | none => none
      | some (v, rest) =>
        match skipSpace rest with
        | ',' :: rest => readItems? fuel depth (seen ++ [v]) (skipSpace rest)
        | ']' :: rest => some (seen ++ [v], rest)
        | _ => none

/-- The entries of a table up to its closing brace, behind those that were `seen`. -/
def readPairs? (fuel depth : Nat) (seen : Entries) (s : List Char) :
    Option (Entries × List Char) :=
  match fuel with
  | 0 => none
  | fuel + 1 =>
    match s with
    | '\x7d' :: rest => some (seen, rest)
    | _ =>
      match readKey? s with
      | some (key, '=' :: rest) =>
        match readValue? fuel depth (skipBlanks rest) with
        | none => none
        | some (v, rest) =>
          match put? key v .braces seen with
          | none => none
          | some seen =>
            match skipSpace rest with
            | ',' :: rest => readPairs? fuel depth seen (skipSpace rest)
            | '\x7d' :: rest => some (seen, rest)
            | _ => none
      | _ => none

end

/-- The number of brackets that values may be nested. -/
def mostDepth : Nat := 80

/-! ### Documents -/

/-- The header or the key and value at the start of a line, and what follows it. -/
def readExpression? (s : List Char) : Option (Expression × List Char) :=
  match s with
  | '[' :: '[' :: rest =>
    match readKey? rest with
    | some (key, ']' :: ']' :: rest) => some (.element key, rest)
    | _ => none
  | '[' :: rest =>
    match readKey? rest with
    | some (key, ']' :: rest) => some (.table key, rest)
    | _ => none
  | _ =>
    match readKey? s with
    | some (key, '=' :: rest) =>
      (readValue? (2 * s.length + 2) mostDepth (skipBlanks rest)).map fun (v, rest) =>
        (.pair key v, rest)
    | _ => none

/-- The lines of a document; `fuel` bounds their number. -/
def readExpressions? (fuel : Nat) (s : List Char) : Option (List Expression) :=
  match fuel with
  | 0 => none
  | fuel + 1 =>
    match skipSpace s with
    | [] => some []
    | s =>
      match readExpression? s with
      | none => none
      | some (e, rest) =>
        match endLine? rest with
        | some rest => (readExpressions? fuel rest).map (e :: ·)
        | none => none

end Reader

/-- The table of a document, which may begin with a byte order mark. -/
def read? (s : List Char) : Option Entries :=
  let s := if s.head? = some '\ufeff' then s.drop 1 else s
  (Reader.readExpressions? (s.length + 1) s).bind addAll?

end WikiPress.Toml
