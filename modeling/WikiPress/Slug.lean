import WikiPress.Library
import WikiPress.Text.Ascii
import WikiPress.Text.Blank
import WikiPress.Text.Case

/-!
# Slugs

A slug is a short form of a text for addresses and anchors.  Some symbols are spelled out, accents
of Latin letters are dropped, other characters outside a small set are removed, and every run of
blanks becomes one replacement.

## Main definitions

* `SlugOptions`, `SlugOptions.lowercase` : how a text is turned into a slug.
* `Slugger`, `Slugger.ofOptions?`, `Slugger.ofOptionsLossy` : options with their pattern read.
* `Slugger.slug` : the slug of a text.
* `Slugger.lowercase` : the usual options, with slugs in lower case.
-/

namespace WikiPress

open Text

/-- How a text is turned into a slug. -/
structure SlugOptions where
  /-- What stands for a run of blanks. -/
  replacement : String := "-"
  /-- A pattern of what is removed, in place of the usual set. -/
  remove : Option String := none
  /-- The slug is put into lower case. -/
  lower : Bool := false
  /-- Everything but ASCII letters, digits and blanks is removed. -/
  strict : Bool := false
  /-- Blanks at the two ends are dropped. -/
  trim : Bool := true
  deriving DecidableEq, Repr, Inhabited

/-- The usual options, with a slug in lower case. -/
def SlugOptions.lowercase : SlugOptions := { lower := true }

namespace Slug

/-- The characters that are spelled out or written without their accent. -/
def spellings : List (List Char × String) :=
  [(['$'], "dollar"), (['%'], "percent"), (['&'], "and"), (['<'], "less"), (['>'], "greater"),
    (['|'], "or"), (['¢'], "cent"), (['£'], "pound"), (['¤'], "currency"), (['¥'], "yen"),
    (['©'], "(c)"), (['®'], "(r)"), (['™'], "tm"), (['€'], "euro"), (['∑'], "sum"),
    (['∞'], "infinity"), (['♥'], "love"),
    (['À', 'Á', 'Â', 'Ã', 'Ä', 'Å'], "A"), (['à', 'á', 'â', 'ã', 'ä', 'å'], "a"),
    (['Æ'], "AE"), (['æ'], "ae"), (['Ç'], "C"), (['ç'], "c"),
    (['È', 'É', 'Ê', 'Ë'], "E"), (['è', 'é', 'ê', 'ë'], "e"),
    (['Ì', 'Í', 'Î', 'Ï'], "I"), (['ì', 'í', 'î', 'ï'], "i"),
    (['Ð'], "D"), (['ð'], "d"), (['Ñ'], "N"), (['ñ'], "n"),
    (['Ò', 'Ó', 'Ô', 'Õ', 'Ö', 'Ø'], "O"), (['ò', 'ó', 'ô', 'õ', 'ö', 'ø'], "o"),
    (['Œ'], "OE"), (['œ'], "oe"),
    (['Ù', 'Ú', 'Û', 'Ü'], "U"), (['ù', 'ú', 'û', 'ü'], "u"),
    (['Ý', 'Ÿ'], "Y"), (['ý', 'ÿ'], "y"), (['Þ'], "TH"), (['þ'], "th"), (['ß'], "ss"),
    (['Ł'], "L"), (['ł'], "l"), (['Š'], "S"), (['š'], "s"), (['Ž'], "Z"), (['ž'], "z")]

/-- A character spelled out, or the character itself. -/
def spell (c : Char) : List Char :=
  match spellings.find? fun entry => entry.1.contains c with
  | some (_, spelled) => spelled.toList
  | none => [c]

/-- The characters that the usual options keep. -/
def isKept (c : Char) : Bool :=
  Ascii.isAlphanumeric c || isBlank c || "_$*+~.()'\x22!-:@".toList.contains c

/-- Every run of blanks replaced; `inBlanks` tells that a run has been replaced just before. -/
def joinBlanks (replacement : List Char) (inBlanks : Bool) : List Char → List Char
  | [] => []
  | c :: rest =>
    if isBlank c then
      (if inBlanks then [] else replacement) ++ joinBlanks replacement true rest
    else c :: joinBlanks replacement false rest

end Slug

/-- Options with their pattern read. -/
structure Slugger where
  options : SlugOptions := {}
  /-- What takes the matches of the pattern out of a text. -/
  remove : Option (List Char → List Char) := none
  deriving Inhabited

namespace Slugger

variable [PatternLibrary]

/-- The options with their pattern read; there is none if the pattern is not one. -/
def ofOptions? (options : SlugOptions) : Option Slugger :=
  match options.remove with
  | none => some ⟨options, none⟩
  | some text => (PatternLibrary.remover? text.toList).map fun remove => ⟨options, some remove⟩

/-- The options with their pattern read, a wrong pattern being dropped from them. -/
def ofOptionsLossy (options : SlugOptions) : Slugger :=
  (ofOptions? options).getD ⟨{ options with remove := none }, none⟩

/-- What is left of one character: it is spelled out, counts as a blank if this gives the
replacement, and loses what is removed. -/
def reduce (s : Slugger) (c : Char) : List Char :=
  let spelled := Slug.spell c
  let spelled := if spelled = s.options.replacement.toList then [' '] else spelled
  match s.remove with
  | some remove => remove spelled
  | none => spelled.filter Slug.isKept

/-- The slug of a text. -/
def slug (s : Slugger) (text : List Char) : List Char :=
  let kept := text.flatMap s.reduce
  let kept :=
    if s.options.strict then kept.filter fun c => Ascii.isAlphanumeric c || isBlank c else kept
  let trimmed := if s.options.trim then Text.trim kept else kept
  let joined := Slug.joinBlanks s.options.replacement.toList false trimmed
  if s.options.lower then Text.lowercase joined else joined

/-- The slug of a string. -/
def slugString (s : Slugger) (text : String) : String := String.ofList (s.slug text.toList)

/-- The usual options, in lower case. -/
def lowercase : Slugger := { options := SlugOptions.lowercase }

end Slugger

end WikiPress
