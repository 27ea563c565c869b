import Mathlib.Tactic.SplitIfs
import WikiPress.Text.Ascii

/-!
# The tags of any text

`read?` reads the HTML that the renderer writes and refuses all other.  The scanner reads any text
character by character, as HTML written by others must be read: values may stand between quotes of
two kinds, without quotes, or be left out, there may be comments and declarations, and whatever is
wrong with a text, it has some tags.  Of a tag only its head is kept, that is, its name and the
keys of its attributes.

## Main definitions

* `TagHead` : a tag without the values of its attributes.
* `TagMode`, `TagMode.next` : where the scanner is, and where a character leads it.
* `TagScanner`, `TagScanner.run`, `tagHeads` : the heads of the tags in a text.
* `TagMode.IsBehindValue` : where the scanner is behind a value, up to the end of the tag.

## Main results

* `TagScanner.run_of_text`, `TagScanner.run_of_isDoubleQuoted` : most characters between tags and in
  values leave the scanner where it is.
* `TagScanner.heads_run_of_isBehindValue` : a quote behind a value adds a key to the tag, or the tag
  does not end.
-/

namespace WikiPress.Html

/-- A tag without the values of its attributes. -/
structure TagHead where
  /-- The tag closes an element. -/
  closing : Bool := false
  name : List Char := []
  keys : List (List Char) := []
  /-- The tag ends with a slash. -/
  slash : Bool := false
  deriving DecidableEq, Repr, Inhabited

namespace TagHead

/-- The head with one more character of its name. -/
def addToName (h : TagHead) (c : Char) : TagHead := { h with name := h.name ++ [c] }

/-- The head with one more key, which begins with a character. -/
def addKey (h : TagHead) (c : Char) : TagHead := { h with keys := h.keys ++ [[c]] }

/-- The head with one more character of its last key. -/
def addToKey (h : TagHead) (c : Char) : TagHead :=
  { h with keys := h.keys.dropLast ++ [h.keys.getLast?.getD [] ++ [c]] }

end TagHead

/-- Where the scanner is. -/
inductive TagMode where
  /-- Between tags. -/
  | text
  /-- Behind the bracket that may begin a tag. -/
  | opened
  /-- Behind the bracket and the slash that may begin a closing tag. -/
  | closeOpened
  | name (head : TagHead)
  /-- Where the next attribute may begin. -/
  | gap (head : TagHead)
  | key (head : TagHead)
  /-- Behind a key and blanks. -/
  | keyEnd (head : TagHead)
  /-- Behind an equals sign. -/
  | equals (head : TagHead)
  /-- In a value between quotes. -/
  | quoted (quote : Char) (head : TagHead)
  /-- In a value without quotes. -/
  | unquoted (head : TagHead)
  /-- Behind a slash in a tag. -/
  | slash (head : TagHead)
  /-- Behind the exclamation mark that begins a comment or a declaration. -/
  | mark
  /-- Behind the first hyphen that may begin a comment. -/
  | markHyphen
  /-- In a declaration, up to the next closing bracket. -/
  | declaration
  /-- Behind the hyphens that begin a comment. -/
  | commentStart
  /-- Behind one more hyphen there. -/
  | commentStartHyphen
  | comment
  /-- Behind a hyphen in a comment. -/
  | commentHyphen
  /-- Behind two hyphens or more in a comment. -/
  | commentHyphens
  /-- Behind two hyphens and an exclamation mark in a comment. -/
  | commentMark
  deriving DecidableEq, Repr, Inhabited

/-- The blanks that separate attributes. -/
def isTagBlank (c : Char) : Bool :=
  c = ' ' || c = '\t' || c = '\n' || c = '\x0c' || c = '\r'

namespace TagMode

/-- Whether the scanner is in a value between double quotes. -/
def isDoubleQuoted : TagMode → Bool
  | quoted quote _ => quote = '\x22'
  | _ => false

/-- What a character does inside a tag: blanks lead to one place, a slash or the end of the tag are
noticed, and all else leads to another place. -/
def inTag (head : TagHead) (blank other : TagMode) (c : Char) : TagMode × Option TagHead :=
  if isTagBlank c then (blank, none)
  else if c = '/' then (.slash head, none)
  else if c = '>' then (.text, some head)
  else (other, none)

/-- Where a character leads the scanner, and the tag that ends with it. -/
def next (mode : TagMode) (c : Char) : TagMode × Option TagHead :=
  match mode with
  | text => (if c = '<' then opened else text, none)
  | opened =>
    (if c = '!' then mark else if c = '?' then declaration else if c = '/' then closeOpened
      else if c = '<' then opened else if Ascii.isAlpha c then name { name := [c] }
      else text, none)
  | closeOpened =>
    (if Ascii.isAlpha c then name { closing := true, name := [c] } else if c = '>' then text
      else declaration, none)
  | name head => inTag head (gap head) (name (head.addToName c)) c
  | gap head => inTag head (gap head) (key (head.addKey c)) c
  | key head =>
    if c = '=' then (equals head, none) else inTag head (keyEnd head) (key (head.addToKey c)) c
  | keyEnd head =>
    if c = '=' then (equals head, none) else inTag head (keyEnd head) (key (head.addKey c)) c
  | equals head =>
    if isTagBlank c then (equals head, none)
    else if c = '\x22' ∨ c = '\x27' then (quoted c head, none)
    else if c = '>' then (text, some head)
    else (unquoted head, none)
  | quoted quote head => (if c = quote then gap head else quoted quote head, none)
  | unquoted head =>
    if isTagBlank c then (gap head, none) else if c = '>' then (text, some head)
    else (unquoted head, none)
  | slash head =>
    if c = '>' then (text, some { head with slash := true })
    else inTag head (gap head) (key (head.addKey c)) c
  | mark => (if c = '-' then markHyphen else if c = '>' then text else declaration, none)
  | markHyphen => (if c = '-' then commentStart else if c = '>' then text else declaration, none)
  | declaration => (if c = '>' then text else declaration, none)
  | commentStart =>
    (if c = '-' then commentStartHyphen else if c = '>' then text else comment, none)
  | commentStartHyphen =>
    (if c = '-' then commentHyphens else if c = '>' then text else comment, none)
  | comment => (if c = '-' then commentHyphen else comment, none)
  | commentHyphen => (if c = '-' then commentHyphens else comment, none)
  | commentHyphens =>
    (if c = '>' then text else if c = '-' then commentHyphens else if c = '!' then commentMark
      else comment, none)
  | commentMark => (if c = '>' then text else if c = '-' then commentHyphen else comment, none)

end TagMode

/-- Where the scanner is, and the heads of the tags behind it. -/
structure TagScanner where
  mode : TagMode := .text
  heads : List TagHead := []
  deriving DecidableEq, Repr, Inhabited

namespace TagScanner

/-- The scanner behind a character. -/
def step (z : TagScanner) (c : Char) : TagScanner :=
  ⟨(z.mode.next c).1, z.heads ++ (z.mode.next c).2.toList⟩

/-- The scanner behind a text. -/
def run (z : TagScanner) (s : List Char) : TagScanner := s.foldl step z

end TagScanner

/-- Where the scanner is behind a text. -/
def modeBehind (s : List Char) : TagMode := (TagScanner.run {} s).mode

/-- The heads of the tags in a text. -/
def tagHeads (s : List Char) : List TagHead := (TagScanner.run {} s).heads

/-- A comment, a value without quotes, a key without a value, and a bracket in a value. -/
example : tagHeads "<!--<i>--><br/>a<b c=d e f='\x22'\tg=\x22<>\x22 ></b>".toList =
    [⟨false, "br".toList, [], true⟩, ⟨false, "b".toList, [['c'], ['e'], ['f'], ['g']], false⟩,
      ⟨true, "b".toList, [], false⟩] := by
  decide

namespace TagScanner

variable {z : TagScanner} {s : List Char}

@[simp] theorem run_nil (z : TagScanner) : z.run [] = z := rfl

theorem run_cons (z : TagScanner) (c : Char) (s : List Char) : z.run (c :: s) = (z.step c).run s :=
  rfl

theorem run_append (z : TagScanner) (s t : List Char) : z.run (s ++ t) = (z.run s).run t :=
  List.foldl_append

/-! ### Characters that lead nowhere -/

/-- The scanner stays where it is if no character leads it elsewhere or ends a tag. -/
theorem run_eq_self (h : ∀ c ∈ s, z.mode.next c = (z.mode, none)) : z.run s = z := by
  induction s with
  | nil => rfl
  | cons c s ih =>
    rw [List.forall_mem_cons] at h
    have hstep : z.step c = z := by
      rw [step, h.1, Option.toList_none, List.append_nil]
    rw [run_cons, hstep, ih h.2]

/-- Between tags, all characters but the bracket that begins one are passed over. -/
theorem run_of_text (hz : z.mode = .text) (hs : '<' ∉ s) : z.run s = z := by
  refine run_eq_self fun c hc => ?_
  rw [hz, TagMode.next, if_neg (ne_of_mem_of_not_mem hc hs)]

/-- In a value between double quotes, all characters but the quote that ends it are passed over. -/
theorem run_of_isDoubleQuoted (hz : z.mode.isDoubleQuoted = true) (hs : '\x22' ∉ s) :
    z.run s = z := by
  refine run_eq_self fun c hc => ?_
  cases hmode : z.mode with
  | quoted quote head =>
    rw [hmode] at hz
    obtain rfl : quote = '\x22' := of_decide_eq_true hz
    rw [TagMode.next, if_neg (ne_of_mem_of_not_mem hc hs)]
  | _ =>
    rw [hmode] at hz
    exact Bool.noConfusion hz

end TagScanner

/-! ### Behind a value -/

theorem TagHead.length_keys_addToKey (head : TagHead) (c : Char) :
    head.keys.length ≤ (head.addToKey c).keys.length := by
  rw [TagHead.addToKey, List.length_append, List.length_dropLast, List.length_singleton]
  omega

theorem TagHead.length_keys_addKey (head : TagHead) (c : Char) :
    (head.addKey c).keys.length = head.keys.length + 1 := by
  rw [TagHead.addKey, List.length_append, List.length_singleton]

namespace TagMode

/-- The scanner is in a tag behind a value, when there were `count` keys: it has met only blanks and
slashes since, or there are more keys now. -/
inductive IsBehindValue (count : Nat) : TagMode → Prop
  | gap {head : TagHead} : count ≤ head.keys.length → IsBehindValue count (.gap head)
  | slash {head : TagHead} : count ≤ head.keys.length → IsBehindValue count (.slash head)
  | key {head : TagHead} : count < head.keys.length → IsBehindValue count (.key head)
  | keyEnd {head : TagHead} : count < head.keys.length → IsBehindValue count (.keyEnd head)
  | equals {head : TagHead} : count < head.keys.length → IsBehindValue count (.equals head)
  | quoted {quote : Char} {head : TagHead} : count < head.keys.length →
    IsBehindValue count (.quoted quote head)
  | unquoted {head : TagHead} : count < head.keys.length → IsBehindValue count (.unquoted head)

variable {mode : TagMode} {head : TagHead} {count : Nat} {c : Char}

theorem isBehindValue_inTag {blank other : TagMode} (hc : c ≠ '>')
    (hblank : IsBehindValue count blank) (hslash : count ≤ head.keys.length)
    (hother : IsBehindValue count other) :
    IsBehindValue count (inTag head blank other c).1 ∧ (inTag head blank other c).2 = none := by
  simp only [inTag, hc, if_false]
  split_ifs
  · exact ⟨hblank, rfl⟩
  · exact ⟨.slash hslash, rfl⟩
  · exact ⟨hother, rfl⟩

/-- The tag goes on up to its closing bracket. -/
theorem IsBehindValue.next (h : IsBehindValue count mode) (hc : c ≠ '>') :
    IsBehindValue count (mode.next c).1 ∧ (mode.next c).2 = none := by
  have hadd (head : TagHead) := head.length_keys_addKey c
  have happend (head : TagHead) := head.length_keys_addToKey c
  cases h with
  | @gap head h =>
    exact isBehindValue_inTag hc (.gap h) h (.key (by rw [hadd]; omega))
  | @slash head h =>
    rw [TagMode.next, if_neg hc]
    exact isBehindValue_inTag hc (.gap h) h (.key (by rw [hadd]; omega))
  | @key head h =>
    rw [TagMode.next]
    split_ifs
    · exact ⟨.equals h, rfl⟩
    · exact isBehindValue_inTag hc (.keyEnd h) (Nat.le_of_lt h)
        (.key (Nat.lt_of_lt_of_le h (happend head)))
  | @keyEnd head h =>
    rw [TagMode.next]
    split_ifs
    · exact ⟨.equals h, rfl⟩
    · exact isBehindValue_inTag hc (.keyEnd h) (Nat.le_of_lt h) (.key (by rw [hadd]; omega))
  | equals h =>
    simp only [TagMode.next, hc, if_false]
    split_ifs
    · exact ⟨.equals h, rfl⟩
    · exact ⟨.quoted h, rfl⟩
    · exact ⟨.unquoted h, rfl⟩
  | quoted h =>
    rw [TagMode.next]
    split_ifs
    · exact ⟨.gap (Nat.le_of_lt h), rfl⟩
    · exact ⟨.quoted h, rfl⟩
  | unquoted h =>
    simp only [TagMode.next, hc, if_false]
    split_ifs
    · exact ⟨.gap (Nat.le_of_lt h), rfl⟩
    · exact ⟨.unquoted h, rfl⟩

/-- If the tag ends behind a double quote, it has more keys: a quote begins a key where there are
none. -/
theorem IsBehindValue.next_quote (h : IsBehindValue count mode) :
    ∀ head ∈ ((mode.next '\x22').1.next '>').2, count < head.keys.length := by
  cases h with
  | @gap head h =>
    rintro _ ⟨⟩
    rw [TagHead.length_keys_addKey]
    omega
  | @slash head h =>
    rintro _ ⟨⟩
    rw [TagHead.length_keys_addKey]
    omega
  | @key head h =>
    rintro _ ⟨⟩
    exact Nat.lt_of_lt_of_le h (head.length_keys_addToKey _)
  | @keyEnd head h =>
    rintro _ ⟨⟩
    rw [TagHead.length_keys_addKey]
    omega
  | equals h => exact fun _ h => nomatch h
  | @quoted quote head h =>
    intro head' h'
    rw [TagMode.next] at h'
    split_ifs at h' with hquote
    · obtain rfl : head = head' := Option.some.inj h'
      exact h
    · rw [TagMode.next] at h'
      exact nomatch h'
  | unquoted h =>
    rintro _ ⟨⟩
    exact h

end TagMode

namespace TagScanner

variable {z : TagScanner} {s : List Char} {count : Nat}

theorem isBehindValue_run (hz : z.mode.IsBehindValue count) (hs : '>' ∉ s) :
    (z.run s).mode.IsBehindValue count ∧ (z.run s).heads = z.heads := by
  induction s generalizing z with
  | nil => exact ⟨hz, rfl⟩
  | cons c s ih =>
    rw [List.mem_cons, not_or] at hs
    obtain ⟨hnext, hnone⟩ := hz.next (Ne.symm hs.1)
    obtain ⟨hmode, hheads⟩ := ih (z := z.step c) hnext hs.2
    refine ⟨hmode, hheads.trans ?_⟩
    rw [step, hnone, Option.toList_none, List.append_nil]

/-- If a tag goes on behind a value up to a double quote and the closing bracket, it has more keys,
or it does not end there. -/
theorem heads_run_of_isBehindValue (hz : z.mode.IsBehindValue count) (hs : '>' ∉ s) :
    ∃ ended : Option TagHead, (z.run (s ++ ['\x22', '>'])).heads = z.heads ++ ended.toList ∧
      ∀ head ∈ ended, count < head.keys.length := by
  obtain ⟨hmode, hheads⟩ := isBehindValue_run hz hs
  refine ⟨_, ?_, hmode.next_quote⟩
  have hnone : ((z.run s).mode.next '\x22').2 = none := (hmode.next (by decide)).2
  rw [run_append, run_cons, run_cons, run_nil, step, step, hnone, Option.toList_none,
    List.append_nil, hheads]

end TagScanner

end WikiPress.Html
