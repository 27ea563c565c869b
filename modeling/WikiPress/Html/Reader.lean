import WikiPress.Html.Reference
import WikiPress.Text.Blank

/-!
# HTML as tags and characters

A reader of HTML sees tags and, between them, characters.  Tags stand between angle brackets, with
the values of their attributes in double quotes; in values and between tags, references stand for
the characters that they name.

## Main definitions

* `Tag`, `Item` : what a text is read as.
* `Names` : the characters that names in references stand for.
* `decode` : a text with its references replaced.
* `read?` : the tags and characters of a text.
* `IsName`, `IsTagName` : the names of attributes and of tags.
-/

namespace WikiPress.Html

open WikiPress.Text

/-- A tag. -/
structure Tag where
  /-- The tag closes an element. -/
  closing : Bool := false
  name : String
  attributes : List (String × String) := []
  /-- The tag ends with a slash. -/
  slash : Bool := false
  deriving DecidableEq, Repr, Inhabited

/-- What a reader sees next: a tag, or a character between tags. -/
inductive Item where
  | tag (tag : Tag)
  | char (c : Char)
  deriving DecidableEq, Repr, Inhabited

namespace Item

/-- The tag that an item is. -/
def tag? : Item → Option Tag
  | tag t => some t
  | char _ => none

end Item

/-! ### References -/

/-- The characters that names in references stand for.  Whatever other names there are, these four
have their usual meaning. -/
structure Names where
  named? : List Char → Option (List Char)
  amp : named? ['a', 'm', 'p'] = some ['&']
  lt : named? ['l', 't'] = some ['<']
  gt : named? ['g', 't'] = some ['>']
  quot : named? ['q', 'u', 'o', 't'] = some ['\x22']

/-- Only the four names that every reader knows. -/
def Names.predefined : Names where
  named? name :=
    [("amp", '&'), ("lt", '<'), ("gt", '>'), ("quot", '\x22')].findSome? fun entry =>
      if entry.1.toList = name then some [entry.2] else none
  amp := by decide
  lt := by decide
  gt := by decide
  quot := by decide

/-- The reference at the start of a text, read after its ampersand: the characters it stands for
and what follows it. -/
def readReference? (names : Names) (s : List Char) : Option (List Char × List Char) :=
  match s with
  | '#' :: rest => Reference.readNumeric? rest
  | _ =>
    let name := s.takeWhile Ascii.isAlphanumeric
    match s.dropWhile Ascii.isAlphanumeric with
    | ';' :: rest => (names.named? name).map fun image => (image, rest)
    | _ => none

theorem length_dropWhile_le (p : Char → Bool) (s : List Char) :
    (s.dropWhile p).length ≤ s.length := (List.dropWhile_sublist p).length_le

theorem length_lt_of_dropWhile_eq {p : Char → Bool} {c : Char} {s rest : List Char}
    (h : s.dropWhile p = c :: rest) : rest.length < s.length := by
  have hle := length_dropWhile_le p s
  rw [h, List.length_cons] at hle
  omega

theorem length_lt_of_readNumeric? {s image rest : List Char}
    (h : Reference.readNumeric? s = some (image, rest)) : rest.length < s.length := by
  unfold Reference.readNumeric? at h
  simp only at h
  split at h
  · next c s =>
    split at h
    · split at h
      · next heq =>
        split at h
        · obtain ⟨_, rfl⟩ := Prod.mk.inj (Option.some.inj h)
          exact length_lt_of_dropWhile_eq heq
        · exact nomatch h
      · exact nomatch h
    · split at h
      · split at h
        · next heq =>
          split at h
          · obtain ⟨_, rfl⟩ := Prod.mk.inj (Option.some.inj h)
            exact Nat.lt_succ_of_lt (length_lt_of_dropWhile_eq heq)
          · exact nomatch h
        · exact nomatch h
      · exact nomatch h
  · exact nomatch h

theorem length_lt_of_readReference? {names : Names} {s image rest : List Char}
    (h : readReference? names s = some (image, rest)) : rest.length < s.length := by
  unfold readReference? at h
  split at h
  · exact Nat.lt_succ_of_lt (length_lt_of_readNumeric? h)
  · simp only at h
    split at h
    · next heq =>
      obtain ⟨_, _, h⟩ := Option.map_eq_some_iff.mp h
      obtain ⟨_, rfl⟩ := Prod.mk.inj h
      exact length_lt_of_dropWhile_eq heq
    · exact nomatch h

/-- A text with its references replaced.  An ampersand that begins none stands for itself. -/
def decode (names : Names) (s : List Char) : List Char :=
  match s with
  | [] => []
  | c :: rest =>
    if c = '&' then
      match _h : readReference? names rest with
      | some (image, after) => image ++ decode names after
      | none => c :: decode names rest
    else c :: decode names rest
  termination_by s.length
  decreasing_by
    · have := length_lt_of_readReference? _h
      simp only [List.length_cons]
      omega
    all_goals simp

/-! ### Tags -/

/-- The characters of names. -/
def isNameChar (c : Char) : Bool :=
  Ascii.isAlphanumeric c || c = '-' || c = '_' || c = '.' || c = ':'

/-- A name of an attribute. -/
def IsName (s : String) : Prop := s ≠ "" ∧ ∀ c ∈ s.toList, isNameChar c = true

/-- A name of a tag, which begins with a letter. -/
def IsTagName (s : String) : Prop :=
  s.toList.head?.any Ascii.isAlpha = true ∧ ∀ c ∈ s.toList, isNameChar c = true

instance (s : String) : Decidable (IsName s) :=
  decidable_of_iff (s ≠ "" ∧ s.toList.all isNameChar = true) (and_congr Iff.rfl List.all_eq_true)

instance (s : String) : Decidable (IsTagName s) :=
  decidable_of_iff (s.toList.head?.any Ascii.isAlpha = true ∧ s.toList.all isNameChar = true)
    (and_congr Iff.rfl List.all_eq_true)

/-- An attribute at the start of a text: its name, and its value behind an equals sign and between
double quotes. -/
def readAttribute? (names : Names) (s : List Char) : Option ((String × String) × List Char) :=
  let key := s.takeWhile isNameChar
  match s.dropWhile isNameChar with
  | '=' :: '\x22' :: rest =>
    match rest.dropWhile (· ≠ '\x22') with
    | _ :: after =>
      if key.isEmpty then none
      else
        let value := decode names (rest.takeWhile (· ≠ '\x22'))
        some ((String.ofList key, String.ofList value), after)
    | [] => none
  | _ => none

theorem length_lt_of_readAttribute? {names : Names} {s rest : List Char} {a : String × String}
    (h : readAttribute? names s = some (a, rest)) : rest.length < s.length := by
  unfold readAttribute? at h
  simp only at h
  split at h
  · next value heq =>
    have hvalue := length_lt_of_dropWhile_eq heq
    split at h
    · next hrest =>
      split at h
      · exact nomatch h
      · obtain ⟨_, rfl⟩ := Prod.mk.inj (Option.some.inj h)
        have hafter := length_lt_of_dropWhile_eq hrest
        simp only [List.length_cons] at hvalue
        omega
    · exact nomatch h
  · exact nomatch h

/-- The attributes of a tag, each of them behind a blank, up to the bracket that ends the tag;
whether a slash stands in front of the bracket; and what follows the tag. -/
def readAttributes? (names : Names) (s : List Char) :
    Option (List (String × String) × Bool × List Char) :=
  match s with
  | [] => none
  | c :: rest =>
    if c = '>' then some ([], false, rest)
    else if c = '/' then
      match rest with
      | '>' :: after => some ([], true, after)
      | _ => none
    else if isAsciiBlank c then
      match _h : readAttribute? names rest with
      | some (a, after) =>
        (readAttributes? names after).map fun read => (a :: read.1, read.2)
      | none => readAttributes? names rest
    else none
  termination_by s.length
  decreasing_by
    · have := length_lt_of_readAttribute? _h
      simp only [List.length_cons]
      omega
    · simp

theorem length_lt_of_readAttributes? {names : Names} {s rest : List Char} {slash : Bool}
    {as : List (String × String)} (h : readAttributes? names s = some (as, slash, rest)) :
    rest.length < s.length := by
  fun_induction readAttributes? names s generalizing as with
  | case1 => exact nomatch h
  | case2 => simp_all
  | case3 =>
    obtain ⟨_, _, rfl⟩ := h
    simp only [List.length_cons]
    omega
  | case4 => simp_all
  | case5 c s _ _ _ a after hattribute ih =>
    obtain ⟨⟨bs, slash', rest'⟩, hread, heq⟩ := Option.map_eq_some_iff.mp h
    simp only [Prod.mk.injEq] at heq
    obtain ⟨_, rfl, rfl⟩ := heq
    have := length_lt_of_readAttribute? hattribute
    have := ih hread
    simp only [List.length_cons]
    omega
  | case6 c s _ _ _ _ ih => exact Nat.lt_succ_of_lt (ih h)
  | case7 => exact nomatch h

/-- The name and the attributes of a tag, and what follows the tag. -/
def readTagBody? (names : Names) (closing : Bool) (s : List Char) : Option (Tag × List Char) :=
  let name := s.takeWhile isNameChar
  if name.head?.any Ascii.isAlpha then
    (readAttributes? names (s.dropWhile isNameChar)).map fun read =>
      (⟨closing, String.ofList name, read.1, read.2.1⟩, read.2.2)
  else none

/-- A tag, read after its first bracket, and what follows it. -/
def readTag? (names : Names) (s : List Char) : Option (Tag × List Char) :=
  match s with
  | '/' :: rest => readTagBody? names true rest
  | _ => readTagBody? names false s

theorem length_lt_of_readTagBody? {names : Names} {closing : Bool} {s rest : List Char} {t : Tag}
    (h : readTagBody? names closing s = some (t, rest)) : rest.length < s.length := by
  unfold readTagBody? at h
  simp only at h
  split at h
  · obtain ⟨⟨as, slash, rest'⟩, hread, heq⟩ := Option.map_eq_some_iff.mp h
    obtain ⟨_, rfl⟩ := Prod.mk.inj heq
    exact Nat.lt_of_lt_of_le (length_lt_of_readAttributes? hread) (length_dropWhile_le _ _)
  · exact nomatch h

theorem length_lt_of_readTag? {names : Names} {s rest : List Char} {t : Tag}
    (h : readTag? names s = some (t, rest)) : rest.length < s.length := by
  unfold readTag? at h
  split at h
  · exact Nat.lt_succ_of_lt (length_lt_of_readTagBody? h)
  · exact length_lt_of_readTagBody? h

/-! ### Texts -/

/-- The tags and characters of a text.  There are none if a bracket begins no tag. -/
def read? (names : Names) (s : List Char) : Option (List Item) :=
  match s with
  | [] => some []
  | c :: rest =>
    if c = '<' then
      match _h : readTag? names rest with
      | some (t, after) => (read? names after).map (.tag t :: ·)
      | none => none
    else if c = '&' then
      match _h : readReference? names rest with
      | some (image, after) => (read? names after).map (image.map .char ++ ·)
      | none => (read? names rest).map (.char c :: ·)
    else (read? names rest).map (.char c :: ·)
  termination_by s.length
  decreasing_by
    · have := length_lt_of_readTag? _h
      simp only [List.length_cons]
      omega
    · have := length_lt_of_readReference? _h
      simp only [List.length_cons]
      omega
    all_goals simp

/-- The tags of a text in order; none if the text cannot be read. -/
def tags (names : Names) (s : List Char) : List Tag :=
  ((read? names s).getD []).filterMap Item.tag?

end WikiPress.Html
