import Mathlib.Data.List.Basic
import WikiPress.Html.Escape
import WikiPress.Html.Reader

/-!
# What is written is read back

Texts are put together piece by piece, and the reader of HTML goes through them from the left.  A
piece is read as some items if it is read so whatever follows it; then pieces can be put one behind
the other.  The same is said of pieces of attribute values and of lists of attributes.

## Main definitions

* `Reads` : a piece of a text is read as a list of items.
* `IsValue` : a piece of an attribute value, and what it stands for.
* `ReadsAttributes` : the attributes of a tag are read as a list of keys and values.

## Main results

* `reads_escape`, `isValue_escape` : escaped text is read as the text itself.
* `reads_tag` : tags are read back.
-/

namespace WikiPress.Html

open WikiPress.Text

variable {names : Names} {s s' t v v' w w' rest : List Char} {is is' : List Item} {c : Char}

/-! ### Characters of names -/

theorem ne_of_isNameChar (h : isNameChar c = true) {d : Char} (hd : isNameChar d = false) :
    c ≠ d := by
  rintro rfl
  exact Bool.noConfusion (h.symm.trans hd)

theorem isNameChar_eq_false_of_isAsciiBlank (h : isAsciiBlank c = true) : isNameChar c = false := by
  simp only [isAsciiBlank, Bool.or_eq_true, decide_eq_true_eq, Bool.and_eq_true] at h
  rcases h with rfl | h
  · decide
  · have : c.val.toNat = c.toNat := rfl
    unfold isNameChar Ascii.isAlphanumeric Char.isAlphanum Char.isAlpha Char.isUpper Char.isLower
      Char.isDigit
    simp only [Bool.or_eq_false_iff, decide_eq_false_iff_not, Bool.and_eq_false_iff, ge_iff_le,
      UInt32.le_iff_toNat_le, Char.ext_iff, ← UInt32.toNat_inj, this]
    simp
    omega

theorem takeWhile_append_of_head? {p : Char → Bool} (hs : ∀ c ∈ s, p c = true)
    (ht : ∀ c ∈ t.head?, p c = false) : (s ++ t).takeWhile p = s := by
  rw [List.takeWhile_append_of_pos hs]
  cases t with
  | nil => simp
  | cons c t => simp [ht c rfl]

theorem dropWhile_append_of_head? {p : Char → Bool} (hs : ∀ c ∈ s, p c = true)
    (ht : ∀ c ∈ t.head?, p c = false) : (s ++ t).dropWhile p = t := by
  rw [List.dropWhile_append_of_pos hs]
  cases t with
  | nil => rfl
  | cons c t => simp [ht c rfl]

/-- Names are not changed when they are escaped. -/
theorem escape_eq_self (h : ∀ c ∈ s, isNameChar c = true) : escape s = s := by
  induction s with
  | nil => rfl
  | cons c s ih =>
    rw [List.forall_mem_cons] at h
    have hc : escapeChar c = [c] := by
      simp [escapeChar, ne_of_isNameChar h.1 (show isNameChar '&' = false by decide),
        ne_of_isNameChar h.1 (show isNameChar '<' = false by decide),
        ne_of_isNameChar h.1 (show isNameChar '>' = false by decide),
        ne_of_isNameChar h.1 (show isNameChar '\x22' = false by decide)]
    rw [escape, List.flatMap_cons, hc, ← escape, ih h.2, List.singleton_append]

/-! ### References -/

/-- A name that stands for characters is read up to the semicolon behind it. -/
theorem readReference?_named {name image : List Char}
    (hname : name.all Ascii.isAlphanumeric = true) (himage : names.named? name = some image)
    (rest : List Char) : readReference? names (name ++ ';' :: rest) = some (image, rest) := by
  rw [List.all_eq_true] at hname
  have hstop : ∀ c ∈ (';' :: rest).head?, Ascii.isAlphanumeric c = false := by
    simp only [List.head?_cons, Option.mem_def, Option.some.injEq, forall_eq']
    decide
  unfold readReference?
  split
  · next s heq =>
    cases name with
    | nil => exact absurd (List.cons.inj heq).1 (by decide)
    | cons c name =>
      have hc := hname c (List.mem_cons_self ..)
      rw [(List.cons.inj heq).1] at hc
      exact absurd hc (by decide)
  · simp only [takeWhile_append_of_head? hname hstop, dropWhile_append_of_head? hname hstop,
      himage, Option.map_some]

/-- What a character is escaped to is a reference for it, or the character itself if it begins
neither a reference nor a tag and ends no value. -/
theorem escapeChar_cases (c : Char) :
    (∃ name, escapeChar c = '&' :: name ∧ '\x22' ∉ name ∧ '<' ∉ name ∧
      ∀ (names : Names) (rest : List Char),
        readReference? names (name ++ rest) = some ([c], rest)) ∨
    (escapeChar c = [c] ∧ c ≠ '&' ∧ c ≠ '<' ∧ c ≠ '\x22') := by
  unfold escapeChar
  split_ifs with hamp hlt hgt hquot
  · exact .inl ⟨_, rfl, by decide, by decide,
      fun names rest => hamp ▸ readReference?_named rfl names.amp rest⟩
  · exact .inl ⟨_, rfl, by decide, by decide,
      fun names rest => hlt ▸ readReference?_named rfl names.lt rest⟩
  · exact .inl ⟨_, rfl, by decide, by decide,
      fun names rest => hgt ▸ readReference?_named rfl names.gt rest⟩
  · exact .inl ⟨_, rfl, by decide, by decide,
      fun names rest => hquot ▸ readReference?_named rfl names.quot rest⟩
  · exact .inr ⟨rfl, hamp, hlt, hquot⟩

/-! ### Values -/

/-- A piece of an attribute value is read as a text: it has no double quote that would end the value
and no bracket, and the references in it are whole. -/
structure IsValue (names : Names) (v w : List Char) : Prop where
  quote : '\x22' ∉ v
  bracket : '<' ∉ v
  decodes : ∀ rest, decode names (v ++ rest) = w ++ decode names rest

theorem decode_nil (names : Names) : decode names [] = [] := by rw [decode]

theorem decode_cons_of_ne (names : Names) (h : c ≠ '&') (rest : List Char) :
    decode names (c :: rest) = c :: decode names rest := by
  rw [decode, if_neg h]

theorem decode_reference {image : List Char} (h : readReference? names s = some (image, rest)) :
    decode names ('&' :: s) = image ++ decode names rest := by
  rw [decode, if_pos rfl]
  split
  · next heq =>
    obtain ⟨rfl, rfl⟩ := Prod.mk.inj (Option.some.inj (heq.symm.trans h))
    rfl
  · next heq => cases heq.symm.trans h

theorem isValue_nil : IsValue names [] [] := ⟨by simp, by simp, fun _ => rfl⟩

theorem IsValue.append (h : IsValue names v w) (h' : IsValue names v' w') :
    IsValue names (v ++ v') (w ++ w') where
  quote := by simp [h.quote, h'.quote]
  bracket := by simp [h.bracket, h'.bracket]
  decodes rest := by rw [List.append_assoc, h.decodes, h'.decodes, List.append_assoc]

theorem isValue_char (hamp : c ≠ '&') (hlt : c ≠ '<') (hquot : c ≠ '\x22') :
    IsValue names [c] [c] :=
  ⟨by simpa using Ne.symm hquot, by simpa using Ne.symm hlt,
    fun rest => decode_cons_of_ne names hamp rest⟩

theorem isValue_escapeChar (names : Names) (c : Char) : IsValue names (escapeChar c) [c] := by
  obtain ⟨name, heq, hquot, hlt, hread⟩ | ⟨heq, hamp, hlt, hquot⟩ := escapeChar_cases c
  · rw [heq]
    exact ⟨by simpa using hquot, by simpa using hlt,
      fun rest => decode_reference (hread names rest)⟩
  · rw [heq]
    exact isValue_char hamp hlt hquot

theorem isValue_escape (names : Names) (s : List Char) : IsValue names (escape s) s := by
  induction s with
  | nil => exact isValue_nil
  | cons c s ih => exact (isValue_escapeChar names c).append ih

/-- Text without ampersands, brackets and double quotes stands for itself. -/
theorem isValue_plain (names : Names) (h : ∀ c ∈ s, c ≠ '&' ∧ c ≠ '<' ∧ c ≠ '\x22') :
    IsValue names s s := by
  induction s with
  | nil => exact isValue_nil
  | cons c s ih =>
    rw [List.forall_mem_cons] at h
    exact (isValue_char h.1.1 h.1.2.1 h.1.2.2).append (ih h.2)

theorem IsValue.decode_eq (h : IsValue names v w) : decode names v = w := by
  simpa [decode_nil] using h.decodes []

/-! ### Attributes -/

/-- A piece of a tag behind its name has no bracket and is read as a list of attributes. -/
structure ReadsAttributes (names : Names) (s : List Char) (as : List (String × String)) : Prop where
  bracket : '<' ∉ s
  reads : ∀ rest, readAttributes? names (s ++ rest) =
    (readAttributes? names rest).map fun read => (as ++ read.1, read.2)

/-- The attribute with a key that is written as it is and a value between double quotes. -/
def attributeText (key v : List Char) : List Char :=
  ' ' :: (key ++ '=' :: '\x22' :: (v ++ ['\x22']))

theorem readAttribute?_attribute {key : String} (hkey : IsName key) (hv : IsValue names v w)
    (rest : List Char) :
    readAttribute? names (key.toList ++ '=' :: '\x22' :: (v ++ '\x22' :: rest)) =
      some ((key, String.ofList w), rest) := by
  have hstop : ∀ c ∈ ('=' :: '\x22' :: (v ++ '\x22' :: rest)).head?, isNameChar c = false := by
    simp only [List.head?_cons, Option.mem_def, Option.some.injEq, forall_eq']
    decide
  have hend : ∀ c ∈ ('\x22' :: rest).head?, decide (c ≠ '\x22') = false := by simp
  have hquot : ∀ c ∈ v, decide (c ≠ '\x22') = true := fun c hc =>
    decide_eq_true fun h => hv.quote (h ▸ hc)
  have hne : key.toList.isEmpty = false := by
    rw [List.isEmpty_eq_false_iff]
    exact fun h => hkey.1 (String.toList_inj.mp h)
  unfold readAttribute?
  simp only [takeWhile_append_of_head? hkey.2 hstop, dropWhile_append_of_head? hkey.2 hstop,
    takeWhile_append_of_head? hquot hend, dropWhile_append_of_head? hquot hend, hv.decode_eq,
    hne, String.ofList_toList, Bool.false_eq_true, if_false]

theorem readsAttributes_nil : ReadsAttributes names [] [] :=
  ⟨by simp, fun _ => Option.map_id'.symm⟩

theorem ReadsAttributes.append {as bs : List (String × String)} (h : ReadsAttributes names s as)
    (h' : ReadsAttributes names t bs) : ReadsAttributes names (s ++ t) (as ++ bs) where
  bracket := by simp [h.bracket, h'.bracket]
  reads rest := by
    rw [List.append_assoc, h.reads, h'.reads, Option.map_map]
    simp only [Function.comp_def, List.append_assoc]

/-- Names have no brackets. -/
theorem lt_not_mem_of_isNameChar (h : ∀ c ∈ s, isNameChar c = true) : '<' ∉ s := fun hlt =>
  Bool.noConfusion (h '<' hlt)

theorem readAttributes?_attribute {key : String} (hkey : IsName key) (hv : IsValue names v w)
    (rest : List Char) :
    readAttributes? names (attributeText key.toList v ++ rest) =
      (readAttributes? names rest).map fun read => ((key, String.ofList w) :: read.1, read.2) := by
  have hread := readAttribute?_attribute hkey hv rest
  simp only [attributeText, List.cons_append, List.append_assoc, List.nil_append]
  rw [readAttributes?.eq_def]
  simp only [show isAsciiBlank ' ' = true by decide, if_true, Char.reduceEq, if_false]
  split
  · next a after heq =>
    obtain ⟨rfl, rfl⟩ := Prod.mk.inj (Option.some.inj (heq.symm.trans hread))
    rfl
  · next heq => cases heq.symm.trans hread

theorem readsAttributes_attribute {key : String} (hkey : IsName key) (hv : IsValue names v w) :
    ReadsAttributes names (attributeText key.toList v) [(key, String.ofList w)] where
  bracket := by simp [attributeText, lt_not_mem_of_isNameChar hkey.2, hv.bracket]
  reads := readAttributes?_attribute hkey hv

/-- The end of a tag. -/
def tagEnd (slash : Bool) : List Char := if slash then [' ', '/', '>'] else ['>']

theorem readAttributes?_tagEnd (names : Names) (slash : Bool) (rest : List Char) :
    readAttributes? names (tagEnd slash ++ rest) = some ([], slash, rest) := by
  cases slash with
  | false =>
    rw [readAttributes?.eq_def]
    rfl
  | true =>
    have hnone : readAttribute? names ('/' :: '>' :: rest) = none := by
      simp [readAttribute?, show isNameChar '/' = false by decide]
    have hend : readAttributes? names ('/' :: '>' :: rest) = some ([], true, rest) := by
      rw [readAttributes?.eq_def]
      rfl
    simp only [tagEnd, if_true, List.cons_append, List.nil_append]
    rw [readAttributes?.eq_def]
    simp only [show isAsciiBlank ' ' = true by decide, if_true, Char.reduceEq, if_false]
    split
    · next heq => cases heq.symm.trans hnone
    · exact hend

/-- No name goes on where attributes can be read. -/
theorem isNameChar_eq_false_of_readAttributes? {read} (h : readAttributes? names s = some read) :
    ∀ c ∈ s.head?, isNameChar c = false := by
  unfold readAttributes? at h
  split at h
  · simp
  · next c rest =>
    simp only [List.head?_cons, Option.mem_def, Option.some.injEq, forall_eq']
    split_ifs at h with hend hslash hblank
    · exact hend ▸ by decide
    · exact hslash ▸ by decide
    · exact isNameChar_eq_false_of_isAsciiBlank hblank

/-! ### Tags and texts -/

/-- A piece of a text is read as a list of items, whatever follows it, and its brackets are those
of the tags among them. -/
structure Reads (names : Names) (s : List Char) (is : List Item) : Prop where
  brackets : s.count '<' = (is.filterMap Item.tag?).length
  reads : ∀ rest, read? names (s ++ rest) = (read? names rest).map (is ++ ·)

/-- Characters are no tags. -/
theorem filterMap_char (s : List Char) : (s.map Item.char).filterMap Item.tag? = [] := by
  rw [List.filterMap_eq_nil_iff, List.forall_mem_map]
  exact fun _ _ => rfl

theorem reads_nil : Reads names [] [] := ⟨rfl, fun _ => Option.map_id'.symm⟩

theorem Reads.append (h : Reads names s is) (h' : Reads names s' is') :
    Reads names (s ++ s') (is ++ is') where
  brackets := by rw [List.count_append, h.brackets, h'.brackets, List.filterMap_append,
    List.length_append]
  reads rest := by
    rw [List.append_assoc, h.reads, h'.reads, Option.map_map]
    simp only [Function.comp_def, List.append_assoc]

theorem Reads.read?_eq (h : Reads names s is) : read? names s = some is := by
  have := h.reads []
  rwa [List.append_nil, read?, Option.map_some, List.append_nil] at this

theorem Reads.tags_eq (h : Reads names s is) : tags names s = is.filterMap Item.tag? := by
  rw [tags, h.read?_eq, Option.getD_some]

theorem reads_char (hlt : c ≠ '<') (hamp : c ≠ '&') : Reads names [c] [.char c] where
  brackets := by simp [List.filterMap, Item.tag?, hlt]
  reads rest := by
    rw [List.singleton_append, read?, if_neg hlt, if_neg hamp]
    rfl

theorem reads_reference {name : List Char} (hlt : '<' ∉ name)
    (h : ∀ rest, readReference? names (name ++ rest) = some ([c], rest)) :
    Reads names ('&' :: name) [.char c] where
  brackets := by simp [List.filterMap, Item.tag?, List.count_eq_zero_of_not_mem hlt]
  reads rest := by
    rw [List.cons_append, read?, if_neg (by decide), if_pos rfl]
    split
    · next heq =>
      obtain ⟨rfl, rfl⟩ := Prod.mk.inj (Option.some.inj (heq.symm.trans (h rest)))
      rfl
    · next heq => cases heq.symm.trans (h rest)

theorem reads_escapeChar (names : Names) (c : Char) : Reads names (escapeChar c) [.char c] := by
  obtain ⟨name, heq, _, hlt, hread⟩ | ⟨heq, hamp, hlt, _⟩ := escapeChar_cases c
  · rw [heq]
    exact reads_reference hlt (hread names)
  · rw [heq]
    exact reads_char hlt hamp

/-- Escaped text is read as the characters of the text. -/
theorem reads_escape (names : Names) (s : List Char) : Reads names (escape s) (s.map .char) := by
  induction s with
  | nil => exact reads_nil
  | cons c s ih => exact (reads_escapeChar names c).append ih

/-- The start of a tag up to its name. -/
def tagStart (closing : Bool) : List Char := if closing then ['<', '/'] else ['<']

theorem readTagBody?_tag (closing slash : Bool) {name : String} {as : List (String × String)}
    (hname : IsTagName name) (hs : ReadsAttributes names s as) (rest : List Char) :
    readTagBody? names closing (name.toList ++ (s ++ (tagEnd slash ++ rest))) =
      some (⟨closing, name, as, slash⟩, rest) := by
  have hread : readAttributes? names (s ++ (tagEnd slash ++ rest)) = some (as, slash, rest) := by
    rw [hs.reads, readAttributes?_tagEnd, Option.map_some, List.append_nil]
  have hstop := isNameChar_eq_false_of_readAttributes? hread
  unfold readTagBody?
  simp only [takeWhile_append_of_head? hname.2 hstop, dropWhile_append_of_head? hname.2 hstop,
    if_pos hname.1, hread, Option.map_some, String.ofList_toList]

theorem readTag?_of_readTagBody? {closing : Bool} {name : String} (hname : IsTagName name) {s}
    {read} (h : readTagBody? names closing (name.toList ++ s) = some read) :
    ∃ s', tagStart closing ++ (name.toList ++ s) = '<' :: s' ∧ readTag? names s' = some read := by
  cases closing with
  | true => exact ⟨'/' :: (name.toList ++ s), rfl, h⟩
  | false =>
    refine ⟨name.toList ++ s, rfl, ?_⟩
    unfold readTag?
    split
    · next rest heq =>
      have hhead := hname.1
      cases hchars : name.toList with
      | nil => simp [hchars] at hhead
      | cons c cs =>
        rw [hchars, List.cons_append, List.cons.injEq] at heq
        rw [hchars, heq.1] at hhead
        exact Bool.noConfusion hhead
    · exact h

theorem count_tag (closing slash : Bool) {name : String} (hname : IsTagName name) (hs : '<' ∉ s) :
    (tagStart closing ++ (name.toList ++ (s ++ tagEnd slash))).count '<' = 1 := by
  have hend : '<' ∉ tagEnd slash := by cases slash <;> decide
  have hstart : (tagStart closing).count '<' = 1 := by cases closing <;> rfl
  simp [hstart, List.count_eq_zero_of_not_mem hend, List.count_eq_zero_of_not_mem hs,
    List.count_eq_zero_of_not_mem (lt_not_mem_of_isNameChar hname.2)]

/-- A tag is read back. -/
theorem reads_tag (closing slash : Bool) {name : String} {as : List (String × String)}
    (hname : IsTagName name) (hs : ReadsAttributes names s as) :
    Reads names (tagStart closing ++ (name.toList ++ (s ++ tagEnd slash)))
      [.tag ⟨closing, name, as, slash⟩] where
  brackets := count_tag closing slash hname hs.bracket
  reads rest := by
    obtain ⟨s', heq, hread⟩ :=
      readTag?_of_readTagBody? hname (readTagBody?_tag closing slash hname hs rest)
    have happ : tagStart closing ++ (name.toList ++ (s ++ tagEnd slash)) ++ rest = '<' :: s' := by
      rw [← heq]
      simp only [List.append_assoc]
    rw [happ, read?, if_pos rfl]
    split
    · next t after ht =>
      obtain ⟨rfl, rfl⟩ := Prod.mk.inj (Option.some.inj (ht.symm.trans hread))
      rfl
    · next ht => cases ht.symm.trans hread

end WikiPress.Html
