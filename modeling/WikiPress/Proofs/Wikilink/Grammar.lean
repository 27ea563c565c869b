import Mathlib.Data.List.Basic
import WikiPress.Proofs.Text.Blank
import WikiPress.Proofs.Text.Offset
import WikiPress.Wikilink

/-!
# The grammar of wikilinks

The inner text of a wikilink is read from left to right in pieces: a backslash together with the
character behind it, a pair of opening brackets, a pair of closing ones, or a single character.  The
pairs in it are balanced, and no piece of it has a line feed.  A wikilink is the shortest text of
this kind between two opening and two closing brackets.

The scanner stops at the first pair of closing brackets that has no partner, so it stops at the
shortest inner text there is, and looks at nothing behind it.

## Main definitions

* `Wikilink.Piece`, `Wikilink.Reads` : the pieces of a text.
* `Wikilink.Balanced`, `Wikilink.Closes` : inner texts in which all pairs are closed.
* `Wikilink.IsInner` : the inner text of the wikilink that a text begins with.
* `Wikilink.IsParts` : its target and its label.

## Main results

* `Wikilink.split?_eq_some_iff` : the scanner finds the inner text of a wikilink and nothing else.
* `Wikilink.attempt_rule` : what the rule for wikilinks does with any text.
-/

namespace WikiPress.Wikilink

open Text

/-! ### Pieces of a text -/

/-- A piece of the inner text of a wikilink. -/
inductive Piece where
  /-- A backslash and the character behind it. -/
  | escaped (c : Char)
  /-- Two opening brackets. -/
  | opening
  /-- Two closing brackets. -/
  | closing
  | single (c : Char)
  deriving DecidableEq

/-- A text is read as a list of pieces.  Brackets are taken in pairs where this can be done, and a
backslash takes the character behind it. -/
inductive Reads : List Char → List Piece → Prop
  | nil : Reads [] []
  | escaped {rest : List Char} {ps : List Piece} (c : Char) :
      Reads rest ps → Reads ('\\' :: c :: rest) (.escaped c :: ps)
  | opening {rest : List Char} {ps : List Piece} :
      Reads rest ps → Reads ('[' :: '[' :: rest) (.opening :: ps)
  | closing {rest : List Char} {ps : List Piece} :
      Reads rest ps → Reads (']' :: ']' :: rest) (.closing :: ps)
  | single {rest : List Char} {ps : List Piece} {c : Char} : c ≠ '\\' →
      (c = '[' → rest.head? ≠ some '[') → (c = ']' → rest.head? ≠ some ']') →
      Reads rest ps → Reads (c :: rest) (.single c :: ps)

/-- Among pieces, nothing is closed that has not been opened, and in the end all is closed; `depth`
pairs have been opened before. -/
structure Balanced (depth : Nat) (ps : List Piece) : Prop where
  closing_le : ∀ qs, qs <+: ps → qs.count .closing ≤ depth + qs.count .opening
  closing_eq : ps.count .closing = depth + ps.count .opening

/-- An inner text that closes what has been opened in it and is on one line. -/
def Closes (depth : Nat) (inner : List Char) : Prop :=
  ∃ ps, Reads inner ps ∧ Balanced depth ps ∧ '\n' ∉ inner

/-- A text begins with a wikilink that has the given inner text: of the texts between two opening
and two closing brackets that it may be, it is the shortest. -/
structure IsInner (text inner : List Char) : Prop where
  closes : Closes 0 inner
  begins : '[' :: '[' :: (inner ++ [']', ']']) <+: text
  shortest : ∀ other, Closes 0 other → '[' :: '[' :: (other ++ [']', ']']) <+: text →
    inner.length ≤ other.length

/-- The target and the label of an inner text: what stands in front of its first bar and behind it.
Without a bar, or with nothing behind it, the target is the label as well. -/
inductive IsParts : List Char → List Char → List Char → Prop
  | bare {inner : List Char} : '|' ∉ inner → IsParts inner inner inner
  | unlabelled {target : List Char} : '|' ∉ target → IsParts (target ++ ['|']) target target
  | labelled {target label : List Char} : '|' ∉ target → label ≠ [] →
      IsParts (target ++ '|' :: label) target label

/-! ### Balanced pieces -/

variable {depth : Nat} {p : Piece} {ps : List Piece} {inner rest before s : List Char}

theorem balanced_nil : Balanced depth [] ↔ depth = 0 := by
  refine ⟨fun h => ?_, ?_⟩
  · simpa [eq_comm] using h.closing_eq
  · rintro rfl
    exact ⟨fun qs hqs => by simp [List.prefix_nil.mp hqs], rfl⟩

theorem count_cons_eq (q p : Piece) (ps : List Piece) :
    (p :: ps).count q = [p].count q + ps.count q := by
  rw [← List.singleton_append, List.count_append]

theorem balanced_cons :
    Balanced depth (p :: ps) ↔
      ∃ d, depth + [p].count .opening = d + [p].count .closing ∧ Balanced d ps := by
  constructor
  · intro h
    have hp := h.closing_le [p] (by simp)
    refine ⟨depth + [p].count .opening - [p].count .closing, by omega, fun qs hqs => ?_, ?_⟩
    · have hle := h.closing_le (p :: qs) (by simpa using hqs)
      rw [count_cons_eq, count_cons_eq .opening] at hle
      omega
    · have heq := h.closing_eq
      rw [count_cons_eq, count_cons_eq .opening] at heq
      omega
  · rintro ⟨d, hd, h⟩
    refine ⟨fun qs hqs => ?_, ?_⟩
    · cases qs with
      | nil => simp
      | cons q qs =>
        obtain ⟨rfl, hqs'⟩ := List.cons_prefix_cons.mp hqs
        have hle := h.closing_le qs hqs'
        rw [count_cons_eq, count_cons_eq .opening]
        omega
    · have heq := h.closing_eq
      rw [count_cons_eq, count_cons_eq .opening]
      omega

theorem balanced_opening : Balanced depth (.opening :: ps) ↔ Balanced (depth + 1) ps := by
  simp [balanced_cons]

theorem balanced_closing : Balanced depth (.closing :: ps) ↔ ∃ d, depth = d + 1 ∧ Balanced d ps := by
  simp [balanced_cons]

theorem balanced_escaped {c : Char} :
    Balanced depth (.escaped c :: ps) ↔ Balanced depth ps := by
  simp [balanced_cons]

theorem balanced_single {c : Char} : Balanced depth (.single c :: ps) ↔ Balanced depth ps := by
  simp [balanced_cons]

/-! ### The scanner -/

/-- What the scanner finds is read as balanced pieces. -/
theorem closes_of_splitClose? (h : splitClose? depth before s = some (inner, rest)) :
    ∃ more, inner = before.reverse ++ more ∧ s = more ++ ']' :: ']' :: rest ∧ Closes depth more := by
  fun_induction splitClose? depth before s with
  | case1 => exact nomatch h
  | case2 => exact nomatch h
  | case3 depth before c s hc ih =>
    obtain ⟨more, rfl, rfl, ps, hreads, hbalanced, hline⟩ := ih h
    exact ⟨'\\' :: c :: more, by simp, rfl, _, hreads.escaped c, balanced_escaped.mpr hbalanced,
      by simpa [hline] using Ne.symm hc⟩
  | case4 depth before s ih =>
    obtain ⟨more, rfl, rfl, ps, hreads, hbalanced, hline⟩ := ih h
    exact ⟨'[' :: '[' :: more, by simp, rfl, _, hreads.opening, balanced_opening.mpr hbalanced,
      by simpa using hline⟩
  | case5 before s =>
    obtain ⟨rfl, rfl⟩ := Prod.mk.inj (Option.some.inj h)
    exact ⟨[], by simp, rfl, [], .nil, balanced_nil.mpr rfl, by simp⟩
  | case6 before s depth ih =>
    obtain ⟨more, rfl, rfl, ps, hreads, hbalanced, hline⟩ := ih h
    exact ⟨']' :: ']' :: more, by simp, rfl, _, hreads.closing,
      balanced_closing.mpr ⟨depth, rfl, hbalanced⟩, by simpa using hline⟩
  | case7 => exact nomatch h
  | case8 depth before c s hescaped hopening hclosing hc ih =>
    obtain ⟨more, rfl, rfl, ps, hreads, hbalanced, hline⟩ := ih h
    refine ⟨c :: more, by simp, rfl, _, .single ?_ ?_ ?_ hreads, balanced_single.mpr hbalanced,
      by simpa [hline] using Ne.symm hc⟩
    · rintro rfl
      cases more with
      | nil => exact hescaped _ _ rfl rfl
      | cons d more => exact hescaped _ _ rfl rfl
    · rintro rfl hhead
      obtain ⟨more, rfl⟩ := List.head?_eq_some_iff.mp hhead
      exact hopening _ rfl rfl
    · rintro rfl hhead
      obtain ⟨more, rfl⟩ := List.head?_eq_some_iff.mp hhead
      exact hclosing _ rfl rfl

theorem splitClose?_single {c : Char} (hescaped : c ≠ '\\') (hopening : c = '[' → s.head? ≠ some '[')
    (hclosing : c = ']' → s.head? ≠ some ']') (hline : c ≠ '\n') :
    splitClose? depth before (c :: s) = splitClose? depth (c :: before) s := by
  rw [splitClose?, if_neg hline]
  · rintro d rest rfl
    exact absurd rfl hescaped
  · rintro rest rfl rfl
    exact hopening rfl rfl
  · rintro rest rfl rfl
    exact hclosing rfl rfl

/-- In front of two closing brackets, the scanner finds a text that it may be, or one that is
shorter. -/
theorem exists_splitClose? (hreads : Reads inner ps) (hbalanced : Balanced depth ps)
    (hline : '\n' ∉ inner) (before rest : List Char) :
    ∃ more tail, more <+: inner ∧
      splitClose? depth before (inner ++ ']' :: ']' :: rest) =
        some (before.reverse ++ more, tail) := by
  induction hreads generalizing depth before with
  | nil =>
    obtain rfl := balanced_nil.mp hbalanced
    exact ⟨[], rest, by simp, by simp [splitClose?]⟩
  | @escaped more ps c _ ih =>
    simp only [List.mem_cons, not_or] at hline
    obtain ⟨found, tail, hfound, heq⟩ :=
      ih (balanced_escaped.mp hbalanced) hline.2.2 (c :: '\\' :: before)
    refine ⟨'\\' :: c :: found, tail, by simpa using hfound, ?_⟩
    simp [splitClose?, Ne.symm hline.2.1, heq]
  | @opening more ps _ ih =>
    simp only [List.mem_cons, not_or] at hline
    obtain ⟨found, tail, hfound, heq⟩ :=
      ih (balanced_opening.mp hbalanced) hline.2.2 ('[' :: '[' :: before)
    exact ⟨'[' :: '[' :: found, tail, by simpa using hfound, by simp [splitClose?, heq]⟩
  | @closing more ps _ ih =>
    simp only [List.mem_cons, not_or] at hline
    obtain ⟨d, rfl, hrest⟩ := balanced_closing.mp hbalanced
    obtain ⟨found, tail, hfound, heq⟩ := ih hrest hline.2.2 (']' :: ']' :: before)
    exact ⟨']' :: ']' :: found, tail, by simpa using hfound, by simp [splitClose?, heq]⟩
  | @single more ps c hescaped hopening hclosing hmore ih =>
    simp only [List.mem_cons, not_or] at hline
    rw [balanced_single] at hbalanced
    by_cases hlast : c = ']' ∧ more = []
    · -- The bracket and the first of the two behind it are a pair, which closes the wikilink before.
      obtain ⟨rfl, rfl⟩ := hlast
      cases hmore
      obtain rfl := balanced_nil.mp hbalanced
      exact ⟨[], ']' :: rest, by simp, by simp [splitClose?]⟩
    · obtain ⟨found, tail, hfound, heq⟩ := ih hbalanced hline.2 (c :: before)
      refine ⟨c :: found, tail, by simpa using hfound, ?_⟩
      rw [List.cons_append, splitClose?_single hescaped ?_ ?_ (Ne.symm hline.1), heq]
      · simp
      · intro hc
        cases more with
        | nil => simp
        | cons d more => simpa using hopening hc
      · intro hc
        cases more with
        | nil => exact absurd ⟨hc, rfl⟩ hlast
        | cons d more => simpa using hclosing hc

/-- The scanner finds the inner text of a wikilink and nothing else. -/
theorem split?_eq_some_iff :
    split? s = some (inner, rest) ↔
      IsInner s inner ∧ s = '[' :: '[' :: (inner ++ ']' :: ']' :: rest) := by
  have hfound : ∀ other tail, Closes 0 other → s = '[' :: '[' :: (other ++ ']' :: ']' :: tail) →
      ∃ found rest, found <+: other ∧ split? s = some (found, rest) := by
    rintro other tail ⟨ps, hreads, hbalanced, hline⟩ rfl
    obtain ⟨found, rest, hprefix, heq⟩ := exists_splitClose? hreads hbalanced hline [] tail
    exact ⟨found, rest, hprefix, heq⟩
  have hinner : ∀ {inner rest}, split? s = some (inner, rest) →
      IsInner s inner ∧ s = '[' :: '[' :: (inner ++ ']' :: ']' :: rest) := by
    intro inner rest h
    obtain ⟨more, hmore, hs, hcloses⟩ : ∃ more, inner = more ∧
        s = '[' :: '[' :: (more ++ ']' :: ']' :: rest) ∧ Closes 0 more := by
      unfold split? at h
      split at h
      · obtain ⟨more, hmore, rfl, hcloses⟩ := closes_of_splitClose? h
        exact ⟨more, hmore, rfl, hcloses⟩
      · exact nomatch h
    subst hmore
    refine ⟨⟨hcloses, ⟨rest, by simp [hs]⟩, fun other hother ⟨tail, htail⟩ => ?_⟩, hs⟩
    obtain ⟨found, rest', hprefix, heq⟩ := hfound other tail hother (by simp [← htail])
    obtain ⟨rfl, -⟩ := Prod.mk.inj (Option.some.inj (h.symm.trans heq))
    exact hprefix.length_le
  refine ⟨hinner, fun ⟨h, hs⟩ => ?_⟩
  obtain ⟨found, tail, hprefix, heq⟩ := hfound inner rest h.closes hs
  obtain ⟨hshort, hs'⟩ := hinner heq
  obtain rfl : found = inner :=
    hprefix.eq_of_length_le (h.shortest found hshort.closes hshort.begins)
  rw [heq]
  simpa using hs'.symm.trans hs

/-- A text has the inner text of a wikilink exactly if the scanner finds one. -/
theorem exists_split?_iff : (∃ rest, split? s = some (inner, rest)) ↔ IsInner s inner := by
  refine ⟨fun ⟨rest, h⟩ => (split?_eq_some_iff.mp h).1, fun h => ?_⟩
  obtain ⟨rest, hrest⟩ := h.begins
  exact ⟨rest, split?_eq_some_iff.mpr ⟨h, by simp [← hrest]⟩⟩

/-! ### Target and label -/

/-- The parts of an inner text are its target and its label. -/
theorem isParts_parts (inner : List Char) : IsParts inner (parts inner).1 (parts inner).2 := by
  have hbar : '|' ∉ inner.takeWhile (· ≠ '|') := fun h => by
    simpa using List.mem_takeWhile_imp h
  have hhead : ∀ c ∈ (inner.dropWhile (· ≠ '|')).head?, c = '|' := fun c hc => by
    simpa using eq_false_of_mem_head?_dropWhile hc
  have hinner := List.takeWhile_append_dropWhile (p := (· ≠ '|')) (l := inner)
  simp only [parts, drop_length_takeWhile]
  generalize inner.takeWhile (· ≠ '|') = target at hbar hinner ⊢
  generalize inner.dropWhile (· ≠ '|') = tail at hhead hinner ⊢
  cases tail with
  | nil =>
    rw [List.append_nil] at hinner
    exact hinner ▸ .bare hbar
  | cons c tail =>
    obtain rfl := hhead c rfl
    cases tail with
    | nil => exact hinner ▸ .unlabelled hbar
    | cons d label => exact hinner ▸ .labelled hbar (by simp)

/-! ### The rule -/

variable {slugger : Slugger} {p q : Place}

theorem attempt_of_isInner (h : IsInner p.rest inner) :
    (rule slugger).attempt p =
      ⟨true, tokens slugger inner, size ('[' :: '[' :: (inner ++ [']', ']']))⟩ := by
  obtain ⟨rest, hsplit⟩ := exists_split?_iff.mpr h
  have hopen : ('[' : Char).utf8Size = 1 := rfl
  have hclose : (']' : Char).utf8Size = 1 := rfl
  simp only [rule, hsplit, size_cons, size_append, size_nil, hopen, hclose]
  congr 1
  omega

theorem attempt_of_not_isInner (h : ∀ inner, ¬IsInner p.rest inner) :
    (rule slugger).attempt p = .declined := by
  cases hsplit : split? p.rest with
  | some link => exact absurd (exists_split?_iff.mp ⟨link.2, hsplit⟩) (h link.1)
  | none => simp [rule, hsplit]

/-- What stands behind a wikilink does not matter. -/
theorem IsInner.of_begins (h : IsInner s inner) {t : List Char}
    (ht : '[' :: '[' :: (inner ++ [']', ']']) <+: t) : IsInner t inner := by
  refine ⟨h.closes, ht, fun other hother hbegins => ?_⟩
  rcases Nat.le_total inner.length other.length with hle | hle
  · exact hle
  · refine h.shortest other hother (List.IsPrefix.trans ?_ h.begins)
    exact List.prefix_of_prefix_length_le hbegins ht (by simp; omega)

/-- A wikilink ends in the line in which it begins. -/
theorem isInner_line_iff : IsInner (s.takeWhile (· ≠ '\n')) inner ↔ IsInner s inner := by
  have hline : s.takeWhile (· ≠ '\n') <+: s := List.takeWhile_prefix _
  have hbegins : ∀ other, Closes 0 other → '[' :: '[' :: (other ++ [']', ']']) <+: s →
      '[' :: '[' :: (other ++ [']', ']']) <+: s.takeWhile (· ≠ '\n') := by
    rintro other ⟨-, -, -, hother⟩ ⟨rest, rfl⟩
    rw [List.takeWhile_append_of_pos]
    · exact List.prefix_append _ _
    · rintro c hc
      simp only [List.mem_cons, List.mem_append, List.not_mem_nil, or_false] at hc
      rcases hc with rfl | rfl | hc | rfl | rfl
      · rfl
      · rfl
      · simpa using ne_of_mem_of_not_mem hc hother
      · rfl
      · rfl
  refine ⟨fun h => ?_, fun h => h.of_begins (hbegins inner h.closes h.begins)⟩
  exact ⟨h.closes, h.begins.trans hline, fun other hother ho =>
    h.shortest other hother (hbegins other hother ho)⟩

theorem matched_attempt_iff :
    ((rule slugger).attempt p).matched = true ↔ ∃ inner, IsInner p.rest inner := by
  refine ⟨fun hmatched => ?_, fun ⟨inner, h⟩ => by rw [attempt_of_isInner h]⟩
  by_contra hnot
  rw [attempt_of_not_isInner (not_exists.mp hnot)] at hmatched
  exact absurd hmatched (by decide)

/-- The rule does the same at two places whose texts begin with the same wikilinks, or with none. -/
theorem attempt_congr (h : ∀ inner, IsInner q.rest inner ↔ IsInner p.rest inner) :
    (rule slugger).attempt q = (rule slugger).attempt p := by
  by_cases hex : ∃ inner, IsInner p.rest inner
  · obtain ⟨inner, hp⟩ := hex
    rw [attempt_of_isInner hp, attempt_of_isInner ((h inner).mpr hp)]
  · have hp := not_exists.mp hex
    rw [attempt_of_not_isInner hp, attempt_of_not_isInner fun inner hq => hp inner ((h inner).mp hq)]

/-- **The rule for wikilinks recognises the grammar of wikilinks.**  It matches exactly where a text
begins with a wikilink.  It moves over the wikilink, brackets included, and gives a link to the slug
of its target with the label as its text.  Where it does not match it does nothing.  The result
depends neither on what stands behind the wikilink nor on what stands behind the line. -/
theorem attempt_rule (slugger : Slugger) (p : Place) :
    (((rule slugger).attempt p).matched = true ↔ ∃ inner, IsInner p.rest inner) ∧
    (∀ inner, IsInner p.rest inner →
      (∃ target label, IsParts inner target label ∧
        (rule slugger).attempt p =
          { matched := true
            tokens :=
              [{ kind := .linkOpen, tag := "a", nesting := 1, markup := "wikilink",
                  attributes := [("href", String.ofList (slugger.slug target))] },
                { kind := .text, content := String.ofList label },
                { kind := .linkClose, tag := "a", nesting := -1 }]
            advance := size ('[' :: '[' :: (inner ++ [']', ']'])) }) ∧
      ∀ q : Place, '[' :: '[' :: (inner ++ [']', ']']) <+: q.rest →
        (rule slugger).attempt q = (rule slugger).attempt p) ∧
    (((rule slugger).attempt p).matched = false → (rule slugger).attempt p = .declined) ∧
    ∀ q : Place, q.rest = p.line → (rule slugger).attempt q = (rule slugger).attempt p := by
  refine ⟨matched_attempt_iff, fun inner h => ⟨?_, fun q hq => ?_⟩, fun hnot => ?_, fun q hq => ?_⟩
  · exact ⟨_, _, isParts_parts inner, attempt_of_isInner h⟩
  · rw [attempt_of_isInner h, attempt_of_isInner (h.of_begins hq)]
  · refine attempt_of_not_isInner fun inner h => ?_
    exact Bool.false_ne_true (hnot.symm.trans (matched_attempt_iff.mpr ⟨inner, h⟩))
  · refine attempt_congr fun inner => ?_
    rw [hq]
    exact isInner_line_iff

/-- A wikilink with an escaped bracket, an inner pair, and more closing brackets behind it.  The rule
moves over its 21 bytes, also in another text that begins in the same way. -/
theorem attempt_rule_nested :
    let p : Place :=
      { text := "[[Grö\\]ße[[x]]|é]]]] end".toList, startsLine := true, endsLine := true }
    let q : Place :=
      { text := "[[Grö\\]ße[[x]]|é]]\n".toList, startsLine := false, endsLine := true }
    IsInner p.rest "Grö\\]ße[[x]]|é".toList ∧
      ((rule .lowercase).attempt p).matched = true ∧
      ((rule .lowercase).attempt p).advance = 21 ∧
      (rule .lowercase).attempt q = (rule .lowercase).attempt p := by
  intro p q
  have hinner : IsInner p.rest "Grö\\]ße[[x]]|é".toList :=
    exists_split?_iff.mp ⟨"]] end".toList, by decide +kernel⟩
  obtain ⟨hmatched, hattempt, -, -⟩ := attempt_rule .lowercase p
  obtain ⟨⟨target, label, -, heq⟩, hsame⟩ := hattempt _ hinner
  have hadvance : ((rule .lowercase).attempt p).advance = 21 := by
    rw [heq]
    rfl
  exact ⟨hinner, hmatched.mpr ⟨_, hinner⟩, hadvance, hsame q ⟨['\n'], by decide +kernel⟩⟩

end WikiPress.Wikilink
