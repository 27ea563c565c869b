import Mathlib.Data.List.Basic
import WikiPress.Proofs.Splice.Piece

/-!
# Lines of tokens

Soft and hard breaks cut a list of tokens into lines.  A rule that looks at whole lines sees them in
the text of a run: the text of a line stands between two line feeds, as long as no token of the line
has one of its own.  What is left of the tokens between two ends of tokens are then the tokens
themselves, but for the empty texts.

## Main definitions

* `isBreak` : the tokens between which the lines stand.
* `Token.FitsLine` : a text or an escape that does not leave its line.
* `Thinned` : a list of tokens without some of its empty texts.

## Main results

* `lines_induction` : induction from the last line to the first one.
* `Run.between_eq_filter` : what is left of the tokens of a run between two of their ends.
* `Run.spliceFrom_nil_eq_filter` : what is left of the tokens of a run behind the last claim.
-/

namespace WikiPress

open Text

/-- A token that ends a line. -/
def isBreak (t : Token) : Bool := t.kind = .softBreak || t.kind = .hardBreak

/-- A text without characters. -/
def isEmptyText (t : Token) : Bool := t.kind = .text && t.content.isEmpty

/-- A text carries only its content, an escape is written as a backslash and one character, and
neither has a line feed. -/
structure Token.FitsLine (t : Token) : Prop where
  text : t.kind = .text → t = ofText t.content ∧ '\n' ∉ t.content.toList
  escape : t.kind = .textSpecial → ∃ c, t.markup.toList = ['\\', c] ∧ c ≠ '\n'

/-- Some of the empty texts of a list are dropped, and all other tokens are kept. -/
def Thinned (ts out : List Token) : Prop :=
  out.Sublist ts ∧ out.filter (!isEmptyText ·) = ts.filter (!isEmptyText ·)

section Tokens

variable {t : Token} {ts us out out' : List Token}

theorem isPlain_of_isBreak (h : isBreak t = true) : t.kind.isPlain = true := by
  simp only [isBreak, Bool.or_eq_true, decide_eq_true_eq] at h
  rcases h with h | h <;> rw [h] <;> rfl

theorem isBreak_of_isPlain_eq_false (h : t.kind.isPlain = false) : isBreak t = false := by
  by_contra hbreak
  rw [isPlain_of_isBreak (by simpa using hbreak)] at h
  exact nomatch h

theorem scanText_of_isBreak (h : isBreak t = true) : scanText t = ['\n'] := by
  simp only [isBreak, Bool.or_eq_true, decide_eq_true_eq] at h
  rcases h with h | h <;> simp [scanText, h]

theorem isEmptyText_of_isBreak (h : isBreak t = true) : isEmptyText t = false := by
  simp only [isBreak, Bool.or_eq_true, decide_eq_true_eq] at h
  rcases h with h | h <;> simp [isEmptyText, h]

/-- A plain token that ends no line is a text or an escape. -/
theorem text_or_escape (hplain : t.kind.isPlain = true) (hbreak : isBreak t = false) :
    t.kind = .text ∨ t.kind = .textSpecial := by
  simp only [isBreak, Bool.or_eq_false_iff, decide_eq_false_iff_not] at hbreak
  cases hkind : t.kind <;> simp_all [TokenKind.isPlain]

theorem isBreak_eq_false (h : t.kind = .text ∨ t.kind = .textSpecial) : isBreak t = false := by
  rcases h with h | h <;> simp [isBreak, h]

theorem Token.FitsLine.of_kind_ne (htext : t.kind ≠ .text) (hescape : t.kind ≠ .textSpecial) :
    t.FitsLine := ⟨fun h => absurd h htext, fun h => absurd h hescape⟩

theorem Token.FitsLine.ofText {content : String} (h : '\n' ∉ content.toList) :
    (Token.ofText content).FitsLine := ⟨fun _ => ⟨rfl, h⟩, nofun⟩

theorem Token.FitsLine.notMem_scanText (h : t.FitsLine) (hplain : t.kind.isPlain = true)
    (hbreak : isBreak t = false) : '\n' ∉ scanText t := by
  rcases text_or_escape hplain hbreak with hkind | hkind
  · simpa [scanText, hkind] using (h.text hkind).2
  · obtain ⟨c, hmarkup, hc⟩ := h.escape hkind
    simp [scanText, hkind, hmarkup, Ne.symm hc]

theorem Token.FitsLine.scanText_ne_nil (h : t.FitsLine) (hplain : t.kind.isPlain = true)
    (hkind : t.kind ≠ .text) : scanText t ≠ [] := by
  by_cases hbreak : isBreak t = true
  · simp [scanText_of_isBreak hbreak]
  · have hescape := (text_or_escape hplain (by simpa using hbreak)).resolve_left hkind
    obtain ⟨c, hmarkup, -⟩ := h.escape hescape
    simp [scanText, hescape, hmarkup]

/-! ### Dropping empty texts -/

theorem Thinned.refl (ts : List Token) : Thinned ts ts := ⟨List.Sublist.refl ts, rfl⟩

theorem thinned_filter (ts : List Token) : Thinned ts (ts.filter (!isEmptyText ·)) :=
  ⟨List.filter_sublist, by rw [List.filter_filter, funext fun t => Bool.and_self _]⟩

theorem Thinned.append (h : Thinned ts out) (h' : Thinned us out') :
    Thinned (ts ++ us) (out ++ out') :=
  ⟨h.1.append h'.1, by rw [List.filter_append, List.filter_append, h.2, h'.2]⟩

theorem thinned_nil_iff : Thinned [] out ↔ out = [] := by
  constructor
  · exact fun h => List.sublist_nil.mp h.1
  · rintro rfl
    exact .refl []

theorem Thinned.mem_of_mem (h : Thinned ts out) (ht : t ∈ out) : t ∈ ts := h.1.subset ht

/-- The dropped tokens are empty texts. -/
theorem Thinned.mem_or (h : Thinned ts out) (ht : t ∈ ts) : t ∈ out ∨ isEmptyText t = true := by
  by_cases hempty : isEmptyText t = true
  · exact .inr hempty
  · have hmem : t ∈ out.filter (!isEmptyText ·) := by
      rw [h.2, List.mem_filter]
      exact ⟨ht, by simpa using hempty⟩
    exact .inl (List.mem_filter.mp hmem).1

theorem scanText_of_isEmptyText (h : isEmptyText t = true) : scanText t = [] := by
  simp only [isEmptyText, Bool.and_eq_true, decide_eq_true_eq, String.isEmpty_iff] at h
  simp [scanText, h.1, h.2]

theorem flatMap_scanText_filter (ts : List Token) :
    (ts.filter (!isEmptyText ·)).flatMap scanText = ts.flatMap scanText := by
  induction ts with
  | nil => rfl
  | cons t ts ih =>
    rw [List.filter_cons]
    split
    · rw [List.flatMap_cons, List.flatMap_cons, ih]
    · next hempty =>
      rw [List.flatMap_cons, scanText_of_isEmptyText (by simpa using hempty), List.nil_append, ih]

theorem Thinned.flatMap_scanText (h : Thinned ts out) :
    out.flatMap scanText = ts.flatMap scanText := by
  rw [← flatMap_scanText_filter out, h.2, flatMap_scanText_filter]

end Tokens

/-! ### Lines -/

/-- Induction from the last line to the first one. -/
@[elab_as_elim]
theorem lines_induction {motive : List Token → Prop}
    (last : ∀ line, (∀ t ∈ line, isBreak t = false) → motive line)
    (next : ∀ line b rest, (∀ t ∈ line, isBreak t = false) → isBreak b = true → motive rest →
      motive (line ++ b :: rest)) (ts : List Token) : motive ts := by
  -- A token in front of a list of lines joins the first one.
  suffices h : ∀ line, (∀ t ∈ line, isBreak t = false) → motive (line ++ ts) from
    h [] (fun _ ht => absurd ht List.not_mem_nil)
  induction ts with
  | nil =>
    intro line hline
    rw [List.append_nil]
    exact last line hline
  | cons t ts ih =>
    intro line hline
    cases ht : isBreak t with
    | true => exact next line t ts hline ht (ih [] fun _ hu => absurd hu List.not_mem_nil)
    | false =>
      rw [← List.singleton_append, ← List.append_assoc]
      refine ih (line ++ [t]) ?_
      rw [List.forall_mem_append, List.forall_mem_singleton]
      exact ⟨hline, ht⟩

/-! ### What is left between two ends of tokens -/

namespace Run

section Between

variable {text u v : List Char} {start stop n : Nat} {t : Token} {ts : List Token}

theorem cut_eq_nil {piece : Piece} (h : piece.stop ≤ start ∨ stop ≤ piece.start) :
    cut text start stop piece = [] := by
  simp [cut, h]

/-- Of a token between the two positions all is left, unless it is an empty text. -/
theorem cut_of_le (hplain : t.kind.isPlain = true) (hfits : t.FitsLine)
    (htext : text = u ++ scanText t ++ v) (hstart : start ≤ size u)
    (hstop : size u + size (scanText t) ≤ stop) :
    cut text start stop ⟨t, size u, size u + size (scanText t)⟩ =
      [t].filter (!isEmptyText ·) := by
  by_cases hkind : t.kind = .text
  · have hslice : sliceBytes? text (max (size u) start) (min (size u + size (scanText t)) stop) =
        some (scanText t) := by
      rw [Nat.max_eq_left hstart, Nat.min_eq_left hstop]
      exact sliceBytes?_eq_some_iff.mpr ⟨u, v, htext, rfl, rfl⟩
    have hcontent : t.content.toList = scanText t := by simp [scanText, hkind]
    cases hs : scanText t with
    | nil =>
      have hempty : isEmptyText t = true := by
        rw [hs, String.toList_eq_nil_iff] at hcontent
        simp [isEmptyText, hkind, hcontent]
      rw [hs, size_nil, Nat.add_zero] at hslice
      simp [cut, hkind, hslice, hempty]
    | cons c s =>
      have hne : t.content ≠ "" := by
        rintro hempty
        rw [hs, hempty] at hcontent
        exact List.cons_ne_nil c s hcontent.symm
      have hpos := c.utf8Size_pos
      rw [hs, size_cons] at hstop
      rw [hs] at hslice hcontent
      rw [cut, if_neg (by omega), if_neg (by simp only [size_cons]; omega), if_pos hkind]
      simp only [hslice]
      rw [← hcontent, String.ofList_toList, ← (hfits.text hkind).1]
      simp [isEmptyText, hne]
  · have hpos := size_pos_of_ne_nil (hfits.scanText_ne_nil hplain hkind)
    rw [cut_of_ne_text hkind (by simp only; omega), if_pos ⟨hstart, hstop⟩]
    simp [isEmptyText, hkind]

/-- Of the tokens between the two positions all are left but the empty texts. -/
theorem flatMap_cut_of_le (hplain : ∀ t ∈ ts, t.kind.isPlain = true) (hfits : ∀ t ∈ ts, t.FitsLine)
    (htext : text = u ++ ts.flatMap scanText ++ v) (hstart : start ≤ size u)
    (hstop : size u + size (ts.flatMap scanText) ≤ stop) :
    (placeFrom (size u) ts).flatMap (cut text start stop) = ts.filter (!isEmptyText ·) := by
  induction ts generalizing u with
  | nil => rfl
  | cons t ts ih =>
    rw [List.forall_mem_cons] at hplain hfits
    rw [List.flatMap_cons, size_append] at hstop
    have hrest := ih hplain.2 hfits.2 (u := u ++ scanText t) (by rw [htext]; simp)
      (by rw [size_append]; omega) (by rw [size_append]; omega)
    have htext' : text = u ++ scanText t ++ (ts.flatMap scanText ++ v) := by rw [htext]; simp
    rw [size_append] at hrest
    rw [placeFrom, List.flatMap_cons, hrest, cut_of_le hplain.1 hfits.1 htext' hstart (by omega),
      ← List.filter_append, List.singleton_append]

/-- Of tokens on one side of the two positions nothing is left. -/
theorem flatMap_cut_eq_nil (ts : List Token)
    (h : n + size (ts.flatMap scanText) ≤ start ∨ stop ≤ n) :
    (placeFrom n ts).flatMap (cut text start stop) = [] := by
  rw [List.flatMap_eq_nil_iff]
  intro piece hpiece
  have hstart := le_start_of_mem_placeFrom hpiece
  have hstop := stop_le_of_mem_placeFrom hpiece
  exact cut_eq_nil (by omega)

end Between

/-- What is left of the tokens of a run between two of their ends are the tokens between them, but
for the empty texts. -/
theorem between_eq_filter {startsLine endsLine : Bool} {r : Run} {before ts after : List Token}
    (hr : r = ofTokens startsLine endsLine (before ++ ts ++ after))
    (hplain : ∀ t ∈ ts, t.kind.isPlain = true) (hfits : ∀ t ∈ ts, t.FitsLine) :
    r.between (size (before.flatMap scanText)) (size ((before ++ ts).flatMap scanText)) =
      ts.filter (!isEmptyText ·) := by
  subst hr
  rw [between, ofTokens, placeFrom_append, placeFrom_append, List.flatMap_append,
    List.flatMap_append, flatMap_cut_eq_nil before (.inl (by omega)),
    flatMap_cut_eq_nil after (.inr (by omega)), Nat.zero_add, List.nil_append,
    List.append_nil]
  refine flatMap_cut_of_le hplain hfits (v := after.flatMap scanText) ?_ (Nat.le_refl _) ?_
  · simp
  · simp

/-- Behind the last claim all tokens are left but the empty texts. -/
theorem spliceFrom_nil_eq_filter {startsLine endsLine : Bool} {r : Run} {before ts : List Token}
    (hr : r = ofTokens startsLine endsLine (before ++ ts))
    (hplain : ∀ t ∈ ts, t.kind.isPlain = true) (hfits : ∀ t ∈ ts, t.FitsLine) :
    r.spliceFrom (size (before.flatMap scanText)) [] = ts.filter (!isEmptyText ·) := by
  have htext : r.text = (before ++ ts).flatMap scanText := by rw [hr]; rfl
  rw [← List.append_nil (before ++ ts)] at hr
  rw [spliceFrom, htext, between_eq_filter hr hplain hfits]

end Run

end WikiPress
