import WikiPress.Proofs.Scan
import WikiPress.Splice

/-!
# What is left of the tokens of a run between two positions

The tokens of a run stand for the text of the run, each for its own part.  Between two positions
that part no escape, what is left of them stands for exactly the text between the positions, and
the escapes and breaks among them are the same tokens at the same places.

The text between two positions is described character by character: `within` keeps a character if
its first byte lies between them.  In this form it is a property of each token, and the tokens of a
run only have to be put one behind the other.

## Main definitions

* `within` : the characters of a text that begin between two positions.
* `Run.Keeps` : tokens that stand for the text of a run between two positions.
* `Parted` : a list of tokens in its parts, which are the runs and the other tokens.

## Main results

* `Run.flatMap_scanText_cut` : what is left of one token stands for its text between the positions.
* `Run.keeps_between` : the same for all tokens of a run.
* `parted_splitRuns` : a list of tokens is split into its parts.
* `spliceRules_induction` : induction over the parts of a list of tokens.
-/

namespace WikiPress

open Text

/-! ### Characters between two positions -/

/-- The characters of a text that begin between two positions; the text itself begins at `n`. -/
def within (start stop n : Nat) : List Char → List Char
  | [] => []
  | c :: s =>
    (if start ≤ n ∧ n < stop then [c] else []) ++ within start stop (n + c.utf8Size) s

section Within

variable {start stop n : Nat} {s t : List Char}

theorem within_append (start stop n : Nat) (s t : List Char) :
    within start stop n (s ++ t) =
      within start stop n s ++ within start stop (n + size s) t := by
  induction s generalizing n with
  | nil => simp [within]
  | cons c s ih => simp only [List.cons_append, within, ih, size_cons, List.append_assoc, Nat.add_assoc]

theorem within_of_le_start (h : n + size s ≤ start) : within start stop n s = [] := by
  induction s generalizing n with
  | nil => rfl
  | cons c s ih =>
    have := c.utf8Size_pos
    rw [size_cons] at h
    rw [within, if_neg (by omega), ih (by omega), List.append_nil]

theorem within_of_stop_le (h : stop ≤ n) : within start stop n s = [] := by
  induction s generalizing n with
  | nil => rfl
  | cons c s ih => rw [within, if_neg (by omega), ih (by omega), List.append_nil]

theorem within_of_stop_le_start (h : stop ≤ start) : within start stop n s = [] := by
  induction s generalizing n with
  | nil => rfl
  | cons c s ih => rw [within, if_neg (by omega), ih, List.append_nil]

theorem within_of_le (hstart : start ≤ n) (hstop : n + size s ≤ stop) :
    within start stop n s = s := by
  induction s generalizing n with
  | nil => rfl
  | cons c s ih =>
    have := c.utf8Size_pos
    rw [size_cons] at hstop
    rw [within, if_pos (by omega), ih (by omega) (by omega), List.singleton_append]

/-- Between two offsets lies a slice of the text. -/
theorem sliceBytes?_eq_within (hstart : IsOffset s start) (hstop : IsOffset s stop)
    (hle : start ≤ stop) : sliceBytes? s start stop = some (within start stop 0 s) := by
  obtain ⟨u, w, v, rfl, rfl, rfl⟩ := hstart.exists_between hstop hle
  have hu : within (size u) (size u + size w) 0 u = [] := within_of_le_start (by omega)
  have hv : within (size u) (size u + size w) (0 + size (u ++ w)) v = [] :=
    within_of_stop_le (by rw [size_append]; omega)
  have hw : within (size u) (size u + size w) (0 + size u) w = w :=
    within_of_le (by omega) (by omega)
  rw [within_append, within_append, hu, hw, hv, List.nil_append, List.append_nil]
  exact sliceBytes?_eq_some_iff.mpr ⟨u, v, rfl, rfl, rfl⟩

/-- Positions outside a text may be moved up to its ends. -/
theorem within_max_min {lo hi : Nat} (hlo : lo ≤ n) (hhi : n + size s ≤ hi) :
    within (max lo start) (min hi stop) n s = within start stop n s := by
  induction s generalizing n with
  | nil => rfl
  | cons c s ih =>
    have := c.utf8Size_pos
    rw [size_cons] at hhi
    have hiff : (max lo start ≤ n ∧ n < min hi stop) ↔ (start ≤ n ∧ n < stop) := by omega
    rw [within, within, ih (by omega) (by omega)]
    simp only [hiff]

/-- The slice of a text that falls into a part of it has the characters of the part between the
offsets. -/
theorem sliceBytes?_max_min {text u v : List Char} (htext : text = u ++ s ++ v)
    (hstart : IsOffset text start) (hstop : IsOffset text stop)
    (hle : max (size u) start ≤ min (size u + size s) stop) :
    sliceBytes? text (max (size u) start) (min (size u + size s) stop) =
      some (within start stop (size u) s) := by
  have hu : IsOffset text (size u) := ⟨u, s ++ v, by rw [htext, List.append_assoc], rfl⟩
  have hus : IsOffset text (size u + size s) := ⟨u ++ s, v, htext, size_append ..⟩
  have hbefore : within (max (size u) start) (min (size u + size s) stop) 0 u = [] :=
    within_of_le_start (by omega)
  have hafter : within (max (size u) start) (min (size u + size s) stop) (0 + size (u ++ s)) v =
      [] := within_of_stop_le (by rw [size_append]; omega)
  rw [sliceBytes?_eq_within (hu.max hstart) (hus.min hstop) hle, htext, within_append,
    within_append, hbefore, hafter, Nat.zero_add, within_max_min (Nat.le_refl _) (Nat.le_refl _),
    List.nil_append, List.append_nil]

/-- No character of a part of a text is cut at an offset of the text. -/
theorem le_or_le_of_isOffset {u v : List Char} {c : Char} {m : Nat}
    (h : IsOffset (u ++ c :: v) m) : m ≤ size u ∨ size u + c.utf8Size ≤ m := by
  by_contra hcut
  have := h.eq_of_lt_add rfl (by omega) (by omega)
  omega

/-- The characters between two offsets fill the place between them. -/
theorem add_size_within {u v : List Char} (hstart : IsOffset (u ++ s ++ v) start)
    (hstop : IsOffset (u ++ s ++ v) stop) (hle : start ≤ stop) :
    max start (min (size u) stop) + size (within start stop (size u) s) =
      max start (min (size u + size s) stop) := by
  induction s generalizing u with
  | nil => simp [within]
  | cons c s ih =>
    have hpos := c.utf8Size_pos
    rw [List.append_assoc] at hstart hstop
    have ha := le_or_le_of_isOffset hstart
    have hb := le_or_le_of_isOffset hstop
    have hmore := ih (u := u ++ [c]) (by simpa using hstart) (by simpa using hstop)
    simp only [size_append, size_cons, size_nil, Nat.add_zero] at hmore
    rw [within, size_cons, size_append]
    split
    · simp only [size_cons, size_nil]
      omega
    · rw [size_nil]
      omega

end Within

namespace Run

/-- Tokens that stand for the text of a run between two positions: they are plain, they spell this
text, and the escapes and breaks among them are those of the run, each at its place. -/
structure Keeps (r : Run) (start stop : Nat) (ts : List Token) : Prop where
  isPlain : ∀ t ∈ ts, t.kind.isPlain = true
  spells : sliceBytes? r.text start stop = some (ts.flatMap scanText)
  marks : ((placeFrom start ts).filter fun piece => piece.token.kind ≠ .text) =
    r.pieces.filter fun piece =>
      piece.token.kind ≠ .text ∧ start ≤ piece.start ∧ piece.stop ≤ stop

/-! ### One token -/

section Cut

variable {text u v : List Char} {start stop : Nat} {t : Token}

theorem scanText_ofText (s : List Char) : scanText (Token.ofText (String.ofList s)) = s := by
  simp [scanText, Token.ofText]

/-- Of an escape or a break all is left or nothing. -/
theorem cut_of_ne_text {piece : Piece} (hkind : piece.token.kind ≠ .text)
    (hsize : piece.start < piece.stop) :
    cut text start stop piece =
      if start ≤ piece.start ∧ piece.stop ≤ stop then [piece.token] else [] := by
  unfold cut
  split
  · rw [if_neg (by omega)]
  · split
    · rw [if_neg (by omega)]
    · rfl

theorem cut_of_text {piece : Piece} (hkind : piece.token.kind = .text) :
    ∀ t ∈ cut text start stop piece, t.kind = .text := by
  intro t ht
  unfold cut at ht
  split at ht
  · simp at ht
  · split at ht
    · simp at ht
    · split at ht
      · rw [List.mem_singleton.mp ht]
        rfl
      · simp at ht

/-- What is left of one token stands for its text between the positions. -/
theorem flatMap_scanText_cut (htext : text = u ++ scanText t ++ v)
    (hstart : IsOffset text start) (hstop : IsOffset text stop)
    (huncut : t.kind ≠ .text → ∀ n, n = start ∨ n = stop →
      n ≤ size u ∨ size u + size (scanText t) ≤ n) :
    (cut text start stop ⟨t, size u, size u + size (scanText t)⟩).flatMap scanText =
      within start stop (size u) (scanText t) := by
  by_cases hle : stop ≤ start
  · rw [cut, if_pos hle, within_of_stop_le_start hle]
    rfl
  by_cases hout : size u + size (scanText t) ≤ start ∨ stop ≤ size u
  · rw [cut, if_neg hle, if_pos hout]
    rcases hout with hout | hout
    · rw [within_of_le_start hout]
      rfl
    · rw [within_of_stop_le hout]
      rfl
  by_cases hkind : t.kind = .text
  · have hslice := sliceBytes?_max_min htext hstart hstop (by omega)
    rw [cut, if_neg hle, if_neg hout, if_pos hkind]
    simp only [hslice]
    cases within start stop (size u) (scanText t) with
    | nil => rfl
    | cons c w => rw [List.flatMap_singleton, scanText_ofText]
  · have hstart' := huncut hkind start (Or.inl rfl)
    have hstop' := huncut hkind stop (Or.inr rfl)
    have hin : start ≤ size u ∧ size u + size (scanText t) ≤ stop := by omega
    rw [cut, if_neg hle, if_neg hout, if_neg hkind, if_pos hin, List.flatMap_singleton,
      within_of_le hin.1 hin.2]

end Cut

/-! ### All tokens -/

/-- Escapes and breaks stand for some text. -/
def HasMarkup (ts : List Token) : Prop := ∀ t ∈ ts, t.kind = .textSpecial → t.markup ≠ ""

theorem placeFrom_append (n : Nat) (ts us : List Token) :
    placeFrom n (ts ++ us) = placeFrom n ts ++ placeFrom (n + size (ts.flatMap scanText)) us := by
  induction ts generalizing n with
  | nil => simp [placeFrom]
  | cons t ts ih => simp [placeFrom, ih, Nat.add_assoc]

theorem map_token_placeFrom (n : Nat) (ts : List Token) :
    (placeFrom n ts).map Piece.token = ts := by
  induction ts generalizing n with
  | nil => rfl
  | cons t ts ih => rw [placeFrom, List.map_cons, ih]

theorem token_mem_of_mem_placeFrom {n : Nat} {ts : List Token} {piece : Piece}
    (h : piece ∈ placeFrom n ts) : piece.token ∈ ts := by
  induction ts generalizing n with
  | nil => exact absurd h List.not_mem_nil
  | cons t ts ih =>
    rcases List.mem_cons.mp h with rfl | h
    · exact List.mem_cons_self ..
    · exact List.mem_cons_of_mem _ (ih h)

section All

variable {text u v : List Char} {start stop : Nat} {ts : List Token}

/-- What is left of some tokens of a run stands for their text between the positions. -/
theorem flatMap_scanText_flatMap_cut (htext : text = u ++ ts.flatMap scanText ++ v)
    (hstart : IsOffset text start) (hstop : IsOffset text stop)
    (huncut : ∀ piece ∈ placeFrom (size u) ts, piece.token.kind ≠ .text →
      ∀ n, n = start ∨ n = stop → n ≤ piece.start ∨ piece.stop ≤ n) :
    ((placeFrom (size u) ts).flatMap (cut text start stop)).flatMap scanText =
      within start stop (size u) (ts.flatMap scanText) := by
  induction ts generalizing u with
  | nil => rfl
  | cons t ts ih =>
    have hrest := ih (u := u ++ scanText t) (by rw [htext]; simp) (by
      intro piece hpiece
      exact huncut piece (List.mem_cons_of_mem _ (by rwa [size_append] at hpiece)))
    rw [size_append] at hrest
    rw [placeFrom, List.flatMap_cons, List.flatMap_append, List.flatMap_cons, within_append,
      hrest, flatMap_scanText_cut (v := ts.flatMap scanText ++ v) (by rw [htext]; simp) hstart
        hstop fun hkind => huncut _ (List.mem_cons_self ..) hkind]

/-- The escapes and breaks that are left of some tokens of a run keep their places. -/
theorem filter_placeFrom_flatMap_cut (htext : text = u ++ ts.flatMap scanText ++ v)
    (hstart : IsOffset text start) (hstop : IsOffset text stop) (hle : start ≤ stop)
    (huncut : ∀ piece ∈ placeFrom (size u) ts, piece.token.kind ≠ .text →
      ∀ n, n = start ∨ n = stop → n ≤ piece.start ∨ piece.stop ≤ n)
    (hsize : ∀ t ∈ ts, t.kind ≠ .text → scanText t ≠ []) :
    ((placeFrom (max start (min (size u) stop))
        ((placeFrom (size u) ts).flatMap (cut text start stop))).filter fun piece =>
          piece.token.kind ≠ .text) =
      (placeFrom (size u) ts).filter fun piece =>
        piece.token.kind ≠ .text ∧ start ≤ piece.start ∧ piece.stop ≤ stop := by
  induction ts generalizing u with
  | nil => rfl
  | cons t ts ih =>
    have htext' : text = (u ++ scanText t) ++ ts.flatMap scanText ++ v := by rw [htext]; simp
    have htext'' : text = u ++ scanText t ++ (ts.flatMap scanText ++ v) := by rw [htext]; simp
    have hrest := ih htext' (by
      intro piece hpiece
      exact huncut piece (List.mem_cons_of_mem _ (by rwa [size_append] at hpiece)))
      fun t ht => hsize t (List.mem_cons_of_mem _ ht)
    rw [size_append] at hrest
    have hspell := flatMap_scanText_cut htext'' hstart hstop fun hkind =>
      huncut _ (List.mem_cons_self ..) hkind
    have hplace := add_size_within (s := scanText t) (htext'' ▸ hstart) (htext'' ▸ hstop) hle
    rw [placeFrom, List.flatMap_cons, placeFrom_append, List.filter_append, hspell, hplace, hrest]
    rw [← List.singleton_append, List.filter_append]
    congr 1
    by_cases hkind : t.kind = .text
    · have hnone : ∀ piece ∈ placeFrom (max start (min (size u) stop))
          (cut text start stop ⟨t, size u, size u + size (scanText t)⟩),
          piece.token.kind = .text := fun piece hpiece =>
        @cut_of_text _ _ _ ⟨t, size u, size u + size (scanText t)⟩ hkind _
          (token_mem_of_mem_placeFrom hpiece)
      rw [List.filter_eq_nil_iff.mpr, List.filter_eq_nil_iff.mpr]
      · simp [hkind]
      · intro piece hpiece
        simp [hnone piece hpiece]
    · have hpos := size_pos_of_ne_nil (hsize t (List.mem_cons_self ..) hkind)
      rw [cut_of_ne_text hkind (by simp only; omega)]
      split
      · next hin =>
        simp only at hin
        have hmax : max start (min (size u) stop) = size u := by omega
        rw [hmax]
        simp [placeFrom, hkind, hin]
      · next hin =>
        simp only at hin
        simp [placeFrom, hin]

end All

/-! ### The tokens of a run -/

section OfTokens

variable {startsLine endsLine : Bool} {ts : List Token} {n start stop : Nat}

theorem stop_eq_of_mem_placeFrom {piece : Piece} (h : piece ∈ placeFrom n ts) :
    piece.stop = piece.start + size (scanText piece.token) := by
  induction ts generalizing n with
  | nil => exact absurd h List.not_mem_nil
  | cons t ts ih =>
    rcases List.mem_cons.mp h with rfl | h
    · rfl
    · exact ih h

theorem stop_le_of_mem_placeFrom {piece : Piece} (h : piece ∈ placeFrom n ts) :
    piece.stop ≤ n + size (ts.flatMap scanText) := by
  induction ts generalizing n with
  | nil => exact absurd h List.not_mem_nil
  | cons t ts ih =>
    rw [List.flatMap_cons, size_append, ← Nat.add_assoc]
    rcases List.mem_cons.mp h with rfl | h
    · exact Nat.le_add_right _ _
    · exact ih h

theorem le_start_of_mem_placeFrom {piece : Piece} (h : piece ∈ placeFrom n ts) :
    n ≤ piece.start := by
  induction ts generalizing n with
  | nil => exact absurd h List.not_mem_nil
  | cons t ts ih =>
    rcases List.mem_cons.mp h with rfl | h
    · exact Nat.le_refl n
    · exact Nat.le_trans (Nat.le_add_right _ _) (ih h)

/-- Between two tokens of a run there is no escape. -/
theorem insideEscape_of_append {before : List Token} {r : Run}
    (hr : r = ofTokens startsLine endsLine (before ++ ts)) :
    r.insideEscape (size (before.flatMap scanText)) = false := by
  subst hr
  rw [insideEscape, List.any_eq_false]
  intro piece hpiece hinside
  simp only [Bool.and_eq_true, decide_eq_true_eq] at hinside
  rw [ofTokens, placeFrom_append, List.mem_append, Nat.zero_add] at hpiece
  rcases hpiece with hpiece | hpiece
  · have hstop := stop_le_of_mem_placeFrom hpiece
    omega
  · have hstart := le_start_of_mem_placeFrom hpiece
    omega

theorem insideEscape_size (r : Run) (hr : r = ofTokens startsLine endsLine ts) :
    r.insideEscape (size r.text) = false := by
  rw [← List.append_nil ts] at hr
  have hnone := insideEscape_of_append hr
  rw [hr] at hnone ⊢
  simpa [ofTokens] using hnone

theorem scanText_of_isBreak {t : Token} (hplain : t.kind.isPlain = true)
    (htext : t.kind ≠ .text) (hescape : t.kind ≠ .textSpecial) : scanText t = ['\n'] := by
  unfold scanText
  cases hkind : t.kind <;> simp_all [TokenKind.isPlain]

theorem scanText_ne_nil (hplain : ∀ t ∈ ts, t.kind.isPlain = true) (hmarkup : HasMarkup ts) :
    ∀ t ∈ ts, t.kind ≠ .text → scanText t ≠ [] := by
  intro t ht htext
  by_cases hescape : t.kind = .textSpecial
  · have := hmarkup t ht hescape
    simpa [scanText, hescape] using this
  · rw [scanText_of_isBreak (hplain t ht) htext hescape]
    exact List.cons_ne_nil _ _

/-- A position outside the escapes of a run cuts none of its escapes and breaks. -/
theorem le_or_le_of_insideEscape (hplain : ∀ t ∈ ts, t.kind.isPlain = true)
    (h : (ofTokens startsLine endsLine ts).insideEscape n = false) :
    ∀ piece ∈ placeFrom 0 ts, piece.token.kind ≠ .text → n ≤ piece.start ∨ piece.stop ≤ n := by
  intro piece hpiece htext
  by_cases hescape : piece.token.kind = .textSpecial
  · have := List.any_eq_false.mp h piece hpiece
    simp only [hescape, decide_true, Bool.true_and, Bool.and_eq_true, decide_eq_true_eq,
      not_and, Nat.not_lt] at this
    omega
  · have hbreak := scanText_of_isBreak (hplain _ (token_mem_of_mem_placeFrom hpiece)) htext hescape
    have hstop := stop_eq_of_mem_placeFrom hpiece
    have hsize : size ['\n'] = 1 := rfl
    rw [hbreak, hsize] at hstop
    omega

/-- Between two positions outside the escapes, what is left of the tokens of a run stands for the
text between the positions. -/
theorem keeps_between (hplain : ∀ t ∈ ts, t.kind.isPlain = true) (hmarkup : HasMarkup ts)
    {r : Run} (hr : r = ofTokens startsLine endsLine ts)
    (hstart : IsOffset r.text start) (hstop : IsOffset r.text stop) (hle : start ≤ stop)
    (hstart' : r.insideEscape start = false) (hstop' : r.insideEscape stop = false) :
    r.Keeps start stop (r.between start stop) := by
  subst hr
  have htext : (ofTokens startsLine endsLine ts).text = [] ++ ts.flatMap scanText ++ [] := by
    rw [List.nil_append, List.append_nil]
    rfl
  have huncut : ∀ piece ∈ placeFrom (size []) ts, piece.token.kind ≠ .text →
      ∀ n, n = start ∨ n = stop → n ≤ piece.start ∨ piece.stop ≤ n := by
    rintro piece hpiece hkind n (rfl | rfl)
    · exact le_or_le_of_insideEscape hplain hstart' piece hpiece hkind
    · exact le_or_le_of_insideEscape hplain hstop' piece hpiece hkind
  refine ⟨?_, ?_, ?_⟩
  · intro t ht
    obtain ⟨piece, hpiece, hcut⟩ := List.mem_flatMap.mp ht
    by_cases hkind : piece.token.kind = .text
    · rw [cut_of_text hkind t hcut]
      rfl
    · have hmem := token_mem_of_mem_placeFrom hpiece
      have hpos := size_pos_of_ne_nil (scanText_ne_nil hplain hmarkup _ hmem hkind)
      rw [cut_of_ne_text hkind (by rw [stop_eq_of_mem_placeFrom hpiece]; omega)] at hcut
      split at hcut
      · rw [List.mem_singleton.mp hcut]
        exact hplain _ hmem
      · exact absurd hcut List.not_mem_nil
  · rw [sliceBytes?_eq_within hstart hstop hle]
    exact congrArg some (flatMap_scanText_flatMap_cut htext hstart hstop huncut).symm
  · have hmarks := filter_placeFrom_flatMap_cut htext hstart hstop hle huncut
      (scanText_ne_nil hplain hmarkup)
    rw [size_nil, Nat.zero_min, Nat.max_zero] at hmarks
    exact hmarks

end OfTokens

end Run

/-! ### Lists of tokens -/

/-- A list of tokens in its parts: runs of plain tokens, as long as possible, and other tokens.
`atStart` tells whether the list is at the start of the tokens. -/
inductive Parted : Bool → List Token → List (Token ⊕ Run) → Prop
  | nil {atStart : Bool} : Parted atStart [] []
  | other {atStart : Bool} {t : Token} {rest : List Token} {parts : List (Token ⊕ Run)} :
      t.kind.isPlain = false → Parted false rest parts →
      Parted atStart (t :: rest) (.inl t :: parts)
  | run {atStart : Bool} {run rest : List Token} {parts : List (Token ⊕ Run)} : run ≠ [] →
      (∀ t ∈ run, t.kind.isPlain = true) → (∀ t ∈ rest.head?, t.kind.isPlain = false) →
      Parted false rest parts →
      Parted atStart (run ++ rest) (.inr (Run.ofTokens atStart rest.isEmpty run) :: parts)

/-- A list of tokens is split into its parts. -/
theorem parted_splitRuns (atStart : Bool) (ts : List Token) :
    Parted atStart ts (splitRuns atStart ts) := by
  fun_induction splitRuns atStart ts with
  | case1 => exact .nil
  | case2 atStart t rest ht run after ih =>
    have hsplit : t :: rest = run ++ after := by
      rw [List.cons_append, List.takeWhile_append_dropWhile]
    have hplain : ∀ u ∈ run, u.kind.isPlain = true := by
      intro u hu
      rcases List.mem_cons.mp hu with rfl | hu
      · exact ht
      · exact List.mem_takeWhile_imp (p := fun t : Token => t.kind.isPlain) hu
    have hafter : ∀ u ∈ after.head?, u.kind.isPlain = false := by
      intro u hu
      have := List.head?_dropWhile_not (fun t : Token => t.kind.isPlain) rest
      simpa [after, Option.mem_def.mp hu] using this
    rw [hsplit]
    exact .run (List.cons_ne_nil _ _) hplain hafter ih
  | case3 atStart t rest ht ih => exact .other (Bool.eq_false_iff.mpr ht) ih

/-- What holds of the empty list, and of a run or another token in front of what it holds of, holds
of all tokens after the rules are applied. -/
theorem spliceRules_induction {rules : List Rule} {motive : Bool → List Token → List Token → Prop}
    (nil : ∀ atStart, motive atStart [] [])
    (other : ∀ {atStart t rest out}, t.kind.isPlain = false → motive false rest out →
      motive atStart (t :: rest) (t :: out))
    (run : ∀ {atStart run rest out}, run ≠ [] → (∀ t ∈ run, t.kind.isPlain = true) →
      (∀ t ∈ rest.head?, t.kind.isPlain = false) → motive false rest out →
      motive atStart (run ++ rest)
        ((Run.ofTokens atStart rest.isEmpty run).splice rules ++ out))
    (ts : List Token) : motive true ts (spliceRules rules ts) := by
  rw [spliceRules]
  have hparted := parted_splitRuns true ts
  revert hparted
  generalize splitRuns true ts = parts
  generalize true = atStart
  intro hparted
  induction hparted with
  | nil => exact nil _
  | other ht _ ih => exact other ht ih
  | run hne hplain hafter _ ih => exact run hne hplain hafter ih

end WikiPress
