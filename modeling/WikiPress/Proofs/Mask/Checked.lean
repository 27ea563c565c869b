import WikiPress.Proofs.Mask.Bytes
import WikiPress.Proofs.Mask.Restore
import WikiPress.Proofs.Wikilink.Bytes

/-!
# Masks with every slice checked

Masking and the four ways to put text back cut texts at byte offsets.  Here every cut is checked: it
fails if its offsets are out of order, past the end of the text or inside a character.  The closing
brackets of wikilinks, code spans and escapes are looked for among the bytes, without regard to where
characters begin.

For wikilinks, with whatever options for slugs, no source and no text makes a check fail, and the
results are those without checks.  In a line, what is copied in front of a claim ends where the claim
begins, and the claim ends behind its beginning and at the end of the line at the latest.

## Main definitions

* `Wikilink.attemptChecked` : the rule for wikilinks.
* `Mask.Cut`, `Mask.Cut.IsSafe` : the offsets at which a line is cut for a claim.
* `Mask.Cut.Claims` : the cut of a span.
* `Mask.lineChecked`, `Mask.ofTextChecked` : masking, which keeps a list of its cuts.
* `Mask.segmentsChecked`, `Mask.restoreChecked`, `Mask.restorePlainChecked`,
  `Mask.restoreHtmlChecked`, `Mask.expandChecked` : putting text back.

## Main results

* `Wikilink.attemptChecked_eq` : the rule takes no slice that there is not.
* `Mask.exists_ofTextChecked_eq` : neither does masking, whose cuts are safe.
* `Mask.segmentsChecked_eq` : neither does cutting a text at its placeholders.
* `Wikilink.checked_eq` : all of this for wikilinks.
-/

namespace WikiPress

open Text

/-! ### The rule for wikilinks -/

namespace Wikilink

/-- What the rule for wikilinks says of a place.  It finds the closing brackets among the bytes and
takes the slice in front of them. -/
def attemptChecked (slugger : Slugger) (p : Place) : Except SliceError Attempt :=
  if ['[', '['].isPrefixOf p.rest then
    match closeAt? (bytes p.rest) with
    | some close => (slice p.rest 2 close).map fun inner => ⟨true, tokens slugger inner, close + 2⟩
    | none => .ok .declined
  else .ok .declined

/-- The rule for wikilinks takes no slice that there is not. -/
theorem attemptChecked_eq (slugger : Slugger) (p : Place) :
    attemptChecked slugger p = .ok ((rule slugger).attempt p) := by
  rw [attemptChecked]
  split
  · next hopens =>
    obtain ⟨s, hs⟩ := List.isPrefixOf_iff_prefix.mp hopens
    have hrest : p.rest = '[' :: '[' :: s := hs.symm
    rw [hrest, closeAt?_bytes]
    cases hsplit : split? ('[' :: '[' :: s) with
    | none => simp only [rule, hrest, hsplit, Option.map_none]
    | some link =>
      obtain ⟨inner, after⟩ := link
      have hslice : slice ('[' :: '[' :: s) 2 (size inner + 2) = .ok inner :=
        slice_eq_ok_iff.mpr ⟨['[', '['], ']' :: ']' :: after, by rw [eq_append_of_split? hsplit]; simp,
          rfl, Nat.add_comm ..⟩
      simp only [rule, hrest, hsplit, Option.map_some, hslice, Except.map]
  · next hopens =>
    have hnone : split? p.rest = none := by
      unfold split?
      split
      · next s hrest => exact absurd (by rw [hrest]; rfl) hopens
      · rfl
    simp only [rule, hnone]

end Wikilink

namespace Mask

/-! ### Masking -/

/-- The offsets at which a line is cut for a claim: what is copied begins, the claim begins, and the
claim ends. -/
structure Cut where
  line : List Char
  copied : Nat
  start : Nat
  stop : Nat

/-- The offsets are in order, within the line and between its characters, and the claim is not
empty. -/
structure Cut.IsSafe (c : Cut) : Prop where
  copied_le : c.copied ≤ c.start
  start_lt : c.start < c.stop
  stop_le : c.stop ≤ size c.line
  isOffset_copied : IsOffset c.line c.copied
  isOffset_start : IsOffset c.line c.start
  isOffset_stop : IsOffset c.line c.stop

/-- A span is what a safe cut of one of some lines claims. -/
structure Cut.Claims (lines : List (List Char)) (span : Span) (c : Cut) : Prop where
  isSafe : c.IsSafe
  mem : c.line ∈ lines
  slice_eq : slice c.line c.start c.stop = .ok span.raw

theorem Cut.Claims.mono {lines lines' : List (List Char)} {span : Span} {c : Cut}
    (h : c.Claims lines span) (hsub : lines ⊆ lines') : c.Claims lines' span :=
  ⟨h.isSafe, hsub h.mem, h.slice_eq⟩

/-- What has been written of a mask, and the cuts that were made for it. -/
structure Written where
  mask : Mask
  cuts : List Cut := []

/-- More text is written. -/
def Written.text (w : Written) (s : List Char) : Written :=
  { w with mask := { w.mask with text := w.mask.text ++ s } }

/-- A claim is written as a placeholder, and its cut is noted. -/
def Written.claim (w : Written) (span : Span) (cut : Cut) : Written :=
  ⟨⟨w.mask.text ++ placeholder w.mask.spans.length, w.mask.spans ++ [span]⟩, w.cuts ++ [cut]⟩

theorem eq_getD_dropBytes?_zero (s : List Char) : s = (dropBytes? s 0).getD [] := by
  rw [dropBytes?_zero, Option.getD_some]

/-- Masks a line from a place on, where the text from the offset `copied` on is not yet written. -/
def lineChecked (attempt : Place → Except SliceError Attempt) (p : Place) (copied : Nat)
    (w : Written) : Except SliceError Written :=
  if p.position < size p.text then
    match Literal.length? p.rest with
    | some n => lineChecked attempt (p.moveBy (max 1 n)) copied w
    | none => do
      let a ← attempt p
      if _h : a.matched ∧ 0 < a.advance then
        let stop := min (p.position + a.advance) (size p.text)
        let before ← slice p.text copied p.position
        let raw ← slice p.text p.position stop
        lineChecked attempt (p.moveBy a.advance) stop
          ((w.text before).claim ⟨raw, a.tokens⟩ ⟨p.text, copied, p.position, stop⟩)
      else lineChecked attempt (p.moveBy p.characterSize) copied w
  else .ok (w.text ((dropBytes? p.text copied).getD []))
  termination_by size p.text - p.position
  decreasing_by
    all_goals simp only [Place.text_moveBy, Place.position_moveBy]
    · omega
    · omega
    · have := p.characterSize_pos
      omega

/-- The start of a line. -/
def lineStart (line : List Char) : Place :=
  { text := line, startsLine := true, endsLine := true, rest := line,
    rest_eq := eq_getD_dropBytes?_zero line }

/-- Masks lines, with line feeds between them. -/
def linesChecked (attempt : Place → Except SliceError Attempt) :
    List (List Char) → Written → Except SliceError Written
  | [], w => .ok w
  | line :: rest, w => do
    let after ← lineChecked attempt (lineStart line) 0 w
    if rest.isEmpty then .ok after else linesChecked attempt rest (after.text ['\n'])

/-- Masks a source, unless it has characters of placeholders. -/
def ofTextChecked (attempt : Place → Except SliceError Attempt) (source : List Char) :
    Except SliceError Written :=
  if source.any fun c => c = opening || c = closing then .ok ⟨⟨source, []⟩, []⟩
  else linesChecked attempt (splitAtEach '\n' source) ⟨⟨[], []⟩, []⟩

/-- A mask and some cuts are written behind what has been written. -/
def Written.append (w : Written) (m : Mask) (cuts : List Cut) : Written :=
  ⟨⟨w.mask.text ++ m.text, w.mask.spans ++ m.spans⟩, w.cuts ++ cuts⟩

section Line

variable {rule : Rule} {attempt : Place → Except SliceError Attempt} {p : Place} {n copied : Nat}
  {steps : List Step}

theorem lineChecked_of_le (hle : size p.text ≤ n) (w : Written) :
    lineChecked attempt (p.goTo n) copied w = .ok (w.text ((dropBytes? p.text copied).getD [])) := by
  rw [lineChecked, if_neg (show ¬(p.goTo n).position < size (p.goTo n).text from Nat.not_lt.mpr hle)]
  rfl

theorem lineChecked_of_skip? {k : Nat} (hlt : n < size p.text) (hskip : skip? (p.goTo n) = some k)
    (w : Written) :
    lineChecked attempt (p.goTo n) copied w =
      lineChecked attempt (p.goTo (n + max 1 k)) copied w := by
  rw [skip?, ← Literal.length?_eq] at hskip
  rw [lineChecked, if_pos (show (p.goTo n).position < size (p.goTo n).text from hlt), hskip]
  dsimp only
  rw [Place.moveBy_eq_goTo, Place.goTo_goTo, Place.position_goTo]

theorem lineChecked_of_claim?_eq_none (hattempt : ∀ p, attempt p = .ok (rule.attempt p))
    (hlt : n < size p.text) (hskip : skip? (p.goTo n) = none)
    (hclaim : rule.claim? (p.goTo n) = none) (w : Written) :
    lineChecked attempt (p.goTo n) copied w =
      lineChecked attempt (p.goTo (n + (p.goTo n).characterSize)) copied w := by
  have hno : ¬((rule.attempt (p.goTo n)).matched ∧ 0 < (rule.attempt (p.goTo n)).advance) := by
    intro h
    rw [Rule.claim?_eq_some_iff.mpr ⟨rfl, h⟩] at hclaim
    exact absurd hclaim (Option.some_ne_none _)
  rw [skip?, ← Literal.length?_eq] at hskip
  rw [lineChecked, if_pos (show (p.goTo n).position < size (p.goTo n).text from hlt), hskip, hattempt]
  show (if _h : _ then _ else _) = _
  rw [dif_neg hno, Place.moveBy_eq_goTo, Place.goTo_goTo, Place.position_goTo]

/-- The slices that a claim asks for are there if its cut is safe. -/
theorem lineChecked_of_claim? {a : Attempt} {stop : Nat}
    (hattempt : ∀ p, attempt p = .ok (rule.attempt p)) (hlt : n < size p.text)
    (hskip : skip? (p.goTo n) = none) (hclaim : rule.claim? (p.goTo n) = some a)
    (hstop : min (n + a.advance) (size p.text) = stop)
    (hsafe : Cut.IsSafe ⟨p.text, copied, n, stop⟩) (w : Written) :
    lineChecked attempt (p.goTo n) copied w =
      lineChecked attempt (p.goTo (n + a.advance)) stop
        ((w.text ((sliceBytes? p.text copied n).getD [])).claim
          ⟨(sliceBytes? p.text n stop).getD [], a.tokens⟩ ⟨p.text, copied, n, stop⟩) := by
  subst hstop
  obtain ⟨ha, hyes⟩ := Rule.claim?_eq_some_iff.mp hclaim
  have hbefore : slice p.text copied n = _ :=
    slice_of_isOffset hsafe.isOffset_copied hsafe.isOffset_start hsafe.copied_le
  have hraw : slice p.text n (min (n + a.advance) (size p.text)) = _ :=
    slice_of_isOffset hsafe.isOffset_start hsafe.isOffset_stop hsafe.start_lt.le
  rw [skip?, ← Literal.length?_eq] at hskip
  rw [lineChecked, if_pos (show (p.goTo n).position < size (p.goTo n).text from hlt), hskip, hattempt,
    ha]
  show (if _h : _ then _ else _) = _
  rw [dif_pos hyes, Place.moveBy_eq_goTo, Place.goTo_goTo, Place.position_goTo]
  show (slice p.text copied n >>= fun before =>
    slice p.text n (min (n + a.advance) (size p.text)) >>= fun raw => _) = _
  rw [hbefore, hraw]
  rfl

/-- From a step of a scan on, all slices of a line are there, and what is written is the mask of the
line. -/
theorem exists_lineChecked_eq (hattempt : ∀ p, attempt p = .ok (rule.attempt p))
    (hrule : rule.ClaimsWhole p.text) (hsteps : Scanned skip? [rule] p n steps)
    (hn : EndsWhole p.text n) (hcopied : IsOffset p.text copied) (hle : copied ≤ n) (w : Written) :
    ∃ cuts, lineChecked attempt (p.goTo n) copied w =
        .ok (w.append (replaceFrom p.text w.mask.spans.length copied steps) cuts) ∧
      List.Forall₂ (Cut.Claims [p.text])
        (replaceFrom p.text w.mask.spans.length copied steps).spans cuts := by
  induction hsteps generalizing copied w with
  | done hsize =>
    refine ⟨[], ?_, .nil⟩
    rw [lineChecked_of_le hsize]
    simp only [Written.text, Written.append, replaceFrom, List.append_nil]
  | @skipped n k rest hlt hskip _ ih =>
    rw [lineChecked_of_skip? hlt hskip]
    exact ih (endsWhole_add_of_skip? (hn.isOffset hlt) hskip) hcopied (by omega) w
  | @declined n rest hlt hskip hclaim _ ih =>
    rw [Rule.firstClaim?_singleton] at hclaim
    rw [lineChecked_of_claim?_eq_none hattempt hlt hskip hclaim]
    exact ih (Place.endsWhole_add_characterSize (hn.isOffset hlt) hlt) hcopied (by omega) w
  | @claimed n a rest hlt hskip hclaim _ ih =>
    rw [Rule.firstClaim?_singleton] at hclaim
    have hstop : EndsWhole p.text (n + a.advance) :=
      hrule (p.goTo n) rfl (hn.isOffset hlt) a hclaim
    have hadvance : 0 < a.advance := (Rule.claim?_eq_some_iff.mp hclaim).2.2
    have hsafe : Cut.IsSafe ⟨p.text, copied, n, min (n + a.advance) (size p.text)⟩ :=
      ⟨hle, lt_min (Nat.lt_add_of_pos_right hadvance) hlt, Nat.min_le_right _ _, hcopied,
        hn.isOffset hlt, hstop.isOffset_min⟩
    obtain ⟨cuts, heq, hcuts⟩ := ih hstop hstop.isOffset_min (Nat.min_le_left _ _)
      ((w.text ((sliceBytes? p.text copied n).getD [])).claim
        ⟨(sliceBytes? p.text n (min (n + a.advance) (size p.text))).getD [], a.tokens⟩ _)
    rw [lineChecked_of_claim? hattempt hlt hskip hclaim rfl hsafe, heq]
    simp only [Written.text, Written.append, Written.claim, replaceFrom, List.length_append,
      List.length_singleton, List.append_assoc, List.singleton_append] at hcuts ⊢
    exact ⟨_, rfl, .cons ⟨hsafe, List.mem_singleton_self _,
      slice_of_isOffset hsafe.isOffset_start hsafe.isOffset_stop hsafe.start_lt.le⟩ hcuts⟩

theorem lineStart_eq (line : List Char) :
    lineStart line = { text := line, startsLine := true, endsLine := true } :=
  Place.ext rfl rfl rfl rfl

theorem exists_lineChecked_eq_ofLine {line : List Char}
    (hattempt : ∀ p, attempt p = .ok (rule.attempt p)) (hrule : rule.ClaimsWhole line) (w : Written) :
    ∃ cuts, lineChecked attempt (lineStart line) 0 w =
        .ok (w.append (ofLine [rule] w.mask.spans.length line) cuts) ∧
      List.Forall₂ (Cut.Claims [line]) (ofLine [rule] w.mask.spans.length line).spans cuts := by
  have hsteps : Scanned skip? [rule] (lineStart line) 0 (steps [rule] line) := by
    rw [steps, ← lineStart_eq]
    exact scanned_scan skip? [rule] (lineStart line)
  have hstart : (lineStart line).goTo 0 = lineStart line := (lineStart line).goTo_position
  rw [← hstart]
  exact exists_lineChecked_eq hattempt hrule hsteps (.inr (isOffset_zero line)) (isOffset_zero line)
    (Nat.le_refl 0) w

theorem exists_linesChecked_eq {lines : List (List Char)}
    (hattempt : ∀ p, attempt p = .ok (rule.attempt p))
    (hrule : ∀ line ∈ lines, rule.ClaimsWhole line) (w : Written) :
    ∃ cuts, linesChecked attempt lines w =
        .ok (w.append (ofLines [rule] w.mask.spans.length lines) cuts) ∧
      List.Forall₂ (Cut.Claims lines) (ofLines [rule] w.mask.spans.length lines).spans cuts := by
  induction lines generalizing w with
  | nil => exact ⟨[], by simp only [Written.append, linesChecked, ofLines, List.append_nil], .nil⟩
  | cons line rest ih =>
    obtain ⟨cuts, heq, hcuts⟩ :=
      exists_lineChecked_eq_ofLine hattempt (hrule line (List.mem_cons_self ..)) w
    cases rest with
    | nil =>
      refine ⟨cuts, ?_, hcuts⟩
      rw [linesChecked, heq]
      rfl
    | cons line' rest =>
      obtain ⟨cuts', heq', hcuts'⟩ := ih (fun l hl => hrule l (List.mem_cons_of_mem _ hl))
        ((w.append (ofLine [rule] w.mask.spans.length line) cuts).text ['\n'])
      refine ⟨cuts ++ cuts', ?_, ?_⟩
      · rw [linesChecked, heq]
        exact heq'.trans (by simp only [ofLines_cons_cons, Written.append, Written.text,
          List.length_append, List.append_assoc, List.singleton_append])
      · rw [ofLines_cons_cons]
        simp only [Written.append, Written.text, List.length_append] at hcuts'
        exact List.rel_append (hcuts.imp fun _ _ h => h.mono (by simp))
          (hcuts'.imp fun _ _ h => h.mono (List.subset_cons_self ..))

/-- Masking takes no slice that there is not, and it makes a safe cut for every span. -/
theorem exists_ofTextChecked_eq (hattempt : ∀ p, attempt p = .ok (rule.attempt p))
    {source : List Char} (hrule : ∀ line ∈ splitAtEach '\n' source, rule.ClaimsWhole line) :
    ∃ cuts, ofTextChecked attempt source = .ok ⟨ofText [rule] source, cuts⟩ ∧
      List.Forall₂ (Cut.Claims (splitAtEach '\n' source)) (ofText [rule] source).spans cuts := by
  by_cases hany : (source.any fun c => c = opening || c = closing) = true
  · rw [ofTextChecked, if_pos hany, ofText, if_neg (by simp [applies, hany])]
    exact ⟨[], rfl, .nil⟩
  · rw [ofTextChecked, if_neg hany, ofText, if_pos (by simpa [applies] using hany)]
    obtain ⟨cuts, heq, hcuts⟩ := exists_linesChecked_eq hattempt hrule ⟨⟨[], []⟩, []⟩
    exact ⟨cuts, heq, hcuts⟩

end Line

/-! ### Putting text back -/

/-- The span whose placeholder begins a text, read after its first character, and the byte offset of
its last character. -/
def spanChecked? (m : Mask) (after : List Char) : Except SliceError (Option (Span × Nat)) :=
  match find? closing after with
  | none => .ok none
  | some close => (sliceTo after close).map fun digits =>
    (readNumber? m.spans.length digits).bind fun number =>
      m.spans[number]?.map fun span => (span, close)

/-- A text cut at the placeholders of the spans. -/
def segmentsChecked (m : Mask) (s : List Char) : Except SliceError (List Segment) :=
  match find? opening s with
  | none => .ok (plainSegment s)
  | some start =>
    match _hafter : sliceFrom s (start + opening.utf8Size) with
    | .error e => .error e
    | .ok after =>
      match m.spanChecked? after with
      | .error e => .error e
      | .ok none =>
        (sliceTo s (start + opening.utf8Size)).bind fun before =>
          (m.segmentsChecked after).map (.plain before :: ·)
      | .ok (some (span, close)) =>
        match _hrest : sliceFrom after (close + closing.utf8Size) with
        | .error e => .error e
        | .ok rest =>
          (sliceTo s start).bind fun before =>
            (m.segmentsChecked rest).map fun segments =>
              plainSegment before ++ .span span :: segments
  termination_by s.length
  decreasing_by
    · exact length_lt_of_sliceFrom (Nat.add_pos_right _ (Char.utf8Size_pos _)) _hafter
    · have := length_lt_of_sliceFrom (Nat.add_pos_right _ (Char.utf8Size_pos _)) _hafter
      have := length_lt_of_sliceFrom (Nat.add_pos_right _ (Char.utf8Size_pos _)) _hrest
      omega

/-- A text with its placeholders replaced. -/
def replaceChecked (m : Mask) (f : Span → List Char) (s : List Char) :
    Except SliceError (List Char) :=
  if !m.holdsPlaceholder s then .ok s
  else (m.segmentsChecked s).map fun segments => segments.flatMap fun
    | .plain t => t
    | .span span => f span

/-- A text with the claimed text put back. -/
def restoreChecked (m : Mask) (s : List Char) : Except SliceError (List Char) :=
  m.replaceChecked Span.raw s

/-- A text with the plain text of the spans put in. -/
def restorePlainChecked (m : Mask) (s : List Char) : Except SliceError (List Char) :=
  m.replaceChecked (fun span => textOf span.tokens) s

/-- HTML with the claimed text put back, escaped. -/
def restoreHtmlChecked (m : Mask) (s : List Char) : Except SliceError (List Char) :=
  m.replaceChecked (fun span => Html.escapeText span.raw) s

/-- The tokens that a text stands for. -/
def expandChecked (m : Mask) (s : List Char) : Except SliceError (List Token) :=
  if !m.holdsPlaceholder s then .ok [Token.ofText (String.ofList s)]
  else (m.segmentsChecked s).map fun segments => segments.flatMap segmentTokens

section Segments

variable {m : Mask} {before after rest digits : List Char} {span : Span}

/-- The number of a placeholder is a slice that is there, and so is what follows a placeholder. -/
theorem spanChecked?_cases (m : Mask) (after : List Char) :
    (m.readSpan? after = none ∧ m.spanChecked? after = .ok none) ∨
      ∃ span close rest, m.readSpan? after = some (span, rest) ∧
        m.spanChecked? after = .ok (some (span, close)) ∧
        sliceFrom after (close + closing.utf8Size) = .ok rest := by
  by_cases hafter : closing ∈ after
  · obtain ⟨digits, rest, rfl, hdigits⟩ := List.eq_append_cons_of_mem hafter
    have hchecked : m.spanChecked? (digits ++ closing :: rest) =
        .ok ((readNumber? m.spans.length digits).bind fun number =>
          m.spans[number]?.map fun span => (span, size digits)) := by
      rw [spanChecked?, find?_append_cons hdigits]
      dsimp only
      rw [sliceTo_append]
      rfl
    have hrest := sliceFrom_append (digits ++ [closing]) rest
    rw [List.append_assoc, List.singleton_append, size_append, size_cons, size_nil,
      Nat.add_zero] at hrest
    rw [hchecked, readSpan?_append hdigits]
    cases hnumber : readNumber? m.spans.length digits with
    | none => exact .inl ⟨rfl, rfl⟩
    | some number =>
      cases hspan : m.spans[number]? with
      | none => exact .inl (by simp [hspan])
      | some span => exact .inr ⟨span, _, rest, by simp [hspan], by simp [hspan], hrest⟩
  · rw [readSpan?_of_notMem hafter, spanChecked?, find?_eq_none hafter]
    exact .inl ⟨rfl, rfl⟩

/-- A text can be cut in front of the first opening character and behind it. -/
theorem slices_opening (before after : List Char) :
    sliceTo (before ++ opening :: after) (size before) = .ok before ∧
      sliceTo (before ++ opening :: after) (size before + opening.utf8Size) =
        .ok (before ++ [opening]) ∧
      sliceFrom (before ++ opening :: after) (size before + opening.utf8Size) = .ok after := by
  refine ⟨sliceTo_append before _, ?_⟩
  rw [← List.singleton_append, ← List.append_assoc,
    show size before + opening.utf8Size = size (before ++ [opening]) by simp]
  exact ⟨sliceTo_append _ _, sliceFrom_append _ _⟩

theorem segmentsChecked_append_of_none (hbefore : opening ∉ before)
    (hspan : m.spanChecked? after = .ok none) :
    m.segmentsChecked (before ++ opening :: after) =
      (m.segmentsChecked after).map (.plain (before ++ [opening]) :: ·) := by
  obtain ⟨-, hkeep, hafter⟩ := slices_opening before after
  rw [segmentsChecked, find?_append_cons hbefore]
  dsimp only
  split
  · next h => exact absurd (h.symm.trans hafter) (by simp)
  · next after' h =>
    obtain rfl : after' = after := Except.ok.inj (h.symm.trans hafter)
    rw [hspan, hkeep]
    rfl

theorem segmentsChecked_append_of_some {close : Nat} (hbefore : opening ∉ before)
    (hspan : m.spanChecked? after = .ok (some (span, close)))
    (hrest : sliceFrom after (close + closing.utf8Size) = .ok rest) :
    m.segmentsChecked (before ++ opening :: after) =
      (m.segmentsChecked rest).map fun segments =>
        plainSegment before ++ .span span :: segments := by
  obtain ⟨hfront, -, hafter⟩ := slices_opening before after
  rw [segmentsChecked, find?_append_cons hbefore]
  dsimp only
  split
  · next h => exact absurd (h.symm.trans hafter) (by simp)
  · next after' h =>
    obtain rfl : after' = after := Except.ok.inj (h.symm.trans hafter)
    rw [hspan]
    dsimp only
    split
    · next h => exact absurd (h.symm.trans hrest) (by simp)
    · next rest' h =>
      obtain rfl : rest' = rest := Except.ok.inj (h.symm.trans hrest)
      rw [hfront]
      rfl

/-- Cutting a text at its placeholders takes no slice that there is not. -/
theorem segmentsChecked_eq (m : Mask) (s : List Char) :
    m.segmentsChecked s = .ok (m.segments s) := by
  induction s using segments_induction (m := m) with
  | plain s hs => rw [segmentsChecked, find?_eq_none hs, segments_of_notMem hs]
  | span before after span rest hbefore hr ih =>
    rcases m.spanChecked?_cases after with ⟨hnone, -⟩ | ⟨span', close, rest', hsome, hspan, hrest⟩
    · exact absurd (hr.symm.trans hnone) (Option.some_ne_none _)
    · obtain ⟨rfl, rfl⟩ := Prod.mk.inj (Option.some.inj (hr.symm.trans hsome))
      rw [segments_append_of_readSpan? hbefore hr, segmentsChecked_append_of_some hbefore hspan hrest,
        ih]
      rfl
  | stray before after hbefore hr ih =>
    rcases m.spanChecked?_cases after with ⟨-, hspan⟩ | ⟨_, _, _, hsome, -, -⟩
    · rw [segments_append_of_none hbefore hr, segmentsChecked_append_of_none hbefore hspan, ih]
      rfl
    · exact absurd (hsome.symm.trans hr) (Option.some_ne_none _)

end Segments

theorem replaceChecked_eq (m : Mask) (f : Span → List Char) (s : List Char) :
    m.replaceChecked f s = .ok (m.replace f s) := by
  rw [replaceChecked, replace, segmentsChecked_eq]
  split <;> rfl

theorem expandChecked_eq (m : Mask) (s : List Char) : m.expandChecked s = .ok (m.expand s) := by
  rw [expandChecked, expand, segmentsChecked_eq]
  split <;> rfl

end Mask

/-! ### Wikilinks -/

/-- For wikilinks no slice fails: masking any source makes a safe cut for every span, any text can be
put back in all four ways, and where the scans of the bytes stop a text can be cut. -/
theorem Wikilink.checked_eq (slugger : Slugger) :
    (∀ source, ∃ cuts,
      Mask.ofTextChecked (attemptChecked slugger) source =
        .ok ⟨Mask.ofText [rule slugger] source, cuts⟩ ∧
      List.Forall₂ (Mask.Cut.Claims (splitAtEach '\n' source))
        (Mask.ofText [rule slugger] source).spans cuts) ∧
    (∀ (m : Mask) (s : List Char),
      m.restoreChecked s = .ok (m.restore s) ∧ m.restorePlainChecked s = .ok (m.restorePlain s) ∧
      m.restoreHtmlChecked s = .ok (m.restoreHtml s) ∧ m.expandChecked s = .ok (m.expand s)) ∧
    (∀ s n, closeAt? (bytes ('[' :: '[' :: s)) = some n →
      IsOffset ('[' :: '[' :: s) n ∧ IsOffset ('[' :: '[' :: s) (n + 2)) ∧
    (∀ s, IsOffset s (Literal.codeSpanLength (bytes s))) ∧
    ∀ s n, Literal.length? s = some n → IsOffset s n := by
  refine ⟨fun source => ?_, fun m s => ?_, fun s n h => isOffset_of_closeAt? h, fun s => ?_,
    fun s n h => ?_⟩
  · exact Mask.exists_ofTextChecked_eq (attemptChecked_eq slugger)
      fun line _ => claimsWhole_rule slugger line
  · exact ⟨m.replaceChecked_eq _ s, m.replaceChecked_eq _ s, m.replaceChecked_eq _ s,
      m.expandChecked_eq s⟩
  · rw [Literal.codeSpanLength_bytes]
    exact Literal.isOffset_codeSpanSize s
  · rw [Literal.length?_eq] at h
    exact Literal.isOffset_of_size? h

/-- Brackets behind an escape of a character of two bytes, and a code span of such a character. -/
theorem Wikilink.checked_eq_escape :
    closeAt? (bytes "[[\\é]]".toList) = some 5 ∧ IsOffset "[[\\é]]".toList 5 ∧
      IsOffset "[[\\é]]".toList 7 ∧ Literal.length? "\x60é\x60]".toList = some 4 ∧
      IsOffset "\x60é\x60]".toList 4 := by
  have hclose : closeAt? (bytes "[[\\é]]".toList) = some 5 := by decide +kernel
  have hspan : Literal.length? "\x60é\x60]".toList = some 4 := by decide +kernel
  obtain ⟨-, -, hbrackets, -, hliteral⟩ := checked_eq Slugger.lowercase
  exact ⟨hclose, (hbrackets _ 5 hclose).1, (hbrackets _ 5 hclose).2, hspan, hliteral _ 4 hspan⟩

end WikiPress
