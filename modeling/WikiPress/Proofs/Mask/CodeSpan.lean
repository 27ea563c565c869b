import Mathlib.Order.Bounds.Basic
import Mathlib.Tactic.MkIffOfInductiveProp
import WikiPress.Markdown.Inline
import WikiPress.Proofs.Mask.Bytes
import WikiPress.Proofs.Mask.Span
import WikiPress.Wikilink

/-!
# The extent of code spans

A code span opens with a run of backticks and closes with the first later run of as many of them.
A run is maximal: there are no backticks in front of it and behind it, so that longer and shorter
runs in between are a part of the code.  Backticks that no run closes stand for themselves.

The runs are described by the offsets of their bytes, and the extent of a code span by the first of
them that closes it.  When masking comes upon a backtick, at whatever place of a line it stands, the
code span there is passed over and no rule is tried in it.  The run that opens it then begins at
that place, also where an escape or a claim ends among backticks.

## Main definitions

* `Literal.IsTickRun` : a maximal run of backticks.
* `Literal.IsFirstRun` : the first run of some length from an offset on.
* `Literal.HasExtent` : the number of bytes of a code span, or of backticks that are not closed.
* `Mask.PassesOver` : a step of masking that no rule has a part in.

## Main results

* `Literal.exists_isFirstRun_closeTicks?` : the closing backticks are the first run of their length.
* `Literal.hasExtent_iff` : the extent of a code span is the one that is counted.
* `Markdown.InlineState.dropBytes?_codeSpanSize` : the reader of inline content takes the same code
  spans.
* `Mask.passesOver_codeSpan` : all of this, and masking passes over code spans.
-/

namespace WikiPress

open Text

namespace Literal

/-! ### Runs of backticks -/

/-- The byte at an offset is a backtick. -/
def IsTick (bytes : List UInt8) (offset : Nat) : Prop := bytes[offset]? = some '\x60'.toUInt8

instance (bytes : List UInt8) (offset : Nat) : Decidable (IsTick bytes offset) :=
  inferInstanceAs (Decidable (_ = _))

/-- A run of `length` backticks with no backtick in front of it or behind it. -/
@[mk_iff]
structure IsTickRun (bytes : List UInt8) (start length : Nat) : Prop where
  pos : 0 < length
  isTick : ∀ i < length, IsTick bytes (start + i)
  front : 0 < start → ¬IsTick bytes (start - 1)
  behind : ¬IsTick bytes (start + length)

instance (bytes : List UInt8) (start length : Nat) : Decidable (IsTickRun bytes start length) :=
  decidable_of_iff _ (isTickRun_iff bytes start length).symm

/-- Where the first run of exactly `length` backticks from an offset on starts, or that there is no
such run. -/
def IsFirstRun (bytes : List UInt8) (length offset : Nat) : Option Nat → Prop
  | some start => IsLeast {j | offset ≤ j ∧ IsTickRun bytes j length} start
  | none => ∀ j, offset ≤ j → ¬IsTickRun bytes j length

section Runs

variable {bytes : List UInt8} {i start length length' offset : Nat}

theorem IsTick.lt_length (h : IsTick bytes i) : i < bytes.length :=
  (List.getElem?_eq_some_iff.mp h).1

theorem isTick_drop : IsTick (bytes.drop offset) i ↔ IsTick bytes (offset + i) := by
  rw [IsTick, List.getElem?_drop, ← IsTick]

theorem isTick_iff_head?_drop :
    IsTick bytes offset ↔ (bytes.drop offset).head? = some '\x60'.toUInt8 := by
  rw [IsTick, List.head?_drop]

/-- The backticks at the start of some bytes are those that are counted there. -/
theorem isTick_tickRun (bytes : List UInt8) :
    (∀ i < tickRun bytes, IsTick bytes i) ∧ ¬IsTick bytes (tickRun bytes) := by
  induction bytes with
  | nil => exact ⟨fun i hi => absurd hi (Nat.not_lt_zero i), by simp [IsTick]⟩
  | cons b rest ih =>
    by_cases hb : b = '\x60'.toUInt8
    · subst hb
      rw [tickRun_cons_self]
      refine ⟨fun i hi => ?_, ih.2⟩
      cases i with
      | zero => rfl
      | succ i => exact ih.1 i (Nat.lt_of_succ_lt_succ hi)
    · have hhead : (b :: rest).head? ≠ some '\x60'.toUInt8 := fun h => hb (Option.some.inj h)
      rw [tickRun_of_head?_ne hhead]
      exact ⟨fun i hi => absurd hi (Nat.not_lt_zero i), hhead⟩

/-- Two runs with one start have one length. -/
theorem IsTickRun.length_eq (h : IsTickRun bytes start length)
    (h' : IsTickRun bytes start length') : length = length' := by
  rcases Nat.lt_trichotomy length length' with hlt | heq | hlt
  · exact absurd (h'.isTick length hlt) h.behind
  · exact heq
  · exact absurd (h.isTick length' hlt) h'.behind

/-- No run starts inside a run. -/
theorem IsTickRun.not_isTickRun (h : IsTickRun bytes start length) (hlt : start < i)
    (hle : i < start + length) : ¬IsTickRun bytes i length' := by
  intro h'
  have htick := h.isTick (i - 1 - start) (by omega)
  rw [show start + (i - 1 - start) = i - 1 by omega] at htick
  exact h'.front (by omega) htick

theorem IsTickRun.add_le_length (h : IsTickRun bytes start length) :
    start + length ≤ bytes.length := by
  have := (h.isTick (length - 1) (Nat.sub_lt h.pos Nat.one_pos)).lt_length
  have := h.pos
  omega

/-- At a backtick that none stands in front of, a run starts. -/
theorem isTickRun_tickRun (hfront : 0 < offset → ¬IsTick bytes (offset - 1))
    (h : IsTick bytes offset) : IsTickRun bytes offset (tickRun (bytes.drop offset)) where
  pos := by
    refine Nat.pos_of_ne_zero fun hzero => (isTick_tickRun (bytes.drop offset)).2 ?_
    rwa [hzero, isTick_drop]
  isTick i hi := isTick_drop.mp ((isTick_tickRun _).1 i hi)
  front := hfront
  behind h := (isTick_tickRun (bytes.drop offset)).2 (isTick_drop.mpr h)

theorem isTickRun_zero (h : IsTick bytes 0) : IsTickRun bytes 0 (tickRun bytes) :=
  isTickRun_tickRun (fun hlt => absurd hlt (Nat.lt_irrefl 0)) h

theorem isTickRun_of_drop {rest : List UInt8} (hrest : bytes.drop offset = '\x60'.toUInt8 :: rest)
    (hfront : IsTick bytes offset → 0 < offset → ¬IsTick bytes (offset - 1)) :
    IsTickRun bytes offset (tickRun ('\x60'.toUInt8 :: rest)) := by
  have htick : IsTick bytes offset := isTick_iff_head?_drop.mpr (by rw [hrest, List.head?_cons])
  exact hrest ▸ isTickRun_tickRun (hfront htick) htick

/-! ### The run that closes a code span -/

/-- What is no start of a run can be passed over. -/
theorem IsFirstRun.of_le {offset' : Nat} {found : Option Nat} (hle : offset ≤ offset')
    (hnone : ∀ j, offset ≤ j → j < offset' → ¬IsTickRun bytes j length)
    (h : IsFirstRun bytes length offset' found) : IsFirstRun bytes length offset found := by
  have hlate : ∀ j, offset ≤ j → IsTickRun bytes j length → offset' ≤ j := fun j hj hrun =>
    Nat.not_lt.mp fun hlt => hnone j hj hlt hrun
  cases found with
  | none => exact fun j hj hrun => h j (hlate j hj hrun) hrun
  | some start =>
    obtain ⟨⟨hstart, hrun⟩, hleast⟩ := h
    exact ⟨⟨hle.trans hstart, hrun⟩, fun j ⟨hj, hjrun⟩ => hleast ⟨hlate j hj hjrun, hjrun⟩⟩

theorem IsFirstRun.unique {found found' : Option Nat} (h : IsFirstRun bytes length offset found)
    (h' : IsFirstRun bytes length offset found') : found = found' := by
  cases found with
  | none =>
    cases found' with
    | none => rfl
    | some start' => exact absurd h'.1.2 (h start' h'.1.1)
  | some start =>
    cases found' with
    | none => exact absurd h.1.2 (h' start h.1.1)
    | some start' => exact congrArg some (IsLeast.unique h h')

/-- The search for closing backticks never stands inside a run: it steps over one byte that is no
backtick, or over all of a run.  What it finds is the first run of the length it looks for. -/
theorem exists_isFirstRun_closeTicks? {rest : List UInt8} (hrest : bytes.drop offset = rest)
    (hfront : IsTick bytes offset → 0 < offset → ¬IsTick bytes (offset - 1)) :
    ∃ found, IsFirstRun bytes length offset found ∧
      closeTicks? length offset rest = found.map (· + length) := by
  fun_induction closeTicks? length offset rest with
  | case1 offset =>
    refine ⟨none, fun j hj hrun => ?_, rfl⟩
    have := hrun.add_le_length
    have := hrun.pos
    have : bytes.length ≤ offset := List.drop_eq_nil_iff.mp hrest
    omega
  | case2 offset rest closing hclosing =>
    have hrun : IsTickRun bytes offset closing := isTickRun_of_drop hrest hfront
    refine ⟨some offset, ⟨⟨Nat.le_refl offset, hclosing ▸ hrun⟩, fun j hj => hj.1⟩, ?_⟩
    rw [hclosing, Option.map_some]
  | case3 offset rest closing hclosing ih =>
    have hrun : IsTickRun bytes offset closing := isTickRun_of_drop hrest hfront
    have hdrop : bytes.drop (offset + closing) = rest.drop (closing - 1) := by
      rw [← List.drop_drop, hrest, List.drop_cons hrun.pos]
    obtain ⟨found, hfirst, heq⟩ := ih hdrop fun htick => absurd htick hrun.behind
    refine ⟨found, hfirst.of_le (Nat.le_add_right ..) fun j hj hlt hjrun => ?_, heq⟩
    rcases Nat.eq_or_lt_of_le hj with rfl | hj
    · exact hclosing (hrun.length_eq hjrun)
    · exact hrun.not_isTickRun hj hlt hjrun
  | case4 offset b rest hb ih =>
    have hnot : ¬IsTick bytes offset := by
      rw [isTick_iff_head?_drop, hrest]
      exact fun h => hb (Option.some.inj h)
    have hdrop : bytes.drop (offset + 1) = rest := by
      rw [← List.drop_drop, hrest, List.drop_succ_cons, List.drop_zero]
    obtain ⟨found, hfirst, heq⟩ := ih hdrop fun _ _ => hnot
    refine ⟨found, hfirst.of_le (Nat.le_add_right ..) fun j hj hlt hjrun => hnot ?_, heq⟩
    obtain rfl : offset = j := by omega
    exact hjrun.isTick 0 hjrun.pos

end Runs

/-! ### Extents -/

/-- The number of bytes of the code span at the start of some bytes, which a run of `opening`
backticks opens: the code span ends with the first later run of that length.  If there is none, only
the backticks are counted. -/
inductive HasExtent (bytes : List UInt8) (opening : Nat) : Nat → Prop
  | closed {start : Nat} : IsFirstRun bytes opening 1 (some start) →
      HasExtent bytes opening (start + opening)
  | unclosed : IsFirstRun bytes opening 1 none → HasExtent bytes opening opening

section Extents

variable {bytes : List UInt8} {opening extent extent' : Nat}

theorem HasExtent.unique (h : HasExtent bytes opening extent)
    (h' : HasExtent bytes opening extent') : extent = extent' := by
  cases h with
  | closed hfirst =>
    cases h' with
    | closed hfirst' => rw [Option.some.inj (hfirst.unique hfirst')]
    | unclosed hnone => exact absurd (hfirst.unique hnone) (Option.some_ne_none _)
  | unclosed hnone =>
    cases h' with
    | closed hfirst' => exact absurd (hfirst'.unique hnone) (Option.some_ne_none _)
    | unclosed => rfl

theorem HasExtent.le (h : HasExtent bytes opening extent) : opening ≤ extent := by
  cases h with
  | closed => exact Nat.le_add_left ..
  | unclosed => exact Nat.le_refl _

theorem HasExtent.le_length (h : HasExtent bytes opening extent)
    (hopening : IsTickRun bytes 0 opening) : extent ≤ bytes.length := by
  cases h with
  | closed hfirst => exact hfirst.1.2.add_le_length
  | unclosed => simpa using hopening.add_le_length

/-- The search for the closing backticks begins behind the opening ones, among which no run starts
but theirs. -/
theorem hasExtent_codeSpanLength (hopening : IsTickRun bytes 0 opening) :
    HasExtent bytes opening (codeSpanLength bytes) := by
  obtain rfl : tickRun bytes = opening :=
    (isTickRun_zero (hopening.isTick 0 hopening.pos)).length_eq hopening
  have hbehind := hopening.behind
  rw [Nat.zero_add] at hbehind
  obtain ⟨found, hfirst, heq⟩ : ∃ found, IsFirstRun bytes (tickRun bytes) (tickRun bytes) found ∧
      closeTicks? (tickRun bytes) (tickRun bytes) (bytes.drop (tickRun bytes)) =
        found.map (· + tickRun bytes) :=
    exists_isFirstRun_closeTicks? rfl fun htick => absurd htick hbehind
  have hlater : IsFirstRun bytes (tickRun bytes) 1 found :=
    hfirst.of_le hopening.pos fun j hj hlt => hopening.not_isTickRun hj (by omega)
  rw [codeSpanLength, heq]
  cases found with
  | none => exact .unclosed hlater
  | some start => exact .closed hlater

/-- The extent of a code span is the one that is counted. -/
theorem hasExtent_iff (hopening : IsTickRun bytes 0 opening) :
    HasExtent bytes opening extent ↔ codeSpanLength bytes = extent :=
  ⟨fun h => (hasExtent_codeSpanLength hopening).unique h,
    fun h => h ▸ hasExtent_codeSpanLength hopening⟩

end Extents

/-! ### Runs of backticks among characters -/

section Characters

variable {text : List Char} {n : Nat}

theorem sizeToTicks?_append (htext : '\x60' ∉ text) (s : List Char) :
    sizeToTicks? n (text ++ s) = (sizeToTicks? n s).map (· + size text) := by
  induction text with
  | nil => simp
  | cons c text ih =>
    rw [List.mem_cons, not_or] at htext
    rw [List.cons_append, sizeToTicks?, if_neg (Ne.symm htext.1), ih htext.2, Option.map_map]
    refine Option.map_congr fun m _ => ?_
    show m + size text + c.utf8Size = m + (c.utf8Size + size text)
    omega

/-- A run of backticks is the one that is looked for, or it is passed over as a whole. -/
theorem sizeToTicks?_cons (n : Nat) (s : List Char) :
    sizeToTicks? n ('\x60' :: s) =
      if ticks ('\x60' :: s) = n then some n
      else (sizeToTicks? n (('\x60' :: s).drop (ticks ('\x60' :: s)))).map
        (· + ticks ('\x60' :: s)) := by
  rw [sizeToTicks?, if_pos rfl, ticks_cons_self, List.drop_succ_cons]

theorem dropBytes?_ticks (s : List Char) : dropBytes? s (ticks s) = some (s.drop (ticks s)) := by
  obtain ⟨run, hs, hsize⟩ := takeWhile_tick s
  exact dropBytes?_eq_some_iff.mpr ⟨run, hs, hsize⟩

theorem codeSpanSize_eq (s : List Char) :
    codeSpanSize s = ticks s + (sizeToTicks? (ticks s) (s.drop (ticks s))).getD 0 := by
  rw [codeSpanSize]
  cases sizeToTicks? (ticks s) (s.drop (ticks s)) <;> rfl

end Characters

end Literal

/-! ### Code spans of the markup -/

namespace Markdown.InlineState

open Literal

variable {text s t rest : List Char} {n fuel : Nat} {state : InlineState}

theorem rest_add (item : Item) (state : InlineState) : (state.add item).rest = state.rest := by
  unfold InlineState.add
  split <;> rfl

theorem rest_addNode (kind : Kind) (state : InlineState) :
    (state.addNode kind).rest = state.rest := rest_add _ state

theorem rest_addText (text : List Char) (state : InlineState) :
    (state.addText text).rest = state.rest := rest_add _ state

theorem rest_advanceTo (h : rest <:+ state.rest) : (state.advanceTo rest).rest = rest := by
  obtain ⟨u, hu⟩ := h
  show state.rest.drop (state.rest.length - rest.length) = rest
  rw [← hu, List.length_append, Nat.add_sub_cancel, List.drop_left]

theorem splitAtBackticks?_append_cons (htext : '\x60' ∉ text) :
    splitAtBackticks? n (fuel + 1) (text ++ '\x60' :: t) =
      let rest := ('\x60' :: t).drop (ticks ('\x60' :: t))
      if ticks ('\x60' :: t) = n then some (text, rest)
      else (splitAtBackticks? n fuel rest).map fun (more, s) =>
        (text ++ ('\x60' :: t).takeWhile (· = '\x60') ++ more, s) := by
  rw [splitAtBackticks?, takeWhile_ne_append_cons htext, List.drop_left]
  rfl

/-- The reader of inline content finds the same closing backticks, and goes on behind them. -/
theorem map_snd_splitAtBackticks? (hfuel : s.length < fuel) :
    (splitAtBackticks? n fuel s).map Prod.snd = (sizeToTicks? n s).bind (dropBytes? s) := by
  induction fuel generalizing s with
  | zero => exact absurd hfuel (Nat.not_lt_zero _)
  | succ fuel ih =>
    by_cases htick : '\x60' ∈ s
    · obtain ⟨text, t, rfl, htext⟩ := List.eq_append_cons_of_mem htick
      -- Offsets behind the run count the text in front of the run and the run.
      have hrest : dropBytes? (text ++ '\x60' :: t) (size text + ticks ('\x60' :: t)) =
          some (('\x60' :: t).drop (ticks ('\x60' :: t))) := by
        rw [← dropBytes?_of_dropBytes? _ (dropBytes?_size_append text _), dropBytes?_ticks]
      rw [splitAtBackticks?_append_cons htext, sizeToTicks?_append htext, sizeToTicks?_cons]
      dsimp only
      split
      · next hn =>
        rw [hn, Nat.add_comm] at hrest
        rw [Option.map_some, Option.map_some, Option.bind_some, hn, hrest]
      · rw [Option.map_map, Option.map_map, Option.bind_map]
        have hshorter : (('\x60' :: t).drop (ticks ('\x60' :: t))).length < fuel := by
          rw [ticks_cons_self, List.drop_succ_cons, List.length_drop]
          rw [List.length_append, List.length_cons] at hfuel
          omega
        refine (ih hshorter).trans (Option.bind_congr fun m _ => ?_)
        rw [dropBytes?_of_dropBytes? m hrest]
        show dropBytes? _ _ = dropBytes? _ (m + ticks ('\x60' :: t) + size text)
        congr 1
        omega
    · have hnone := sizeToTicks?_append (n := n) htick []
      rw [List.append_nil] at hnone
      rw [splitAtBackticks?, takeWhile_ne_eq_self htick, List.drop_length, hnone, sizeToTicks?]
      rfl

theorem readBackticks_eq (h : ticks state.rest ≤ mostBackticks) :
    state.readBackticks =
      match splitAtBackticks? (ticks state.rest)
        ((state.rest.drop (ticks state.rest)).length + 1) (state.rest.drop (ticks state.rest)) with
      | some (text, rest) => ((state.advance (ticks state.rest)).advanceTo rest).addNode
          (.code (String.ofList (codeText text)))
      | none => (state.advance (ticks state.rest)).addText (state.rest.takeWhile (· = '\x60')) := by
  simp only [readBackticks]
  rw [if_pos (show (state.rest.takeWhile (· = '\x60')).length ≤ mostBackticks from h)]
  rfl

/-- From backticks on that are not too many for a code span, the reader of inline content goes on
where the code span that is counted ends, or behind the backticks if they are not closed. -/
theorem dropBytes?_codeSpanSize (h : ticks state.rest ≤ mostBackticks) :
    dropBytes? state.rest (codeSpanSize state.rest) = some state.readBackticks.rest := by
  have hsplit := map_snd_splitAtBackticks? (n := ticks state.rest)
    (Nat.lt_add_one (state.rest.drop (ticks state.rest)).length)
  rw [codeSpanSize_eq, ← dropBytes?_of_dropBytes? _ (dropBytes?_ticks state.rest),
    readBackticks_eq h]
  cases hsize : sizeToTicks? (ticks state.rest) (state.rest.drop (ticks state.rest)) with
  | none =>
    rw [hsize, Option.bind_none, Option.map_eq_none_iff] at hsplit
    rw [hsplit, rest_addText, Option.getD_none, dropBytes?_zero]
    rfl
  | some m =>
    obtain ⟨rest, hrest⟩ := Option.isSome_iff_exists.mp
      (isSome_dropBytes?_iff.mpr (isOffset_of_sizeToTicks? hsize))
    rw [hsize, Option.bind_some, hrest, Option.map_eq_some_iff] at hsplit
    obtain ⟨⟨text, _⟩, hsplit, rfl⟩ := hsplit
    obtain ⟨u, hu, -⟩ := dropBytes?_eq_some_iff.mp hrest
    rw [hsplit, rest_addNode, rest_advanceTo ⟨u, hu.symm⟩, Option.getD_some, hrest]

end Markdown.InlineState

namespace Mask

/-! ### The steps of masking -/

open Literal

variable {rules : List Rule} {line : List Char} {p : Place} {n : Nat} {step : Step}
  {before after : List Step}

/-- In masking a line, the rules have no part in a step: they are tried at none of the bytes that it
passes over, and the step behind it, if the line goes on, begins where it stops. -/
structure PassesOver (rules : List Rule) (line : List Char) (step : Step) (after : List Step) :
    Prop where
  outcome_eq : step.outcome = .skipped
  stop_le : step.stop ≤ size line
  resumes : after.head?.map Step.start = if step.stop < size line then some step.stop else none
  notTried : ∀ q ∈ triedPlaces { text := line, startsLine := true, endsLine := true }
    (steps rules line), q.position < step.start ∨ step.stop ≤ q.position

/-- At a backtick the code span is skipped whose bytes begin there. -/
theorem skip?_of_isTick (h : IsTick (bytes p.text) n) :
    skip? (p.goTo n) = some (codeSpanLength ((bytes p.text).drop n)) := by
  obtain ⟨u, v, htext, rfl⟩ := exists_eq_append_cons_of_getElem?_bytes (by decide) h
  rw [skip?, Place.rest_goTo htext, htext, drop_size_bytes_append, codeSpanLength_bytes]
  rfl

/-- From a backtick on, a scan takes one step over the code span. -/
theorem step_of_isTick (h : Scanned skip? rules p n (step :: after))
    (htick : IsTick (bytes p.text) n) :
    step.outcome = .skipped ∧ step.stop = n + codeSpanLength ((bytes p.text).drop n) := by
  have hskip := skip?_of_isTick htick
  cases h with
  | skipped _ hk _ =>
    obtain rfl := Option.some.inj (hk.symm.trans hskip)
    exact ⟨rfl, congrArg (n + ·) (Nat.max_eq_right (size?_pos hskip))⟩
  | declined _ hnone _ _ => exact absurd (hskip.symm.trans hnone) (Option.some_ne_none _)
  | claimed _ hnone _ _ => exact absurd (hskip.symm.trans hnone) (Option.some_ne_none _)

/-- No rule is tried in a step of masking that is skipped. -/
theorem passesOver_of_skipped (hsteps : steps rules line = before ++ step :: after)
    (houtcome : step.outcome = .skipped) (hstop : step.stop ≤ size line) :
    PassesOver rules line step after := by
  obtain ⟨p, rfl, hscan⟩ := scanned_steps rules line
  rw [hsteps] at hscan
  obtain ⟨hstep, hbefore⟩ := hscan.of_append_cons
  obtain ⟨-, -, -, hafter⟩ := hstep.of_cons
  refine ⟨houtcome, hstop, hafter.map_start_head?, fun q hq => ?_⟩
  obtain ⟨s, hs, hne, rfl⟩ := exists_of_mem_triedPlaces hq
  rw [hsteps, List.mem_append, List.mem_cons] at hs
  rcases hs with hs | rfl | hs
  · exact .inl (hbefore s hs)
  · exact absurd houtcome hne
  · exact .inr (hafter.le_start s hs)

/-- At whatever place of a line masking stands on a backtick, it steps over the code span that
begins there. -/
theorem exists_passesOver (hsteps : steps rules line = before ++ step :: after)
    (htick : IsTick (bytes line) step.start) :
    ∃ opening extent, IsTickRun ((bytes line).drop step.start) 0 opening ∧
      HasExtent ((bytes line).drop step.start) opening extent ∧
      step.stop = step.start + extent ∧ PassesOver rules line step after := by
  have hopening : IsTickRun ((bytes line).drop step.start) 0 _ :=
    isTickRun_zero (isTick_drop.mpr htick)
  have hextent := hasExtent_codeSpanLength hopening
  obtain ⟨p, rfl, hscan⟩ := scanned_steps rules line
  rw [hsteps] at hscan
  obtain ⟨houtcome, hstop⟩ := step_of_isTick hscan.of_append_cons.1 htick
  refine ⟨_, _, hopening, hextent, hstop, passesOver_of_skipped hsteps houtcome ?_⟩
  have hle := hextent.le_length hopening
  have hlt := htick.lt_length
  rw [List.length_drop] at hle
  rw [length_bytes] at hle hlt
  omega

/-- **A code span ends with the first later run of as many backticks as it begins with.**  Of any
bytes that start with a run of backticks, the code span that is counted ends with the first later
run of exactly that length, and if there is none, the backticks alone are counted; this is no less
than the opening run and no more than the bytes there are.  The characters of a text are counted as
its bytes are, and the reader of inline content takes the same code spans, unless they open with
more backticks than it admits.  Whatever the rules, wherever masking stands on a backtick in a line,
its next step begins behind the code span that the rest of the line starts with, or behind its
backticks if they are not closed, and no rule is tried at a byte in between. -/
theorem passesOver_codeSpan :
    (∀ (w : List UInt8) (opening : Nat), IsTickRun w 0 opening →
      (∀ extent, HasExtent w opening extent ↔ codeSpanLength w = extent) ∧
      opening ≤ codeSpanLength w ∧ codeSpanLength w ≤ w.length) ∧
    (∀ s, codeSpanLength (bytes s) = codeSpanSize s) ∧
    (∀ s : Markdown.InlineState, ticks s.rest ≤ Markdown.mostBackticks →
      dropBytes? s.rest (codeSpanSize s.rest) = some s.readBackticks.rest) ∧
    ∀ rules line before step after, steps rules line = before ++ step :: after →
      IsTick (bytes line) step.start →
      ∃ opening extent, IsTickRun ((bytes line).drop step.start) 0 opening ∧
        HasExtent ((bytes line).drop step.start) opening extent ∧
        step.stop = step.start + extent ∧ PassesOver rules line step after := by
  refine ⟨fun w opening hopening => ⟨fun extent => hasExtent_iff hopening, ?_, ?_⟩,
    codeSpanLength_bytes, fun _ => Markdown.InlineState.dropBytes?_codeSpanSize, ?_⟩
  · exact (hasExtent_codeSpanLength hopening).le
  · exact (hasExtent_codeSpanLength hopening).le_length hopening
  · exact fun rules line before step after => exists_passesOver

/-- A code span with a wikilink and a shorter run of backticks in it, and some text behind it. -/
def wikilinkInCode : List Char := "\x60\x60[[b\x60c]]\x60\x60 d".toList

/-- A wikilink in a code span is not tried, and the backtick in it does not close the code span. -/
theorem passesOver_codeSpan_wikilinkInCode :
    HasExtent (bytes wikilinkInCode) 2 11 ∧
      dropBytes? wikilinkInCode 11 =
        some (Markdown.InlineState.readBackticks { rest := wikilinkInCode }).rest ∧
      ∃ before step after, steps [Wikilink.rule .lowercase] ("a ".toList ++ wikilinkInCode) =
          before ++ step :: after ∧
        step.start = 2 ∧ step.stop = 13 ∧
        PassesOver [Wikilink.rule .lowercase] ("a ".toList ++ wikilinkInCode) step after := by
  obtain ⟨hbytes, -, hmarkup, hmask⟩ := passesOver_codeSpan
  have hlength : codeSpanLength (bytes wikilinkInCode) = 11 := by decide +kernel
  have hsize : codeSpanSize wikilinkInCode = 11 := by decide +kernel
  have hsteps : (steps [Wikilink.rule .lowercase] ("a ".toList ++ wikilinkInCode)).map
      (fun step => (step.start, step.stop)) =
        [(0, 1), (1, 2)] ++ (2, 13) :: [(13, 14), (14, 15)] := by
    decide +kernel
  refine ⟨((hbytes _ 2 (by decide +kernel)).1 11).mpr hlength, ?_, ?_⟩
  · rw [← hmarkup { rest := wikilinkInCode } (by decide +kernel)]
    exact congrArg _ hsize.symm
  · obtain ⟨before, rest, hsteps, -, hrest⟩ := List.map_eq_append_iff.mp hsteps
    obtain ⟨step, after, rfl, hstep, -⟩ := List.map_eq_cons_iff.mp hrest
    obtain ⟨hstart, hstop⟩ := Prod.mk.inj hstep
    have htick : IsTick (bytes ("a ".toList ++ wikilinkInCode)) step.start := by
      rw [hstart]
      decide +kernel
    obtain ⟨_, _, -, -, -, hpasses⟩ := hmask _ _ _ _ _ hsteps htick
    exact ⟨before, step, after, hsteps, hstart, hstop, hpasses⟩

end Mask

end WikiPress
