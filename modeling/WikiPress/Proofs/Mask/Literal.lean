import WikiPress.Mask.Literal
import WikiPress.Proofs.Text.Offset

/-!
# The extent of text that rules leave alone

What is passed over as an escape, a code span, an address, a tag or a comment is a whole number of
characters.  The readers of addresses, tags and comments return what follows, which is an end of the
text that they were given; the size of a code span is counted, and is the size of a beginning.

## Main results

* `Literal.dropAngle?_isSuffix` : the readers return an end of their text.
* `Literal.isOffset_codeSpanSize` : a code span ends behind a whole character.
* `Literal.isOffset_of_size?` : the same for every kind of literal text.
-/

namespace WikiPress

open Text

namespace Text

/-- What is left in front of an end of a text is a beginning of it. -/
theorem isOffset_size_sub {s v : List Char} (h : v <:+ s) : IsOffset s (size s - size v) := by
  obtain ⟨u, rfl⟩ := h
  exact ⟨u, v, rfl, by rw [size_append, Nat.add_sub_cancel]⟩

theorem IsOffset.append {u s : List Char} {n : Nat} (h : IsOffset s n) :
    IsOffset (u ++ s) (size u + n) := by
  obtain ⟨w, v, rfl, rfl⟩ := h
  exact ⟨u ++ w, v, (List.append_assoc ..).symm, size_append u w⟩

theorem splitAtFirst?_eq_some {part s before after : List Char}
    (h : splitAtFirst? part s = some (before, after)) : s = before ++ part ++ after := by
  fun_induction splitAtFirst? part s generalizing before with
  | case1 =>
    obtain ⟨rest, hrest, heq⟩ := Option.map_eq_some_iff.mp h
    obtain ⟨rfl, rfl⟩ := Prod.mk.inj heq
    exact dropText?_eq_some.mp hrest
  | case2 c s rest hrest =>
    obtain ⟨rfl, rfl⟩ := Prod.mk.inj (Option.some.inj h)
    exact dropText?_eq_some.mp hrest
  | case3 c s hnone ih =>
    obtain ⟨⟨before', after'⟩, hrest, heq⟩ := Option.map_eq_some_iff.mp h
    obtain ⟨rfl, rfl⟩ := Prod.mk.inj heq
    rw [ih hrest]
    simp

end Text

namespace Literal

/-! ### Code spans -/

/-- A run of backticks has one byte for each of them. -/
theorem takeWhile_tick (s : List Char) :
    ∃ run, s = run ++ s.drop (ticks s) ∧ size run = ticks s := by
  refine ⟨s.takeWhile (· = '\x60'), ?_, ?_⟩
  · rw [ticks, drop_length_takeWhile]
    exact (List.takeWhile_append_dropWhile).symm
  · have hall : ∀ c ∈ s.takeWhile (· = '\x60'), c = '\x60' := fun c hc => by
      simpa using List.mem_takeWhile_imp hc
    rw [ticks]
    generalize s.takeWhile (· = '\x60') = run at hall
    induction run with
    | nil => rfl
    | cons c run ih =>
      have hc : c = '\x60' := hall c (List.mem_cons_self ..)
      subst hc
      rw [size_cons, List.length_cons, ih fun d hd => hall d (List.mem_cons_of_mem _ hd),
        Nat.add_comm]
      rfl

theorem isOffset_of_sizeToTicks? {n m : Nat} {s : List Char} (h : sizeToTicks? n s = some m) :
    IsOffset s m := by
  fun_induction sizeToTicks? n s generalizing m with
  | case1 => simp at h
  | case2 rest more =>
    rename_i hmore
    obtain ⟨run, hrest, hsize⟩ := takeWhile_tick rest
    obtain rfl := Option.some.inj h
    refine ⟨'\x60' :: run, rest.drop (ticks rest), congrArg ('\x60' :: ·) hrest, ?_⟩
    rw [size_cons, hsize, ← hmore, Nat.add_comm]
    rfl
  | case3 rest more hmore =>
    rename_i ih
    obtain ⟨run, hrest, hsize⟩ := takeWhile_tick rest
    obtain ⟨k, hk, rfl⟩ := Option.map_eq_some_iff.mp h
    have hoffset := (ih hk).append (u := '\x60' :: run)
    rw [List.cons_append, ← hrest, size_cons, hsize] at hoffset
    have htick : ('\x60' : Char).utf8Size = 1 := rfl
    rw [htick] at hoffset
    rwa [show k + (ticks rest + 1) = 1 + ticks rest + k by omega]
  | case4 c rest hc ih =>
    obtain ⟨k, hk, rfl⟩ := Option.map_eq_some_iff.mp h
    have hoffset := (ih hk).append (u := [c])
    rw [size_cons, size_nil, Nat.add_zero] at hoffset
    rwa [Nat.add_comm]

theorem isOffset_codeSpanSize (s : List Char) : IsOffset s (codeSpanSize s) := by
  obtain ⟨run, hs, hsize⟩ := takeWhile_tick s
  simp only [codeSpanSize]
  split
  · next more hmore =>
    have hoffset := (isOffset_of_sizeToTicks? hmore).append (u := run)
    rwa [← hs, hsize] at hoffset
  · exact ⟨run, s.drop (ticks s), hs, hsize⟩

/-! ### Angle brackets -/

theorem dropUri?_isSuffix {s before after : List Char}
    (h : Markdown.Autolink.dropUri? s = some (before, after)) : after <:+ s := by
  simp only [Markdown.Autolink.dropUri?] at h
  split at h
  · next rest hscheme =>
    split at h
    · next rest' hpath =>
      split at h
      · obtain ⟨-, rfl⟩ := Prod.mk.inj (Option.some.inj h)
        have hrest : rest <:+ s := (List.suffix_cons _ _).trans (hscheme ▸ List.drop_suffix _ _)
        exact ((List.suffix_cons _ _).trans (hpath ▸ List.drop_suffix _ _)).trans hrest
      · simp at h
    · simp at h
  · simp at h

theorem dropMail?_isSuffix {s before after : List Char}
    (h : Markdown.Autolink.dropMail? s = some (before, after)) : after <:+ s := by
  simp only [Markdown.Autolink.dropMail?] at h
  split at h
  · next rest hname =>
    split at h
    · next rest' hhost =>
      split at h
      · obtain ⟨-, rfl⟩ := Prod.mk.inj (Option.some.inj h)
        have hrest : rest <:+ s := (List.suffix_cons _ _).trans (hname ▸ List.drop_suffix _ _)
        exact ((List.suffix_cons _ _).trans (hhost ▸ List.drop_suffix _ _)).trans hrest
      · simp at h
    · simp at h
  · simp at h

theorem dropAttributeName?_isSuffix {s after : List Char}
    (h : dropAttributeName? s = some after) : after <:+ s := by
  unfold dropAttributeName? at h
  split at h
  · next c rest =>
    split at h
    · obtain rfl := Option.some.inj h
      exact (List.dropWhile_suffix _).trans (List.suffix_cons c rest)
    · simp at h
  · simp at h

theorem dropQuoted?_isSuffix {quote : Char} {s after : List Char}
    (h : dropQuoted? quote s = some after) : after <:+ s := by
  unfold dropQuoted? at h
  split at h
  · next c rest heq =>
    obtain rfl := Option.some.inj h
    exact (List.suffix_cons c rest).trans (heq ▸ List.dropWhile_suffix _)
  · simp at h

theorem dropValue?_isSuffix {s after : List Char} (h : dropValue? s = some after) :
    after <:+ s := by
  unfold dropValue? at h
  split at h
  · simp at h
  · next c rest =>
    split at h
    · exact (dropQuoted?_isSuffix h).trans (List.suffix_cons c rest)
    · split at h
      · obtain rfl := Option.some.inj h
        exact (List.dropWhile_suffix _).trans (List.suffix_cons c rest)
      · simp at h

theorem trimStart_isSuffix (s : List Char) : trimStart s <:+ s := List.dropWhile_suffix _

theorem dropAttribute?_isSuffix {s after : List Char} (h : dropAttribute? s = some after) :
    after <:+ s := by
  unfold dropAttribute? at h
  split at h
  · simp at h
  · next c rest =>
    split at h
    · obtain ⟨afterName, hname, rfl⟩ := Option.map_eq_some_iff.mp h
      have hafter : afterName <:+ c :: rest :=
        ((dropAttributeName?_isSuffix hname).trans (trimStart_isSuffix rest)).trans
          (List.suffix_cons c rest)
      split
      · next value heq =>
        have hvalue : value <:+ afterName :=
          (List.suffix_cons _ _).trans (heq ▸ trimStart_isSuffix afterName)
        cases hv : dropValue? (trimStart value) with
        | none => exact hafter
        | some rest' =>
          exact (((dropValue?_isSuffix hv).trans (trimStart_isSuffix value)).trans hvalue).trans
            hafter
      · exact hafter
    · simp at h

theorem dropAttributes_isSuffix (fuel : Nat) (s : List Char) : dropAttributes fuel s <:+ s := by
  fun_induction dropAttributes fuel s with
  | case1 s fuel rest h ih => exact ih.trans (dropAttribute?_isSuffix h)
  | case2 => exact List.suffix_refl _

theorem dropTag?_isSuffix {s after : List Char} (h : dropTag? s = some after) : after <:+ s := by
  simp only [dropTag?] at h
  split at h
  · next c rest hname =>
    -- A slash in front of the name only makes the text shorter.
    have hstart : c :: rest <:+ s := by
      rw [← hname]
      split
      · exact List.suffix_cons _ _
      · exact List.suffix_refl _
    split at h
    · have hrest : rest.dropWhile (fun c => Ascii.isAlphanumeric c || c = '-') <:+ s :=
        ((List.dropWhile_suffix _).trans (List.suffix_cons c rest)).trans hstart
      have hend := fun fuel =>
        ((trimStart_isSuffix _).trans (dropAttributes_isSuffix fuel _)).trans hrest
      split at h
      · next rest' heq =>
        obtain rfl := Option.some.inj h
        exact (List.suffix_cons _ _).trans (heq ▸ hend _)
      · next rest' heq =>
        obtain rfl := Option.some.inj h
        exact ((List.suffix_cons _ _).trans (List.suffix_cons _ _)).trans (heq ▸ hend _)
      · simp at h
    · simp at h
  · simp at h

theorem dropComment?_isSuffix {s after : List Char} (h : dropComment? s = some after) :
    after <:+ s := by
  obtain ⟨⟨before, after'⟩, hsplit, rfl⟩ := Option.map_eq_some_iff.mp h
  obtain ⟨rest, hopen, hclose⟩ := Option.bind_eq_some_iff.mp hsplit
  rw [dropText?_eq_some.mp hopen, splitAtFirst?_eq_some hclose]
  exact (List.suffix_append _ _).trans (List.suffix_append _ _)

/-- The readers of addresses, tags and comments return an end of their text. -/
theorem dropAngle?_isSuffix {s after : List Char} (h : dropAngle? s = some after) :
    after <:+ s := by
  simp only [dropAngle?, Option.or_eq_some_iff] at h
  rcases h with h | ⟨-, h | ⟨-, h | ⟨-, h⟩⟩⟩
  · obtain ⟨⟨uri, rest⟩, hr, rfl⟩ := Option.map_eq_some_iff.mp h
    exact dropUri?_isSuffix hr
  · obtain ⟨⟨mail, rest⟩, hr, rfl⟩ := Option.map_eq_some_iff.mp h
    exact dropMail?_isSuffix hr
  · exact dropTag?_isSuffix h
  · exact dropComment?_isSuffix h

/-! ### All kinds -/

theorem utf8Size_of_isPunctuation {c : Char} (h : Ascii.isPunctuation c = true) :
    c.utf8Size = 1 := by
  rw [Char.utf8Size_eq_one_iff, UInt32.le_iff_toNat_le]
  simp only [Ascii.isPunctuation, Char.toNat, Bool.or_eq_true, Bool.and_eq_true,
    decide_eq_true_eq] at h
  show c.val.toNat ≤ 127
  omega

/-- Literal text is not empty. -/
theorem size?_pos {s : List Char} {n : Nat} (h : size? s = some n) : 0 < n := by
  unfold size? at h
  split at h
  · split at h
    · obtain rfl := Option.some.inj h
      exact Nat.two_pos
    · simp at h
  · next rest =>
    obtain rfl := Option.some.inj h
    have hticks : 0 < ticks ('\x60' :: rest) := by
      rw [ticks, List.takeWhile_cons_of_pos (by simp), List.length_cons]
      exact Nat.succ_pos _
    simp only [codeSpanSize]
    split <;> omega
  · next rest =>
    obtain ⟨after, hafter, rfl⟩ := Option.map_eq_some_iff.mp h
    obtain ⟨u, rfl⟩ := dropAngle?_isSuffix hafter
    have := ('<' : Char).utf8Size_pos
    rw [size_cons, size_append]
    omega
  · simp at h

/-- The literal text at the start of a text ends behind a whole character. -/
theorem isOffset_of_size? {s : List Char} {n : Nat} (h : size? s = some n) : IsOffset s n := by
  unfold size? at h
  split at h
  · next c rest =>
    split at h
    · next hc =>
      obtain rfl := Option.some.inj h
      refine ⟨['\\', c], rest, rfl, ?_⟩
      rw [size_cons, size_cons, utf8Size_of_isPunctuation hc]
      rfl
    · simp at h
  · obtain rfl := Option.some.inj h
    exact isOffset_codeSpanSize _
  · next rest =>
    obtain ⟨after, hafter, rfl⟩ := Option.map_eq_some_iff.mp h
    exact isOffset_size_sub ((dropAngle?_isSuffix hafter).trans (List.suffix_cons _ _))
  · simp at h

end Literal

end WikiPress
