import WikiPress.Text.Blank

/-!
# Trimming

## Main results

* `Text.trim_subset` : a trimmed text has only characters of the text.
* `Text.trim_append_blank` : a blank behind a text is trimmed away.
* `Text.ends_trim` : a trimmed text begins and ends with no blank.
* `Text.trim_eq_self` : a text that begins and ends with no blank stays as it is.
* `Text.getLast?_trim` : a trimmed text ends as the text does, if the text ends with no blank.
-/

namespace WikiPress.Text

theorem dropEndWhile_subset (p : Char → Bool) (s : List Char) : dropEndWhile p s ⊆ s := by
  intro c hc
  rw [dropEndWhile, List.mem_reverse] at hc
  exact List.mem_reverse.mp ((List.dropWhile_sublist p).subset hc)

/-- A trimmed text has only characters of the text. -/
theorem trim_subset (s : List Char) : trim s ⊆ s := fun _ hc =>
  (List.dropWhile_sublist _).subset (dropEndWhile_subset _ _ hc)

/-! ### A blank at the end -/

theorem dropEndWhile_append_singleton {p : Char → Bool} {c : Char} (s : List Char)
    (h : p c = true) : dropEndWhile p (s ++ [c]) = dropEndWhile p s := by
  rw [dropEndWhile, List.reverse_append, List.reverse_singleton, List.singleton_append,
    List.dropWhile_cons_of_pos h, ← dropEndWhile]

theorem dropEndWhile_append_of_pos {p : Char → Bool} {t : List Char} (s : List Char)
    (h : ∀ c ∈ t, p c = true) : dropEndWhile p (s ++ t) = dropEndWhile p s := by
  rw [dropEndWhile, List.reverse_append,
    List.dropWhile_append_of_pos fun c hc => h c (List.mem_reverse.mp hc), ← dropEndWhile]

/-- The start of a text is trimmed over a blank at its end only if the text is blank. -/
theorem trimStart_append_blank (s : List Char) {c : Char} (h : isBlank c = true) :
    trimStart (s ++ [c]) = trimStart s ∨ trimStart (s ++ [c]) = trimStart s ++ [c] := by
  simp only [trimStart]
  rw [List.dropWhile_append]
  split
  · next hempty =>
    rw [List.isEmpty_iff.mp hempty, List.dropWhile_cons_of_pos h]
    exact .inl rfl
  · exact .inr rfl

/-- A blank behind a text is trimmed away. -/
theorem trim_append_blank (s : List Char) {c : Char} (h : isBlank c = true) :
    trim (s ++ [c]) = trim s := by
  rw [trim_eq, trim_eq]
  rcases trimStart_append_blank s h with heq | heq
  · rw [heq]
  · rw [heq]
    exact dropEndWhile_append_singleton _ h

/-! ### The ends of a trimmed text -/

theorem exists_eq_dropEndWhile_append (p : Char → Bool) (s : List Char) :
    ∃ t, s = dropEndWhile p s ++ t ∧ ∀ c ∈ t, p c = true := by
  refine ⟨(s.reverse.takeWhile p).reverse, ?_, fun c hc => ?_⟩
  · rw [dropEndWhile, ← List.reverse_append, List.takeWhile_append_dropWhile, List.reverse_reverse]
  · exact List.all_eq_true.mp List.all_takeWhile c (List.mem_reverse.mp hc)

theorem prefix_dropEndWhile (p : Char → Bool) (s : List Char) :
    ∃ t, s = dropEndWhile p s ++ t := by
  obtain ⟨t, ht, -⟩ := exists_eq_dropEndWhile_append p s
  exact ⟨t, ht⟩

theorem eq_false_of_mem_head?_dropWhile {p : Char → Bool} {s : List Char} {c : Char}
    (hc : c ∈ (s.dropWhile p).head?) : p c = false := by
  have := List.head?_dropWhile_not p s
  rw [Option.mem_def] at hc
  rw [hc] at this
  exact this

/-- A trimmed text begins and ends with no blank. -/
theorem ends_trim (s : List Char) :
    (∀ c ∈ (trim s).head?, isBlank c = false) ∧ ∀ c ∈ (trim s).getLast?, isBlank c = false := by
  constructor
  · intro c hc
    obtain ⟨t, ht⟩ := prefix_dropEndWhile isBlank (trimStart s)
    refine eq_false_of_mem_head?_dropWhile (p := isBlank) (s := s) ?_
    rw [← trimStart, ht, List.head?_append, ← trimEnd, ← trim_eq, hc]
    rfl
  · intro c hc
    rw [trim_eq, trimEnd, dropEndWhile, List.getLast?_reverse] at hc
    exact eq_false_of_mem_head?_dropWhile hc

theorem dropWhile_eq_self_of_head? {p : Char → Bool} {s : List Char}
    (h : ∀ c ∈ s.head?, p c = false) : s.dropWhile p = s := by
  cases s with
  | nil => rfl
  | cons c s => exact List.dropWhile_cons_of_neg (by simp [h c rfl])

theorem dropEndWhile_eq_self_of_getLast? {p : Char → Bool} {s : List Char}
    (h : ∀ c ∈ s.getLast?, p c = false) : dropEndWhile p s = s := by
  rw [dropEndWhile, dropWhile_eq_self_of_head? (by rwa [List.head?_reverse]), List.reverse_reverse]

theorem trimWith_eq_self {p : Char → Bool} {s : List Char} (hhead : ∀ c ∈ s.head?, p c = false)
    (hlast : ∀ c ∈ s.getLast?, p c = false) : trimWith p s = s := by
  rw [trimWith, dropWhile_eq_self_of_head? hhead, dropEndWhile_eq_self_of_getLast? hlast]

/-- A text that begins and ends with no blank stays as it is. -/
theorem trim_eq_self {s : List Char} (hhead : ∀ c ∈ s.head?, isBlank c = false)
    (hlast : ∀ c ∈ s.getLast?, isBlank c = false) : trim s = s := trimWith_eq_self hhead hlast

/-- Blanks around a text are trimmed away if it begins and ends with no blank itself. -/
theorem trim_append_append {before s after : List Char} (hbefore : ∀ c ∈ before, isBlank c = true)
    (hafter : ∀ c ∈ after, isBlank c = true) (hhead : ∀ c ∈ s.head?, isBlank c = false)
    (hlast : ∀ c ∈ s.getLast?, isBlank c = false) : trim (before ++ (s ++ after)) = s := by
  rw [trim_eq, trimStart, List.dropWhile_append_of_pos hbefore]
  cases s with
  | nil =>
    have hempty : (after ++ []).dropWhile isBlank = [] := List.dropWhile_append_of_pos hafter
    rw [List.append_nil] at hempty
    rw [List.nil_append, hempty]
    rfl
  | cons c s =>
    rw [dropWhile_eq_self_of_head? (by simpa using hhead), trimEnd,
      dropEndWhile_append_of_pos _ hafter, dropEndWhile_eq_self_of_getLast? hlast]

/-- The last character of a text is not trimmed away if it is no blank. -/
theorem getLast?_trim {s : List Char} {c : Char} (hc : s.getLast? = some c)
    (hblank : isBlank c = false) : (trim s).getLast? = some c := by
  have hstart : (trimStart s).getLast? = some c := by
    have hsplit : s.takeWhile isBlank ++ trimStart s = s := List.takeWhile_append_dropWhile
    rw [← hsplit, List.getLast?_append] at hc
    rcases Option.or_eq_some_iff.mp hc with h | ⟨-, h⟩
    · exact h
    · have := List.all_eq_true.mp List.all_takeWhile c (List.mem_of_getLast? h)
      rw [hblank] at this
      exact absurd this Bool.false_ne_true
  have hend : trimEnd (trimStart s) = trimStart s := by
    refine dropEndWhile_eq_self_of_getLast? fun d hd => ?_
    rw [hstart, Option.mem_some] at hd
    exact hd ▸ hblank
  rw [trim_eq, hend, hstart]

end WikiPress.Text
