import Mathlib.Data.List.TakeWhile
import WikiPress.Text.CharSet
import WikiPress.Text.Measure
import WikiPress.Text.Number

/-!
# Byte offsets between characters

A text can be cut at a byte offset exactly if the offset is the size of a beginning of the text.
The functions that cut a text at byte offsets are described here by such beginnings, and so are two
other ways of taking a text apart: the pieces between the occurrences of one character, and the
decimal digits of a number.

## Main definitions

* `Text.IsOffset` : an offset that falls between two characters.
* `Text.EndsWhole` : an offset at which a stretch of text may end.

## Main results

* `Text.dropBytes?_eq_some_iff`, `Text.sliceBytes?_eq_some_iff`
* `Text.IsOffset.exists_between` : a text is cut in three at two offsets.
* `Text.intercalate_splitAtEach`, `Text.length_splitAtEach` : the pieces of a text make up the text,
  and there is one more of them than there are places between them.
* `Text.readNumber?_toDigits` : a number is read from its digits.
-/

namespace WikiPress.Text

/-! ### Offsets -/

/-- The offset falls between two characters of the text, or at one of its ends. -/
def IsOffset (s : List Char) (n : Nat) : Prop := ∃ u v, s = u ++ v ∧ size u = n

/-- A stretch of text that ends at the offset ends behind a whole character, or past the end. -/
def EndsWhole (s : List Char) (n : Nat) : Prop := size s ≤ n ∨ IsOffset s n

theorem isOffset_zero (s : List Char) : IsOffset s 0 := ⟨[], s, rfl, rfl⟩

theorem isOffset_size (s : List Char) : IsOffset s (size s) := ⟨s, [], (s.append_nil).symm, rfl⟩

theorem IsOffset.le_size {s : List Char} {n : Nat} (h : IsOffset s n) : n ≤ size s := by
  obtain ⟨u, v, rfl, rfl⟩ := h
  rw [size_append]
  exact Nat.le_add_right _ _

theorem IsOffset.max {s : List Char} {a b : Nat} (ha : IsOffset s a) (hb : IsOffset s b) :
    IsOffset s (max a b) := by
  rw [Nat.max_def]
  split <;> assumption

theorem IsOffset.min {s : List Char} {a b : Nat} (ha : IsOffset s a) (hb : IsOffset s b) :
    IsOffset s (min a b) := by
  rw [Nat.min_def]
  split <;> assumption

theorem EndsWhole.isOffset_min {s : List Char} {n : Nat} (h : EndsWhole s n) :
    IsOffset s (min n (size s)) := by
  rcases h with h | h
  · rw [Nat.min_eq_right h]
    exact isOffset_size s
  · rw [Nat.min_eq_left h.le_size]
    exact h

theorem EndsWhole.isOffset {s : List Char} {n : Nat} (h : EndsWhole s n) (hn : n < size s) :
    IsOffset s n := h.resolve_left (Nat.not_le.mpr hn)

theorem eq_nil_of_size_eq_zero {s : List Char} (h : size s = 0) : s = [] := by
  cases s with
  | nil => rfl
  | cons c s =>
    have := c.utf8Size_pos
    rw [size_cons] at h
    omega

theorem size_pos_of_ne_nil {s : List Char} (h : s ≠ []) : 0 < size s :=
  Nat.pos_of_ne_zero fun h0 => h (eq_nil_of_size_eq_zero h0)

/-- Of two beginnings of a text the longer one continues the other. -/
theorem exists_append_of_size_le {u v x y : List Char} (h : u ++ v = x ++ y)
    (hle : size u ≤ size x) : ∃ w, x = u ++ w ∧ v = w ++ y := by
  rcases List.append_eq_append_iff.mp h with ⟨w, rfl, rfl⟩ | ⟨w, rfl, rfl⟩
  · exact ⟨w, rfl, rfl⟩
  · rw [size_append] at hle
    have hw : w = [] := eq_nil_of_size_eq_zero (by omega)
    subst hw
    exact ⟨[], by simp, by simp⟩

theorem eq_of_append_eq_append_of_size_eq {u v u' v' : List Char} (h : u ++ v = u' ++ v')
    (hsize : size u = size u') : u = u' ∧ v = v' := by
  obtain ⟨w, hu, hv⟩ := exists_append_of_size_le h (Nat.le_of_eq hsize)
  have hw : w = [] := eq_nil_of_size_eq_zero (by rw [hu, size_append] at hsize; omega)
  subst hw
  exact ⟨by simpa using hu.symm, by simpa using hv⟩

/-- Two offsets in ascending order cut a text in three. -/
theorem IsOffset.exists_between {s : List Char} {a b : Nat} (ha : IsOffset s a)
    (hb : IsOffset s b) (hab : a ≤ b) :
    ∃ u w v, s = u ++ w ++ v ∧ size u = a ∧ a + size w = b := by
  obtain ⟨u, v, rfl, rfl⟩ := ha
  obtain ⟨u', v', h, rfl⟩ := hb
  obtain ⟨w, rfl, rfl⟩ := exists_append_of_size_le h hab
  exact ⟨u, w, v', (List.append_assoc ..).symm, rfl, (size_append u w).symm⟩

/-- No offset falls inside a character. -/
theorem IsOffset.eq_of_lt_add {s u v : List Char} {c : Char} {n : Nat} (h : IsOffset s n)
    (hs : s = u ++ c :: v) (hle : size u ≤ n) (hlt : n < size u + c.utf8Size) : n = size u := by
  subst hs
  obtain ⟨u', v', heq, rfl⟩ := h
  obtain ⟨w, rfl, hw⟩ := exists_append_of_size_le heq hle
  rw [size_append] at hlt ⊢
  cases w with
  | nil => simp
  | cons d w =>
    obtain ⟨rfl, -⟩ := List.cons.inj hw
    rw [size_cons] at hlt
    omega

/-! ### Cutting at offsets -/

theorem dropBytes?_eq_some_iff {s v : List Char} {n : Nat} :
    dropBytes? s n = some v ↔ ∃ u, s = u ++ v ∧ size u = n := by
  constructor
  · intro h
    fun_induction dropBytes? s n with
    | case1 s => exact ⟨[], by simpa using h, rfl⟩
    | case2 => simp at h
    | case3 c s n hc ih =>
      obtain ⟨u, rfl, hu⟩ := ih h
      exact ⟨c :: u, rfl, by rw [size_cons]; omega⟩
    | case4 => simp at h
  · rintro ⟨u, rfl, rfl⟩
    exact dropBytes?_size_append u v

theorem takeBytes?_eq_some_iff {s u : List Char} {n : Nat} :
    takeBytes? s n = some u ↔ ∃ v, s = u ++ v ∧ size u = n := by
  constructor
  · intro h
    fun_induction takeBytes? s n generalizing u with
    | case1 s => exact ⟨s, by simp_all⟩
    | case2 => simp at h
    | case3 c s n hc ih =>
      obtain ⟨u, hu, rfl⟩ := Option.map_eq_some_iff.mp h
      obtain ⟨v, rfl, hsize⟩ := ih hu
      exact ⟨v, rfl, by rw [size_cons]; omega⟩
    | case4 => simp at h
  · rintro ⟨v, rfl, rfl⟩
    exact takeBytes?_size_append u v

theorem sliceBytes?_eq_some_iff {s w : List Char} {a b : Nat} :
    sliceBytes? s a b = some w ↔ ∃ u v, s = u ++ w ++ v ∧ size u = a ∧ a + size w = b := by
  constructor
  · intro h
    rw [sliceBytes?] at h
    split at h
    · next hab =>
      obtain ⟨rest, hd, ht⟩ := Option.bind_eq_some_iff.mp h
      obtain ⟨u, rfl, hu⟩ := dropBytes?_eq_some_iff.mp hd
      obtain ⟨v, rfl, hw⟩ := takeBytes?_eq_some_iff.mp ht
      exact ⟨u, v, (List.append_assoc ..).symm, hu, by omega⟩
    · simp at h
  · rintro ⟨u, v, rfl, rfl, rfl⟩
    rw [sliceBytes?, if_pos (Nat.le_add_right _ _), Option.bind_eq_some_iff]
    refine ⟨w ++ v, ?_, ?_⟩
    · rw [List.append_assoc]
      exact dropBytes?_size_append u (w ++ v)
    · rw [Nat.add_sub_cancel_left]
      exact takeBytes?_size_append w v

theorem isSome_dropBytes?_iff {s : List Char} {n : Nat} :
    (dropBytes? s n).isSome ↔ IsOffset s n := by
  rw [Option.isSome_iff_exists]
  constructor
  · rintro ⟨v, h⟩
    obtain ⟨u, hu⟩ := dropBytes?_eq_some_iff.mp h
    exact ⟨u, v, hu⟩
  · rintro ⟨u, v, h⟩
    exact ⟨v, dropBytes?_eq_some_iff.mpr ⟨u, h⟩⟩

instance (s : List Char) (n : Nat) : Decidable (IsOffset s n) :=
  decidable_of_iff _ isSome_dropBytes?_iff

instance (s : List Char) (n : Nat) : Decidable (EndsWhole s n) :=
  inferInstanceAs (Decidable (_ ∨ _))

/-! ### Pieces between the occurrences of a character -/

theorem takeWhile_ne_eq_self {sep : Char} {s : List Char} (h : sep ∉ s) :
    s.takeWhile (· ≠ sep) = s := by
  refine List.takeWhile_eq_self_iff.mpr fun c hc => ?_
  rw [decide_eq_true_eq]
  rintro rfl
  exact h hc

theorem takeWhile_ne_append_cons {sep : Char} {s : List Char} (h : sep ∉ s) (t : List Char) :
    (s ++ sep :: t).takeWhile (· ≠ sep) = s := by
  rw [List.takeWhile_append_of_pos (List.takeWhile_eq_self_iff.mp (takeWhile_ne_eq_self h)),
    List.takeWhile_cons_of_neg (by simp), List.append_nil]

theorem drop_length_takeWhile (p : Char → Bool) (s : List Char) :
    s.drop (s.takeWhile p).length = s.dropWhile p := by
  induction s with
  | nil => rfl
  | cons c s ih =>
    rw [List.takeWhile_cons, List.dropWhile_cons]
    split
    · exact ih
    · rfl

theorem splitAtEach_ne_nil (sep : Char) (s : List Char) : splitAtEach sep s ≠ [] := by
  fun_induction splitAtEach sep s with
  | case1 => simp
  | case2 => simp
  | case3 => simp
  | case4 => simp

theorem splitAtEach_cons_self (sep : Char) (s : List Char) :
    splitAtEach sep (sep :: s) = [] :: splitAtEach sep s := by
  rw [splitAtEach, if_pos rfl]

theorem splitAtEach_of_notMem {sep : Char} {s : List Char} (h : sep ∉ s) :
    splitAtEach sep s = [s] := by
  induction s with
  | nil => rfl
  | cons c s ih =>
    rw [List.mem_cons, not_or] at h
    rw [splitAtEach, if_neg (Ne.symm h.1), ih h.2]

theorem splitAtEach_append (sep : Char) (s t : List Char) :
    splitAtEach sep (s ++ sep :: t) = splitAtEach sep s ++ splitAtEach sep t := by
  induction s with
  | nil => exact splitAtEach_cons_self sep t
  | cons c s ih =>
    rw [List.cons_append, splitAtEach, splitAtEach]
    split
    · rw [ih, List.cons_append]
    · rw [ih]
      cases hs : splitAtEach sep s with
      | nil => exact absurd hs (splitAtEach_ne_nil _ _)
      | cons piece pieces => rfl

theorem splitAtEach_append_cons {sep : Char} {s : List Char} (t : List Char) (h : sep ∉ s) :
    splitAtEach sep (s ++ sep :: t) = s :: splitAtEach sep t := by
  rw [splitAtEach_append, splitAtEach_of_notMem h]
  rfl

theorem notMem_of_mem_splitAtEach {sep : Char} {s piece : List Char}
    (h : piece ∈ splitAtEach sep s) : sep ∉ piece := by
  fun_induction splitAtEach sep s generalizing piece with
  | case1 => simp_all
  | case2 rest ih =>
    rcases List.mem_cons.mp h with rfl | h
    · simp
    · exact ih h
  | case3 c rest hc heq ih => exact absurd heq (splitAtEach_ne_nil sep rest)
  | case4 c rest hc first pieces heq ih =>
    rcases List.mem_cons.mp h with rfl | h
    · rw [List.mem_cons, not_or]
      exact ⟨Ne.symm hc, ih (by rw [heq]; exact List.mem_cons_self ..)⟩
    · exact ih (by rw [heq]; exact List.mem_cons_of_mem _ h)

theorem mem_of_mem_splitAtEach {sep c : Char} {s piece : List Char}
    (h : piece ∈ splitAtEach sep s) (hc : c ∈ piece) : c ∈ s := by
  fun_induction splitAtEach sep s generalizing piece with
  | case1 => simp_all
  | case2 rest ih =>
    rcases List.mem_cons.mp h with rfl | h
    · simp at hc
    · exact List.mem_cons_of_mem _ (ih h hc)
  | case3 d rest hd heq ih => exact absurd heq (splitAtEach_ne_nil sep rest)
  | case4 d rest hd first pieces heq ih =>
    rcases List.mem_cons.mp h with rfl | h
    · rcases List.mem_cons.mp hc with rfl | hc
      · exact List.mem_cons_self ..
      · exact List.mem_cons_of_mem _ (ih (by rw [heq]; exact List.mem_cons_self ..) hc)
    · exact List.mem_cons_of_mem _ (ih (by rw [heq]; exact List.mem_cons_of_mem _ h) hc)

theorem length_splitAtEach (sep : Char) (s : List Char) :
    (splitAtEach sep s).length = s.count sep + 1 := by
  fun_induction splitAtEach sep s with
  | case1 => rfl
  | case2 rest ih => rw [List.length_cons, ih, List.count_cons_self]
  | case3 c rest hc heq ih => exact absurd heq (splitAtEach_ne_nil sep rest)
  | case4 c rest hc first pieces heq ih =>
    rw [heq] at ih
    rw [List.count_cons_of_ne hc, ← ih, List.length_cons, List.length_cons]

/-- The pieces joined again are the text. -/
theorem intercalate_splitAtEach (sep : Char) (s : List Char) :
    [sep].intercalate (splitAtEach sep s) = s := by
  fun_induction splitAtEach sep s with
  | case1 => rfl
  | case2 rest ih =>
    rw [List.intercalate_cons_of_ne_nil (splitAtEach_ne_nil sep rest), ih]
    rfl
  | case3 c rest hc heq ih => exact absurd heq (splitAtEach_ne_nil sep rest)
  | case4 c rest hc first pieces heq ih =>
    rw [heq] at ih
    cases pieces with
    | nil =>
      rw [List.intercalate_singleton] at ih ⊢
      rw [ih]
    | cons second pieces =>
      rw [List.intercalate_cons_cons] at ih ⊢
      rw [List.cons_append, List.cons_append, ih]

/-! ### Digits -/

theorem readNumber?_toDigits {most n : Nat} (h : n ≤ most) :
    readNumber? most (Nat.toDigits 10 n) = some n := by
  have hdigit : ∀ c ∈ Nat.toDigits 10 n, c.isDigit = true := fun c hc =>
    Nat.isDigit_of_mem_toDigits (by decide) (by decide) hc
  have hvalue : digitsValue (Nat.toDigits 10 n) = n := by
    refine Eq.trans ?_ (Nat.ofDigitChars_ten_toDigits (n := n))
    rfl
  unfold readNumber?
  split
  · next rest heq =>
    have := hdigit '+' (heq ▸ List.mem_cons_self ..)
    exact absurd this (by decide)
  · have hall : (Nat.toDigits 10 n).all Char.isDigit = true := List.all_eq_true.mpr hdigit
    have hempty : (Nat.toDigits 10 n).isEmpty = false :=
      List.isEmpty_eq_false_iff.mpr Nat.toDigits_ne_nil
    simp [hempty, hall, hvalue, h]

end WikiPress.Text
