import WikiPress.Proofs.Text.Offset

/-!
# The bytes of a text

A scanner that looks at the bytes of a text in UTF-8 sees an ASCII character as its one byte.  Every
other character it sees as bytes of a range of their own, none of which is that of an ASCII character,
so that what the scanner looks for is never found inside a character.

A text is cut at byte offsets, which fails for offsets that are out of order, past the end or inside
a character.

## Main definitions

* `Text.bytes` : the bytes of a text.
* `Text.IsHigh` : bytes of characters that are not ASCII.
* `Text.slice` : the text between two byte offsets, or why there is none.
* `Text.find?` : the byte offset of the first occurrence of a character.

## Main results

* `Text.length_bytes` : byte offsets count the bytes of a text.
* `Text.bytes_cons_cases` : the bytes of the first character of a text.
* `Text.head?_bytes_eq_some_iff` : the first byte tells an ASCII character.
* `Text.exists_eq_append_cons_of_getElem?_bytes` : so does any other byte.
* `Text.slice_eq_ok_iff`, `Text.slice_of_isOffset` : which slices there are.
* `Text.find?_append_cons` : where a character is found.
-/

namespace WikiPress.Text

/-! ### Bytes -/

/-- The bytes of a text in UTF-8. -/
def bytes (s : List Char) : List UInt8 := s.flatMap String.utf8EncodeChar

/-- Bytes none of which is that of an ASCII character. -/
def IsHigh (w : List UInt8) : Prop := ∀ b ∈ w, 128 ≤ b.toNat

variable {c d : Char} {s t : List Char} {b : UInt8} {w : List UInt8}

@[simp] theorem bytes_nil : bytes [] = [] := rfl

theorem bytes_cons (c : Char) (s : List Char) :
    bytes (c :: s) = String.utf8EncodeChar c ++ bytes s := rfl

/-- The size of a text is the number of its bytes. -/
theorem length_bytes (s : List Char) : (bytes s).length = size s := by
  induction s with
  | nil => rfl
  | cons c s ih => rw [bytes_cons, List.length_append, String.length_utf8EncodeChar, ih, size_cons]

theorem bytes_append (s t : List Char) : bytes (s ++ t) = bytes s ++ bytes t :=
  List.flatMap_append

/-- Behind a beginning of a text stand the bytes of what follows it. -/
theorem drop_size_bytes_append (s t : List Char) : (bytes (s ++ t)).drop (size s) = bytes t := by
  rw [bytes_append, ← length_bytes, List.drop_left]

theorem utf8Size_of_lt (h : c.toNat < 128) : c.utf8Size = 1 := by
  rw [Char.utf8Size_eq_one_iff, UInt32.le_iff_toNat_le]
  exact Nat.le_of_lt_succ h

/-- An ASCII character is one byte. -/
theorem bytes_cons_of_lt (h : c.toNat < 128) (s : List Char) :
    bytes (c :: s) = c.toUInt8 :: bytes s := by
  rw [bytes_cons, String.utf8EncodeChar_eq_singleton (utf8Size_of_lt h)]
  rfl

theorem toNat_toUInt8 (h : c.toNat < 128) : c.toUInt8.toNat = c.toNat := by
  show c.val.toNat % 256 = c.val.toNat
  exact Nat.mod_eq_of_lt (Nat.lt_trans h (by decide))

/-- Different ASCII characters have different bytes. -/
theorem toUInt8_inj (hc : c.toNat < 128) (hd : d.toNat < 128) : c.toUInt8 = d.toUInt8 ↔ c = d := by
  refine ⟨fun h => ?_, fun h => h ▸ rfl⟩
  have := congrArg UInt8.toNat h
  rw [toNat_toUInt8 hc, toNat_toUInt8 hd] at this
  exact Char.toNat_inj.mp this

theorem isHigh_utf8EncodeChar (h : 128 ≤ c.toNat) : IsHigh (String.utf8EncodeChar c) := by
  intro b hb
  have hv : 128 ≤ c.val.toNat := h
  have hofNat : ∀ n, 128 ≤ n → n < 256 → 128 ≤ (UInt8.ofNat n).toNat := by
    intro n hn hlt
    rwa [UInt8.toNat_ofNat', Nat.mod_eq_of_lt hlt]
  rw [String.utf8EncodeChar] at hb
  split at hb
  · omega
  · split at hb
    · simp only [List.mem_cons, List.not_mem_nil, or_false] at hb
      rcases hb with rfl | rfl <;> exact hofNat _ (by omega) (by omega)
    · split at hb
      · simp only [List.mem_cons, List.not_mem_nil, or_false] at hb
        rcases hb with rfl | rfl | rfl <;> exact hofNat _ (by omega) (by omega)
      · simp only [List.mem_cons, List.not_mem_nil, or_false] at hb
        rcases hb with rfl | rfl | rfl | rfl <;> exact hofNat _ (by omega) (by omega)

/-- What the bytes of a text begin with: the one byte of an ASCII character, or high bytes. -/
theorem bytes_cons_cases (c : Char) (s : List Char) :
    (c.toNat < 128 ∧ bytes (c :: s) = c.toUInt8 :: bytes s) ∨
      (128 ≤ c.toNat ∧ ∃ b w, IsHigh (b :: w) ∧ w.length + 1 = c.utf8Size ∧
        bytes (c :: s) = b :: (w ++ bytes s)) := by
  rcases Nat.lt_or_ge c.toNat 128 with h | h
  · exact .inl ⟨h, bytes_cons_of_lt h s⟩
  · obtain ⟨b, w, hbw⟩ := List.exists_cons_of_ne_nil (String.utf8EncodeChar_ne_nil (c := c))
    refine .inr ⟨h, b, w, hbw ▸ isHigh_utf8EncodeChar h, ?_, by rw [bytes_cons, hbw, List.cons_append]⟩
    rw [← String.length_utf8EncodeChar, hbw, List.length_cons]

theorem IsHigh.ne (h : IsHigh w) (hb : b ∈ w) (hd : d.toNat < 128) : b ≠ d.toUInt8 := by
  rintro rfl
  have := h _ hb
  rw [toNat_toUInt8 hd] at this
  omega

theorem IsHigh.head_ne (h : IsHigh (b :: w)) (hd : d.toNat < 128) : b ≠ d.toUInt8 :=
  h.ne (List.mem_cons_self ..) hd

theorem IsHigh.tail (h : IsHigh (b :: w)) : IsHigh w := (List.forall_mem_cons.mp h).2

/-- The first byte tells whether a text begins with an ASCII character. -/
theorem head?_bytes_eq_some_iff (hd : d.toNat < 128) :
    (bytes s).head? = some d.toUInt8 ↔ s.head? = some d := by
  cases s with
  | nil => simp
  | cons c s =>
    rcases bytes_cons_cases c s with ⟨hc, heq⟩ | ⟨hc, b, w, hhigh, -, heq⟩
    · rw [heq, List.head?_cons, List.head?_cons, Option.some.injEq, Option.some.injEq,
        toUInt8_inj hc hd]
    · rw [heq, List.head?_cons, List.head?_cons, Option.some.injEq, Option.some.injEq]
      refine iff_of_false (hhigh.head_ne hd) ?_
      rintro rfl
      omega

/-- A byte of an ASCII character stands for a whole character of the text. -/
theorem exists_eq_append_cons_of_getElem?_bytes {n : Nat} (hd : d.toNat < 128)
    (h : (bytes s)[n]? = some d.toUInt8) : ∃ u v, s = u ++ d :: v ∧ size u = n := by
  induction s generalizing n with
  | nil => exact absurd h (by simp)
  | cons c s ih =>
    have behind : ∀ k, (bytes s)[k]? = some d.toUInt8 →
        ∃ u v, c :: s = u ++ d :: v ∧ size u = c.utf8Size + k := by
      intro k hk
      obtain ⟨u, v, rfl, rfl⟩ := ih hk
      exact ⟨c :: u, v, rfl, rfl⟩
    rcases bytes_cons_cases c s with ⟨hc, heq⟩ | ⟨-, b, w, hhigh, hsize, heq⟩
    · rw [heq] at h
      cases n with
      | zero =>
        obtain rfl := (toUInt8_inj hc hd).mp (Option.some.inj h)
        exact ⟨[], s, rfl, rfl⟩
      | succ k =>
        rw [Nat.add_comm, ← utf8Size_of_lt hc]
        exact behind k h
    · -- The byte is none of those of a character that is not ASCII.
      rw [heq, ← List.cons_append] at h
      rcases Nat.lt_or_ge n (b :: w).length with hn | hn
      · rw [List.getElem?_append_left hn] at h
        exact absurd rfl (hhigh.ne (List.mem_of_getElem? h) hd)
      · rw [List.getElem?_append_right hn] at h
        rw [List.length_cons, hsize] at h hn
        obtain ⟨u, v, hs, hu⟩ := behind _ h
        exact ⟨u, v, hs, by omega⟩

/-! ### Slices -/

/-- Why a text has no slice between two byte offsets. -/
inductive SliceError where
  | outOfOrder
  | pastEnd
  | insideCharacter
  deriving DecidableEq, Repr

/-- The text between two byte offsets. -/
def slice (s : List Char) (start stop : Nat) : Except SliceError (List Char) :=
  if stop < start then .error .outOfOrder
  else if size s < stop then .error .pastEnd
  else
    match sliceBytes? s start stop with
    | some t => .ok t
    | none => .error .insideCharacter

/-- The text from a byte offset on. -/
def sliceFrom (s : List Char) (start : Nat) : Except SliceError (List Char) :=
  slice s start (size s)

/-- The text up to a byte offset. -/
def sliceTo (s : List Char) (stop : Nat) : Except SliceError (List Char) := slice s 0 stop

/-- A slice is what stands between a beginning and an end of a text. -/
theorem slice_eq_ok_iff {start stop : Nat} :
    slice s start stop = .ok t ↔ ∃ u v, s = u ++ t ++ v ∧ size u = start ∧ start + size t = stop := by
  rw [← sliceBytes?_eq_some_iff, slice]
  constructor
  · intro h
    split at h
    · exact absurd h (by simp)
    · split at h
      · exact absurd h (by simp)
      · cases hslice : sliceBytes? s start stop with
        | none => rw [hslice] at h; exact absurd h (by simp)
        | some w => rw [hslice] at h; exact congrArg some (Except.ok.inj h)
  · intro h
    obtain ⟨u, v, rfl, rfl, rfl⟩ := sliceBytes?_eq_some_iff.mp h
    rw [if_neg (by omega), if_neg (by simp only [size_append]; omega), h]

/-- Between two offsets in ascending order there is a slice. -/
theorem slice_of_isOffset {start stop : Nat} (hstart : IsOffset s start) (hstop : IsOffset s stop)
    (hle : start ≤ stop) : slice s start stop = .ok ((sliceBytes? s start stop).getD []) := by
  obtain ⟨u, t, v, hs, hu, ht⟩ := hstart.exists_between hstop hle
  rw [slice_eq_ok_iff.mpr ⟨u, v, hs, hu, ht⟩, sliceBytes?_eq_some_iff.mpr ⟨u, v, hs, hu, ht⟩,
    Option.getD_some]

theorem sliceFrom_append (s t : List Char) : sliceFrom (s ++ t) (size s) = .ok t :=
  slice_eq_ok_iff.mpr ⟨s, [], (List.append_nil _).symm, rfl, (size_append s t).symm⟩

theorem sliceTo_append (s t : List Char) : sliceTo (s ++ t) (size s) = .ok s :=
  slice_eq_ok_iff.mpr ⟨[], t, rfl, rfl, Nat.zero_add _⟩

/-- From an offset in front of which there is something, less than the text is left. -/
theorem length_lt_of_sliceFrom {start : Nat} (hstart : 0 < start) (h : sliceFrom s start = .ok t) :
    t.length < s.length := by
  obtain ⟨u, v, rfl, rfl, -⟩ := slice_eq_ok_iff.mp h
  have hu : u ≠ [] := by
    rintro rfl
    exact Nat.lt_irrefl _ hstart
  have := List.length_pos_iff.mpr hu
  simp only [List.length_append]
  omega

/-! ### Occurrences -/

/-- The byte offset of the first occurrence of a character. -/
def find? (c : Char) : List Char → Option Nat
  | [] => none
  | d :: s => if d = c then some 0 else (find? c s).map (d.utf8Size + ·)

theorem find?_append_cons (h : c ∉ s) (t : List Char) : find? c (s ++ c :: t) = some (size s) := by
  induction s with
  | nil => exact if_pos rfl
  | cons d s ih =>
    rw [List.mem_cons, not_or] at h
    rw [List.cons_append, find?, if_neg (Ne.symm h.1), ih h.2]
    rfl

theorem find?_eq_none (h : c ∉ s) : find? c s = none := by
  induction s with
  | nil => rfl
  | cons d s ih =>
    rw [List.mem_cons, not_or] at h
    rw [find?, if_neg (Ne.symm h.1), ih h.2]
    rfl

end WikiPress.Text
