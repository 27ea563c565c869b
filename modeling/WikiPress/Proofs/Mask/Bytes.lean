import WikiPress.Proofs.Mask.Literal
import WikiPress.Proofs.Text.Bytes

/-!
# Literal text read byte by byte

The extent of an escape and of a code span can be told from the bytes of a text, with no regard to
where its characters begin: a backtick is never a part of another character, and a byte of ASCII
punctuation is a whole character.

## Main definitions

* `Literal.tickRun`, `Literal.closeTicks?`, `Literal.codeSpanLength` : code spans in bytes.
* `Literal.length?` : the extent of literal text, told from its bytes.

## Main results

* `Literal.closeTicks?_bytes` : the closing backticks are found where they are among the characters.
* `Literal.codeSpanLength_bytes` : a code span has the same extent in bytes and in characters.
* `Literal.length?_eq` : so has literal text of every kind.
-/

namespace WikiPress.Literal

open Text

/-! ### Code spans -/

/-- The number of backticks at the start of some bytes. -/
def tickRun (bytes : List UInt8) : Nat := (bytes.takeWhile (· = '\x60'.toUInt8)).length

/-- The byte offset behind the first run of exactly `opening` backticks, where `offset` is that of
the given bytes.  Runs of another length are passed over as a whole. -/
def closeTicks? (opening offset : Nat) : List UInt8 → Option Nat
  | [] => none
  | b :: rest =>
    if b = '\x60'.toUInt8 then
      let closing := tickRun (b :: rest)
      if closing = opening then some (offset + closing)
      else closeTicks? opening (offset + closing) (rest.drop (closing - 1))
    else closeTicks? opening (offset + 1) rest
  termination_by bytes => bytes.length
  decreasing_by
    all_goals simp only [List.length_cons, List.length_drop]
    all_goals omega

/-- The number of bytes of the code span at the start of some bytes, or of its opening backticks if
they are not closed. -/
def codeSpanLength (bytes : List UInt8) : Nat :=
  let opening := tickRun bytes
  (closeTicks? opening opening (bytes.drop opening)).getD opening

section CodeSpans

variable {c : Char} {s : List Char} {b : UInt8} {rest w : List UInt8} {opening offset : Nat}

theorem tickRun_cons_self (rest : List UInt8) :
    tickRun ('\x60'.toUInt8 :: rest) = tickRun rest + 1 := by
  rw [tickRun, List.takeWhile_cons_of_pos (by decide), List.length_cons, ← tickRun]

theorem tickRun_of_head?_ne (h : rest.head? ≠ some '\x60'.toUInt8) : tickRun rest = 0 := by
  cases rest with
  | nil => rfl
  | cons b rest =>
    rw [List.head?_cons, ne_eq, Option.some.injEq] at h
    rw [tickRun, List.takeWhile_cons_of_neg (by simpa using h), List.length_nil]

theorem ticks_cons_self (s : List Char) : ticks ('\x60' :: s) = ticks s + 1 := by
  rw [ticks, List.takeWhile_cons_of_pos (by decide), List.length_cons, ← ticks]

theorem ticks_cons_of_ne (hc : c ≠ '\x60') (s : List Char) : ticks (c :: s) = 0 := by
  rw [ticks, List.takeWhile_cons_of_neg (by simpa using hc), List.length_nil]

/-- Behind the backticks at the start of a text stands the rest of the text. -/
theorem bytes_drop_ticks (s : List Char) :
    tickRun (bytes s) = ticks s ∧ (bytes s).drop (ticks s) = bytes (s.drop (ticks s)) := by
  induction s with
  | nil => exact ⟨rfl, rfl⟩
  | cons c s ih =>
    by_cases hc : c = '\x60'
    · subst hc
      rw [bytes_cons_of_lt (by decide), tickRun_cons_self, ticks_cons_self, ih.1,
        List.drop_succ_cons, List.drop_succ_cons]
      exact ⟨rfl, ih.2⟩
    · rw [ticks_cons_of_ne hc, List.drop_zero, List.drop_zero]
      refine ⟨tickRun_of_head?_ne fun h => hc ?_, rfl⟩
      simpa using (head?_bytes_eq_some_iff (by decide)).mp h

theorem closeTicks?_append_of_isHigh (hw : IsHigh w) (rest : List UInt8) :
    closeTicks? opening offset (w ++ rest) = closeTicks? opening (offset + w.length) rest := by
  induction w generalizing offset with
  | nil => rfl
  | cons b w ih =>
    rw [List.cons_append, closeTicks?, if_neg (hw.head_ne (by decide)), ih hw.tail,
      List.length_cons, Nat.add_right_comm, Nat.add_assoc]

/-- A character that is no backtick is passed over. -/
theorem closeTicks?_bytes_cons (hc : c ≠ '\x60') (s : List Char) :
    closeTicks? opening offset (bytes (c :: s)) =
      closeTicks? opening (offset + c.utf8Size) (bytes s) := by
  rcases bytes_cons_cases c s with ⟨hlt, heq⟩ | ⟨-, b, w, hhigh, hsize, heq⟩
  · rw [heq, closeTicks?, if_neg fun h => hc ((toUInt8_inj hlt (by decide)).mp h),
      utf8Size_of_lt hlt]
  · rw [heq, ← List.cons_append, closeTicks?_append_of_isHigh hhigh, List.length_cons, hsize]

/-- The closing backticks are found where they are among the characters. -/
theorem closeTicks?_bytes (opening offset : Nat) (s : List Char) :
    closeTicks? opening offset (bytes s) = (sizeToTicks? opening s).map (offset + ·) := by
  fun_induction sizeToTicks? opening s generalizing offset with
  | case1 => rw [bytes_nil, closeTicks?, Option.map_none]
  | case2 rest more =>
    rename_i hmore
    rw [bytes_cons_of_lt (by decide), closeTicks?, if_pos rfl]
    simp only [tickRun_cons_self, (bytes_drop_ticks rest).1]
    rw [if_pos hmore, hmore, Option.map_some]
  | case3 rest more hmore =>
    rename_i ih
    rw [bytes_cons_of_lt (by decide), closeTicks?, if_pos rfl]
    simp only [tickRun_cons_self, (bytes_drop_ticks rest).1]
    rw [if_neg hmore, Nat.add_sub_cancel, (bytes_drop_ticks rest).2, ih, Option.map_map]
    refine Option.map_congr fun n _ => ?_
    show offset + (ticks rest + 1) + n = offset + (n + (ticks rest + 1))
    omega
  | case4 c rest hc ih =>
    rw [closeTicks?_bytes_cons hc, ih, Option.map_map]
    refine Option.map_congr fun n _ => ?_
    show offset + c.utf8Size + n = offset + (n + c.utf8Size)
    omega

/-- A code span has the same extent in bytes and in characters. -/
theorem codeSpanLength_bytes (s : List Char) : codeSpanLength (bytes s) = codeSpanSize s := by
  simp only [codeSpanLength, codeSpanSize, (bytes_drop_ticks s).1, (bytes_drop_ticks s).2,
    closeTicks?_bytes]
  cases sizeToTicks? (ticks s) (s.drop (ticks s)) <;> rfl

end CodeSpans

/-! ### All kinds -/

/-- Whether a byte is that of ASCII punctuation. -/
def isPunctuationByte (b : UInt8) : Bool := Ascii.isPunctuation (Char.ofNat b.toNat)

/-- The number of bytes of the literal text at the start of a text, told from its bytes.  An address,
a tag or a comment is read from the text itself. -/
def length? (s : List Char) : Option Nat :=
  match bytes s with
  | [] => none
  | b :: rest =>
    if b = '\\'.toUInt8 then if rest.head?.any isPunctuationByte then some 2 else none
    else if b = '\x60'.toUInt8 then some (codeSpanLength (bytes s))
    else if b = '<'.toUInt8 then (dropAngle? (s.drop 1)).map fun after => size s - size after
    else none

theorem isPunctuationByte_toUInt8 {c : Char} (hc : c.toNat < 128) :
    isPunctuationByte c.toUInt8 = Ascii.isPunctuation c := by
  rw [isPunctuationByte, toNat_toUInt8 hc, Char.ofNat_toNat]

theorem isPunctuationByte_of_le {b : UInt8} (hb : 128 ≤ b.toNat) :
    isPunctuationByte b = false := by
  have hall : ∀ n, n < 256 → 128 ≤ n → Ascii.isPunctuation (Char.ofNat n) = false := by
    decide +kernel
  exact hall b.toNat b.toNat_lt hb

/-- The first byte tells whether a text begins with ASCII punctuation. -/
theorem any_head?_bytes (s : List Char) :
    (bytes s).head?.any isPunctuationByte = s.head?.any Ascii.isPunctuation := by
  cases s with
  | nil => rfl
  | cons c s =>
    rcases bytes_cons_cases c s with ⟨hlt, heq⟩ | ⟨hle, b, w, hhigh, -, heq⟩
    · rw [heq, List.head?_cons, List.head?_cons, Option.any_some, Option.any_some,
        isPunctuationByte_toUInt8 hlt]
    · have hc : Ascii.isPunctuation c = false := by
        simp only [Ascii.isPunctuation, Bool.or_eq_false_iff, Bool.and_eq_false_iff,
          decide_eq_false_iff_not]
        omega
      rw [heq, List.head?_cons, List.head?_cons, Option.any_some, Option.any_some, hc,
        isPunctuationByte_of_le (hhigh b (List.mem_cons_self ..))]

theorem length?_backslash (s : List Char) : length? ('\\' :: s) = size? ('\\' :: s) := by
  rw [length?, bytes_cons_of_lt (by decide)]
  dsimp only
  rw [if_pos rfl, any_head?_bytes]
  cases s with
  | nil => rfl
  | cons c s => rfl

theorem length?_tick (s : List Char) : length? ('\x60' :: s) = size? ('\x60' :: s) := by
  rw [length?, codeSpanLength_bytes, bytes_cons_of_lt (by decide)]
  rfl

theorem length?_angle (s : List Char) : length? ('<' :: s) = size? ('<' :: s) := by
  rw [length?, bytes_cons_of_lt (by decide)]
  rfl

/-- Literal text has the same extent, told from its bytes or from its characters. -/
theorem length?_eq (s : List Char) : length? s = size? s := by
  cases s with
  | nil => rfl
  | cons c s =>
    by_cases hescape : c = '\\'
    · exact hescape ▸ length?_backslash s
    by_cases htick : c = '\x60'
    · exact htick ▸ length?_tick s
    by_cases hangle : c = '<'
    · exact hangle ▸ length?_angle s
    have hnone : size? (c :: s) = none := by
      unfold size?
      split <;> simp_all
    rw [hnone, length?]
    rcases bytes_cons_cases c s with ⟨hlt, heq⟩ | ⟨-, b, w, hhigh, -, heq⟩
    · rw [heq]
      dsimp only
      rw [if_neg fun h => hescape ((toUInt8_inj hlt (by decide)).mp h),
        if_neg fun h => htick ((toUInt8_inj hlt (by decide)).mp h),
        if_neg fun h => hangle ((toUInt8_inj hlt (by decide)).mp h)]
    · rw [heq]
      dsimp only
      rw [if_neg (hhigh.head_ne (by decide)), if_neg (hhigh.head_ne (by decide)),
        if_neg (hhigh.head_ne (by decide))]

end WikiPress.Literal
