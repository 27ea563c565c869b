/-!
# Lengths and offsets in UTF-8 bytes

Positions in a text are counted in bytes of its UTF-8 form.  A byte offset either falls between
two characters, and then it splits the text, or it falls inside a character or past the end.

## Main definitions

* `size` : the length of a text in bytes.
* `dropBytes?` : what follows a byte offset, if the offset falls between characters.
* `takeBytes?` : what precedes it.
* `sliceBytes?` : the text between two byte offsets.
-/

namespace WikiPress.Text

/-- The number of bytes of a text. -/
def size : List Char → Nat
  | [] => 0
  | c :: s => c.utf8Size + size s

@[simp] theorem size_nil : size [] = 0 := rfl

@[simp] theorem size_cons (c : Char) (s : List Char) : size (c :: s) = c.utf8Size + size s := rfl

@[simp] theorem size_append (s t : List Char) : size (s ++ t) = size s + size t := by
  induction s with
  | nil => simp
  | cons c s ih => simp [ih, Nat.add_assoc]

/-- What follows the first `n` bytes, if `n` falls between two characters of the text. -/
def dropBytes? : List Char → Nat → Option (List Char)
  | s, 0 => some s
  | [], _ + 1 => none
  | c :: s, n + 1 => if c.utf8Size ≤ n + 1 then dropBytes? s (n + 1 - c.utf8Size) else none

/-- The first `n` bytes, if `n` falls between two characters of the text. -/
def takeBytes? : List Char → Nat → Option (List Char)
  | _, 0 => some []
  | [], _ + 1 => none
  | c :: s, n + 1 =>
    if c.utf8Size ≤ n + 1 then (takeBytes? s (n + 1 - c.utf8Size)).map (c :: ·) else none

/-- The text from byte `a` up to byte `b`, if both fall between characters and `a ≤ b`. -/
def sliceBytes? (s : List Char) (a b : Nat) : Option (List Char) :=
  if a ≤ b then (dropBytes? s a).bind fun rest => takeBytes? rest (b - a) else none

theorem dropBytes?_zero (s : List Char) : dropBytes? s 0 = some s := by
  cases s <;> rfl

/-- A drop in two steps is a drop in one. -/
theorem dropBytes?_of_dropBytes? {s r : List Char} {a : Nat} (b : Nat)
    (h : dropBytes? s a = some r) : dropBytes? r b = dropBytes? s (a + b) := by
  induction s generalizing a with
  | nil =>
    cases a with
    | zero => simp_all [dropBytes?_zero]
    | succ a => simp [dropBytes?] at h
  | cons c s ih =>
    cases a with
    | zero =>
      rw [dropBytes?_zero, Option.some.injEq] at h
      rw [h, Nat.zero_add]
    | succ a =>
      rw [dropBytes?] at h
      split at h
      · next hc =>
        rw [ih h, show a + 1 + b = a + b + 1 by omega, dropBytes?, if_pos (by omega)]
        congr 1
        omega
      · simp at h

theorem dropBytes?_size_append (s t : List Char) : dropBytes? (s ++ t) (size s) = some t := by
  induction s with
  | nil => simp [dropBytes?]
  | cons c s ih =>
    have h : c.utf8Size + size s = (c.utf8Size + size s - 1) + 1 := by
      have := c.utf8Size_pos; omega
    rw [List.cons_append, size_cons, h, dropBytes?]
    have h' : c.utf8Size ≤ c.utf8Size + size s - 1 + 1 := by omega
    rw [if_pos h', ← h]
    simpa using ih

theorem takeBytes?_size_append (s t : List Char) : takeBytes? (s ++ t) (size s) = some s := by
  induction s with
  | nil => simp [takeBytes?]
  | cons c s ih =>
    have h : c.utf8Size + size s = (c.utf8Size + size s - 1) + 1 := by
      have := c.utf8Size_pos; omega
    rw [List.cons_append, size_cons, h, takeBytes?]
    have h' : c.utf8Size ≤ c.utf8Size + size s - 1 + 1 := by omega
    rw [if_pos h', ← h]
    simp [ih]

end WikiPress.Text
