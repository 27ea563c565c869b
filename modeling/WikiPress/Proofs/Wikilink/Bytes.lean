import WikiPress.Proofs.Text.Bytes
import WikiPress.Proofs.Wikilink

/-!
# Wikilinks read byte by byte

The closing brackets of a wikilink can be looked for in the bytes of a text, with no regard to where
its characters begin.  A backslash then takes only the first byte of the next character out of the
count; the other bytes of the character stand for nothing the scan looks for.  The scan finds the
same brackets as the one that goes by characters, and so what it finds stands between characters.

## Main definitions

* `Wikilink.ScanState` : what a scan has just seen.
* `Wikilink.closeFrom?`, `Wikilink.closeAt?` : the byte offset of the closing brackets.

## Main results

* `Wikilink.closeFrom?_append_of_isHigh` : a scan passes over a character that is not ASCII.
* `Wikilink.closeFrom?_bytes` : a scan of the bytes stops where a scan of the characters does.
* `Wikilink.closeAt?_bytes` : the closing brackets stand right behind the text of the wikilink.
-/

namespace WikiPress.Wikilink

open Text

/-- What a scan for closing brackets has just seen. -/
inductive ScanState where
  | scanning
  /-- A backslash: the next byte is passed over. -/
  | escaped
  /-- One closing bracket. -/
  | awaitingClose
  deriving DecidableEq, Repr

/-- The byte offset of the pair of brackets that closes the last open pair, where `offset` is that of
the given bytes and `depth` pairs are open.  A byte that makes no pair with the closing bracket in
front of it is looked at as any other. -/
def closeFrom? (state : ScanState) (depth offset : Nat) : List UInt8 → Option Nat
  | [] => none
  | b :: rest =>
    if state = .escaped then
      if b = '\n'.toUInt8 then none else closeFrom? .scanning depth (offset + 1) rest
    else if state = .awaitingClose ∧ b = ']'.toUInt8 then
      if depth - 1 = 0 then some (offset - 1)
      else closeFrom? .scanning (depth - 1) (offset + 1) rest
    else if b = '\n'.toUInt8 then none
    else if b = '\\'.toUInt8 then closeFrom? .escaped depth (offset + 1) rest
    else if b = '['.toUInt8 ∧ rest.head? = some '['.toUInt8 then
      closeFrom? .scanning (depth + 1) (offset + 2) rest.tail
    else if b = ']'.toUInt8 then closeFrom? .awaitingClose depth (offset + 1) rest
    else closeFrom? .scanning depth (offset + 1) rest
  termination_by bytes => bytes.length
  decreasing_by
    all_goals simp only [List.length_cons, List.length_tail]
    all_goals omega

/-- The byte offset of the brackets that close the wikilink at the start of some bytes. -/
def closeAt? (bytes : List UInt8) : Option Nat := closeFrom? .scanning 1 2 (bytes.drop 2)

section Steps

variable {state : ScanState} {depth offset : Nat} {b : UInt8} {rest w : List UInt8}
  {s : List Char} {c : Char}

theorem closeFrom?_feed :
    closeFrom? state depth offset ('\n'.toUInt8 :: rest) = none := by
  rw [closeFrom?, if_pos rfl, if_neg (show ¬(state = .awaitingClose ∧ _) from fun h =>
    absurd h.2 (by decide)), if_pos rfl, ite_self]

theorem closeFrom?_backslash :
    closeFrom? .scanning depth offset ('\\'.toUInt8 :: rest) =
      closeFrom? .escaped depth (offset + 1) rest := by
  rw [closeFrom?, if_neg (by decide), if_neg (by decide), if_neg (by decide), if_pos rfl]

theorem closeFrom?_opening :
    closeFrom? .scanning depth offset ('['.toUInt8 :: '['.toUInt8 :: rest) =
      closeFrom? .scanning (depth + 1) (offset + 2) rest := by
  rw [closeFrom?, if_neg (by decide), if_neg (by decide), if_neg (by decide), if_neg (by decide),
    if_pos ⟨rfl, rfl⟩, List.tail_cons]

theorem closeFrom?_closing :
    closeFrom? .scanning depth offset (']'.toUInt8 :: rest) =
      closeFrom? .awaitingClose depth (offset + 1) rest := by
  rw [closeFrom?, if_neg (by decide), if_neg (by decide), if_neg (by decide), if_neg (by decide),
    if_neg (show ¬(']'.toUInt8 = '['.toUInt8 ∧ _) from fun h => absurd h.1 (by decide)), if_pos rfl]

theorem closeFrom?_closed :
    closeFrom? .awaitingClose depth offset (']'.toUInt8 :: rest) =
      if depth - 1 = 0 then some (offset - 1)
      else closeFrom? .scanning (depth - 1) (offset + 1) rest := by
  rw [closeFrom?, if_neg (by decide), if_pos ⟨rfl, rfl⟩]

/-- A byte that stands for nothing the scan looks for is passed over. -/
theorem closeFrom?_cons (hfeed : b ≠ '\n'.toUInt8)
    (hplain : state ≠ .escaped → b ≠ '\\'.toUInt8 ∧
      ¬(b = '['.toUInt8 ∧ rest.head? = some '['.toUInt8) ∧ b ≠ ']'.toUInt8) :
    closeFrom? state depth offset (b :: rest) = closeFrom? .scanning depth (offset + 1) rest := by
  rw [closeFrom?, if_neg hfeed, if_neg hfeed]
  by_cases hstate : state = .escaped
  · rw [if_pos hstate]
  · obtain ⟨hescape, hopen, hclose⟩ := hplain hstate
    rw [if_neg hstate, if_neg fun h => hclose h.2, if_neg hescape, if_neg hopen, if_neg hclose]

/-- A byte of a character that is not ASCII stands for nothing the scan looks for. -/
theorem closeFrom?_cons_of_isHigh (h : IsHigh (b :: w)) (rest : List UInt8) :
    closeFrom? state depth offset (b :: rest) = closeFrom? .scanning depth (offset + 1) rest :=
  closeFrom?_cons (h.head_ne (by decide)) fun _ =>
    ⟨h.head_ne (by decide), fun hopen => h.head_ne (by decide) hopen.1, h.head_ne (by decide)⟩

theorem closeFrom?_append_of_isHigh (hw : IsHigh w) (rest : List UInt8) :
    closeFrom? .scanning depth offset (w ++ rest) =
      closeFrom? .scanning depth (offset + w.length) rest := by
  induction w generalizing offset with
  | nil => rfl
  | cons b w ih =>
    rw [List.cons_append, closeFrom?_cons_of_isHigh hw, ih hw.tail, List.length_cons,
      Nat.add_right_comm, Nat.add_assoc]

/-- A character that stands for nothing the scan looks for is passed over. -/
theorem closeFrom?_bytes_cons (hfeed : c ≠ '\n')
    (hplain : state ≠ .escaped → c ≠ '\\' ∧ ¬(c = '[' ∧ s.head? = some '[') ∧ c ≠ ']') :
    closeFrom? state depth offset (bytes (c :: s)) =
      closeFrom? .scanning depth (offset + c.utf8Size) (bytes s) := by
  rcases bytes_cons_cases c s with ⟨hc, heq⟩ | ⟨hc, b, w, hhigh, hsize, heq⟩
  · have hne : ∀ d : Char, d.toNat < 128 → c ≠ d → c.toUInt8 ≠ d.toUInt8 := fun d hd hcd h =>
      hcd ((toUInt8_inj hc hd).mp h)
    rw [heq, utf8Size_of_lt hc]
    refine closeFrom?_cons (hne _ (by decide) hfeed) fun hstate => ?_
    obtain ⟨hescape, hopen, hclose⟩ := hplain hstate
    rw [toUInt8_inj hc (by decide), head?_bytes_eq_some_iff (by decide)]
    exact ⟨hne _ (by decide) hescape, hopen, hne _ (by decide) hclose⟩
  · rw [heq, closeFrom?_cons_of_isHigh hhigh, closeFrom?_append_of_isHigh hhigh.tail, ← hsize,
      Nat.add_assoc, Nat.add_comm 1]

/-- A single closing bracket is passed over. -/
theorem closeFrom?_awaitingClose (h : rest.head? ≠ some ']'.toUInt8) :
    closeFrom? .awaitingClose depth offset rest = closeFrom? .scanning depth offset rest := by
  cases rest with
  | nil => rw [closeFrom?, closeFrom?]
  | cons b rest =>
    rw [List.head?_cons, ne_eq, Option.some.injEq] at h
    rw [closeFrom?, closeFrom?]
    simp [h]

end Steps

/-- A scan of the bytes of a text stops where a scan of its characters does: at the brackets in
front of what follows the wikilink. -/
theorem closeFrom?_bytes (depth offset : Nat) (inner s : List Char) :
    closeFrom? .scanning (depth + 1) offset (bytes s) =
      (splitClose? depth inner s).map fun link => offset + size s - size link.2 - 2 := by
  have hone : ∀ c : Char, c.toNat < 128 → ∀ s, size (c :: s) = 1 + size s := fun c hc s => by
    rw [size_cons, utf8Size_of_lt hc]
  fun_induction splitClose? depth inner s generalizing offset with
  | case1 => rw [bytes_nil, closeFrom?, Option.map_none]
  | case2 depth inner rest =>
    rw [bytes_cons_of_lt (by decide), bytes_cons_of_lt (by decide), closeFrom?_backslash,
      closeFrom?_feed, Option.map_none]
  | case3 depth inner c rest hc ih =>
    rw [bytes_cons_of_lt (by decide), closeFrom?_backslash,
      closeFrom?_bytes_cons hc (absurd rfl ·), ih, hone _ (by decide), size_cons, ← Nat.add_assoc,
      ← Nat.add_assoc]
  | case4 depth inner rest ih =>
    rw [bytes_cons_of_lt (by decide), bytes_cons_of_lt (by decide), closeFrom?_opening, ih,
      hone _ (by decide), hone _ (by decide), ← Nat.add_assoc, ← Nat.add_assoc]
  | case5 inner rest =>
    rw [bytes_cons_of_lt (by decide), bytes_cons_of_lt (by decide), closeFrom?_closing,
      closeFrom?_closed, if_pos rfl, Option.map_some, hone _ (by decide), hone _ (by decide)]
    show some (offset + 1 - 1) = some (offset + (1 + (1 + size rest)) - size rest - 2)
    congr 1
    omega
  | case6 inner rest depth ih =>
    rw [bytes_cons_of_lt (by decide), bytes_cons_of_lt (by decide), closeFrom?_closing,
      closeFrom?_closed, if_neg (show ¬depth.succ + 1 - 1 = 0 from Nat.succ_ne_zero depth),
      hone _ (by decide), hone _ (by decide)]
    exact (ih (offset + 1 + 1)).trans (by rw [← Nat.add_assoc, ← Nat.add_assoc])
  | case7 depth inner rest =>
    rw [bytes_cons_of_lt (by decide), closeFrom?_feed, Option.map_none]
  | case8 depth inner c rest hescaped hopening hclosing hc ih =>
    by_cases hclose : c = ']'
    · subst hclose
      have hnext : rest.head? ≠ some ']' := fun h => by
        obtain ⟨rest', rfl⟩ := List.head?_eq_some_iff.mp h
        exact hclosing rest' rfl rfl
      rw [bytes_cons_of_lt (by decide), closeFrom?_closing, closeFrom?_awaitingClose, ih,
        hone _ (by decide), ← Nat.add_assoc]
      exact fun h => hnext ((head?_bytes_eq_some_iff (by decide)).mp h)
    by_cases hescape : c = '\\'
    · subst hescape
      cases rest with
      | nil =>
        rw [bytes_cons_of_lt (by decide), closeFrom?_backslash, bytes_nil, closeFrom?]
        rfl
      | cons d rest => exact absurd rfl (hescaped d rest rfl)
    · have hopen : ¬(c = '[' ∧ rest.head? = some '[') := by
        rintro ⟨rfl, h⟩
        obtain ⟨rest', rfl⟩ := List.head?_eq_some_iff.mp h
        exact hopening rest' rfl rfl
      rw [closeFrom?_bytes_cons hc fun _ => ⟨hescape, hopen, hclose⟩, ih, size_cons, ← Nat.add_assoc]

/-- The closing brackets stand right behind the text of the wikilink. -/
theorem closeAt?_bytes (s : List Char) :
    closeAt? (bytes ('[' :: '[' :: s)) =
      (split? ('[' :: '[' :: s)).map fun link => size link.1 + 2 := by
  rw [closeAt?, bytes_cons_of_lt (by decide), bytes_cons_of_lt (by decide), List.drop_succ_cons,
    List.drop_succ_cons, List.drop_zero, closeFrom?_bytes 0 2 [] s]
  refine Option.map_congr fun link hlink => ?_
  have hs := eq_append_of_split? (s := '[' :: '[' :: s) hlink
  obtain rfl : s = link.1 ++ ']' :: ']' :: link.2 := by simpa using hs
  have hclose : (']' : Char).utf8Size = 1 := rfl
  simp only [size_append, size_cons, hclose]
  omega

/-- The closing brackets of a wikilink begin and end between two characters. -/
theorem isOffset_of_closeAt? {s : List Char} {n : Nat}
    (h : closeAt? (bytes ('[' :: '[' :: s)) = some n) :
    IsOffset ('[' :: '[' :: s) n ∧ IsOffset ('[' :: '[' :: s) (n + 2) := by
  rw [closeAt?_bytes] at h
  obtain ⟨link, hlink, rfl⟩ := Option.map_eq_some_iff.mp h
  have hopen : ('[' : Char).utf8Size = 1 := rfl
  rw [eq_append_of_split? hlink]
  refine ⟨⟨'[' :: '[' :: link.1, ']' :: ']' :: link.2, rfl, ?_⟩,
    ⟨'[' :: '[' :: (link.1 ++ [']', ']']), link.2, by simp, ?_⟩⟩
  · simp only [size_cons, hopen]
    omega
  · exact size_brackets link.1

end WikiPress.Wikilink
