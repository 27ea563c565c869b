import WikiPress.Slug

/-!
# Links without a target

A link `[title]()` whose target is missing leads to the page that its title names.

## Main definitions

* `MissingLink.read?` : the link without a target at the start of a text.
* `MissingLink.fill` : a text with the targets of its links filled in.
-/

namespace WikiPress.MissingLink

open Text

/-- The characters of a title. -/
def isTitleChar (c : Char) : Bool := c ≠ '[' && c ≠ ']' && c ≠ '\n'

/-- The title of a link without a target, read after its first bracket, and what follows the
link. -/
def read? (s : List Char) : Option (List Char × List Char) :=
  let title := s.takeWhile isTitleChar
  match title, s.dropWhile isTitleChar with
  | c :: title, ']' :: '(' :: rest =>
    match rest.dropWhile isSpaceOrTab with
    | ')' :: rest => some (c :: title, rest)
    | _ => none
  | _, _ => none

theorem length_lt_of_read? {s title rest : List Char} (h : read? s = some (title, rest)) :
    rest.length < s.length := by
  simp only [read?] at h
  split at h
  · next t r _ hd =>
    have h1 := (List.dropWhile_sublist (l := s) isTitleChar).length_le
    have h2 := (List.dropWhile_sublist (l := r) isSpaceOrTab).length_le
    rw [hd] at h1
    split at h
    · next heq =>
      rw [heq] at h2
      simp only [Option.some.injEq, Prod.mk.injEq] at h
      obtain ⟨_, rfl⟩ := h
      simp only [List.length_cons] at h1 h2
      omega
    · simp at h
  · simp at h

/-- A text with the targets of its links filled in. -/
def fillTargets : List Char → List Char
  | [] => []
  | c :: rest =>
    if c = '[' then
      match _h : read? rest with
      | some (title, after) =>
        '[' :: (title ++ [']', '(', '/'] ++ Slugger.lowercase.slug title ++ [')']) ++
          fillTargets after
      | none => c :: fillTargets rest
    else c :: fillTargets rest
  termination_by s => s.length
  decreasing_by
    · have := length_lt_of_read? _h
      simp only [List.length_cons]; omega
    all_goals simp

/-- A text without its first empty link. -/
def dropFirstEmpty (s : List Char) : List Char :=
  match splitAtFirst? ['[', ']', '(', ')'] s with
  | some (before, after) => before ++ after
  | none => s

/-- A text without its first empty link and with the targets of the other links filled in. -/
def fill (s : List Char) : List Char := fillTargets (dropFirstEmpty s)

end WikiPress.MissingLink
