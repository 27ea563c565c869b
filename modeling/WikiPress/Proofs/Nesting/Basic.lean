import Mathlib.Data.List.Basic
import WikiPress.Token

/-!
# Nested lists of tokens

Opening and closing tokens stand in a flat list, and a reader of the list keeps a stack of what is
open.  A list is nested if every closing token closes the token that was opened last, and nothing is
left open at the end.  What a nested list is read in does not matter, so nested lists can be put one
behind the other and between an opening and a closing token.

## Main definitions

* `TokenKind.closing?`, `TokenKind.Unpaired` : which kinds of tokens close each other, and which
  close none and are closed by none.
* `Token.openAfter?`, `openAfter?` : what is open behind a token, or behind a list of tokens.
* `Nested` : a list of tokens in which everything that is opened is closed.
* `Token.NestedBelow`, `WellNested` : the same for the texts and images at every depth.

## Main results

* `Nested.openAfter?_eq` : a nested list leaves open what was open before it.
* `Nested.nesting_eq_zero` : plain text opens and closes nothing in a nested list.
* `WellNested.append`, `WellNested.wrap` : how nested lists are put together.
-/

namespace WikiPress

/-! ### Kinds -/

namespace TokenKind

/-- The kind of the tokens that close the tokens of a kind.  Whether a token does open something is
told by its nesting alone: those of a table of contents have nesting zero and stand by themselves. -/
def closing? : TokenKind → Option TokenKind
  | paragraphOpen => some paragraphClose
  | headingOpen => some headingClose
  | blockquoteOpen => some blockquoteClose
  | bulletListOpen => some bulletListClose
  | orderedListOpen => some orderedListClose
  | listItemOpen => some listItemClose
  | tableOpen => some tableClose
  | theadOpen => some theadClose
  | tbodyOpen => some tbodyClose
  | trOpen => some trClose
  | thOpen => some thClose
  | tdOpen => some tdClose
  | emOpen => some emClose
  | strongOpen => some strongClose
  | strikethroughOpen => some strikethroughClose
  | linkOpen => some linkClose
  | tocOpen => some tocClose
  | _ => none

/-- A kind whose tokens are closed by no token and close none. -/
def Unpaired (k : TokenKind) : Prop := k.closing? = none ∧ ∀ o : TokenKind, o.closing? ≠ some k

theorem unpaired_inline : Unpaired inline := ⟨rfl, fun o => by cases o <;> decide⟩

theorem unpaired_of_isPlain {k : TokenKind} (h : k.isPlain = true) : k.Unpaired := by
  cases k <;> simp only [isPlain, Bool.false_eq_true] at h
  all_goals exact ⟨rfl, fun o => by cases o <;> decide⟩

end TokenKind

/-! ### One token -/

namespace Token

/-- Whether a token closes another one: it has the kind for that, and the same tag, and both are
written or both are hidden. -/
def Closes (t o : Token) : Prop :=
  o.kind.closing? = some t.kind ∧ t.tag = o.tag ∧ t.hidden = o.hidden

instance (t o : Token) : Decidable (t.Closes o) := inferInstanceAs (Decidable (_ ∧ _ ∧ _))

/-- The open tokens behind a token, the last one that was opened first.  There are none if the token
closes anything else than the last one that was opened. -/
def openAfter? (opened : List Token) (t : Token) : Option (List Token) :=
  if t.nesting = 1 then some (t :: opened)
  else if t.nesting = 0 then some opened
  else
    match opened with
    | o :: rest => if t.Closes o then some rest else none
    | [] => none

variable {s s' : List Token} {t o : Token}

theorem openAfter?_of_single (h : t.nesting = 0) (s : List Token) : t.openAfter? s = some s := by
  simp [openAfter?, h]

theorem openAfter?_of_opening (h : t.nesting = 1) (s : List Token) :
    t.openAfter? s = some (t :: s) := by
  simp [openAfter?, h]

theorem openAfter?_of_closes (h : t.nesting = -1) (hcloses : t.Closes o) (s : List Token) :
    t.openAfter? (o :: s) = some s := by
  simp [openAfter?, h, hcloses]

/-- All that a token can do to what is open. -/
theorem openAfter?_eq_some (h : t.openAfter? s = some s') :
    t.nesting = 1 ∧ s' = t :: s ∨ t.nesting = 0 ∧ s' = s ∨
      t.nesting ≠ 1 ∧ t.nesting ≠ 0 ∧ ∃ o, s = o :: s' ∧ t.Closes o := by
  unfold openAfter? at h
  split at h
  · next hone => exact .inl ⟨hone, (Option.some.inj h).symm⟩
  · next hone =>
    split at h
    · next hzero => exact .inr (.inl ⟨hzero, (Option.some.inj h).symm⟩)
    · next hzero =>
      split at h
      · next o rest =>
        split at h
        · next hcloses => exact .inr (.inr ⟨hone, hzero, o, by rw [Option.some.inj h], hcloses⟩)
        · simp at h
      · simp at h

theorem openAfter?_append (h : t.openAfter? s = some s') (more : List Token) :
    t.openAfter? (s ++ more) = some (s' ++ more) := by
  obtain ⟨hone, rfl⟩ | ⟨hzero, rfl⟩ | ⟨hone, hzero, o, rfl, hcloses⟩ := openAfter?_eq_some h
  · exact openAfter?_of_opening hone _
  · exact openAfter?_of_single hzero _
  · simp [openAfter?, hone, hzero, hcloses]

end Token

/-! ### Lists of tokens -/

/-- The open tokens behind a list of tokens, if the list can be read inside the given ones. -/
def openAfter? (opened : List Token) (ts : List Token) : Option (List Token) :=
  ts.foldlM Token.openAfter? opened

/-- A list of tokens that closes whatever it opens, and nothing else. -/
def Nested (ts : List Token) : Prop := openAfter? [] ts = some []

instance (ts : List Token) : Decidable (Nested ts) :=
  decidable_of_iff ((openAfter? [] ts).any List.isEmpty = true) <| by
    cases h : openAfter? [] ts <;> simp [Nested, h]

section OpenAfter

variable {s s' : List Token} {t : Token} {ts us : List Token}

theorem openAfter?_cons (s : List Token) (t : Token) (ts : List Token) :
    openAfter? s (t :: ts) = (t.openAfter? s).bind (openAfter? · ts) := by
  simp only [openAfter?, List.foldlM_cons]
  rfl

theorem openAfter?_append (s ts us : List Token) :
    openAfter? s (ts ++ us) = (openAfter? s ts).bind (openAfter? · us) := by
  simp only [openAfter?, List.foldlM_append]
  rfl

/-- What is open below the tokens that a list closes stays open. -/
theorem openAfter?_append_left (h : openAfter? s ts = some s') (more : List Token) :
    openAfter? (s ++ more) ts = some (s' ++ more) := by
  induction ts generalizing s with
  | nil =>
    obtain rfl : s = s' := Option.some.inj h
    rfl
  | cons t ts ih =>
    rw [openAfter?_cons, Option.bind_eq_some_iff] at h
    obtain ⟨s₁, ht, hts⟩ := h
    rw [openAfter?_cons, Token.openAfter?_append ht, Option.bind_some]
    exact ih hts

theorem Nested.openAfter?_eq (h : Nested ts) (s : List Token) : openAfter? s ts = some s :=
  openAfter?_append_left h s

theorem nested_nil : Nested [] := rfl

theorem Nested.append (h : Nested ts) (h' : Nested us) : Nested (ts ++ us) := by
  rw [Nested, openAfter?_append, h, Option.bind_some, h']

theorem nested_cons_of_single (ht : t.nesting = 0) (h : Nested ts) : Nested (t :: ts) := by
  rw [Nested, openAfter?_cons, Token.openAfter?_of_single ht, Option.bind_some, h]

theorem nested_of_single (h : ∀ t ∈ ts, t.nesting = 0) : Nested ts := by
  induction ts with
  | nil => exact nested_nil
  | cons t ts ih =>
    rw [List.forall_mem_cons] at h
    exact nested_cons_of_single h.1 (ih h.2)

theorem Nested.wrap {o c : Token} (ho : o.nesting = 1) (hc : c.nesting = -1) (hcloses : c.Closes o)
    (h : Nested ts) : Nested (o :: (ts ++ [c])) := by
  rw [Nested, openAfter?_cons, Token.openAfter?_of_opening ho, Option.bind_some,
    openAfter?_append, h.openAfter?_eq, Option.bind_some, openAfter?_cons,
    Token.openAfter?_of_closes hc hcloses]
  rfl

/-- A token that nothing closes stays open, with all that was opened before it. -/
theorem exists_openAfter?_eq_of_closing? {o : Token} (ho : o.kind.closing? = none)
    {below : List Token} (h : openAfter? (s ++ o :: below) ts = some s') :
    ∃ more, s' = more ++ o :: below := by
  induction ts generalizing s with
  | nil => exact ⟨s, (Option.some.inj h).symm⟩
  | cons t ts ih =>
    rw [openAfter?_cons, Option.bind_eq_some_iff] at h
    obtain ⟨s₁, ht, hts⟩ := h
    obtain ⟨-, rfl⟩ | ⟨-, rfl⟩ | ⟨-, -, u, hu, hcloses⟩ := Token.openAfter?_eq_some ht
    · exact ih (s := t :: s) hts
    · exact ih hts
    · cases s with
      | nil =>
        obtain ⟨rfl, -⟩ := List.cons.inj hu
        exact nomatch ho.symm.trans hcloses.1
      | cons v s =>
        obtain ⟨-, rfl⟩ := List.cons.inj hu
        exact ih hts

/-- In a nested list, tokens whose kinds close none and are closed by none open and close nothing:
one that opened something would stay open. -/
theorem Nested.nesting_eq_zero (h : Nested ts) (ht : t ∈ ts) (hkind : t.kind.Unpaired) :
    t.nesting = 0 := by
  obtain ⟨us, vs, rfl⟩ := List.append_of_mem ht
  rw [Nested, openAfter?_append, Option.bind_eq_some_iff] at h
  obtain ⟨s, -, h⟩ := h
  rw [openAfter?_cons, Option.bind_eq_some_iff] at h
  obtain ⟨s', ht, hvs⟩ := h
  obtain ⟨-, rfl⟩ | ⟨hzero, -⟩ | ⟨-, -, o, -, hcloses⟩ := Token.openAfter?_eq_some ht
  · obtain ⟨more, hmore⟩ := exists_openAfter?_eq_of_closing? (s := []) hkind.1 hvs
    simp at hmore
  · exact hzero
  · exact absurd hcloses.1 (hkind.2 o.kind)

end OpenAfter

/-! ### Every depth -/

/-- Below a token, the contents of texts and images are nested. -/
inductive Token.NestedBelow : Token → Prop
  | intro {t : Token} : (t.kind = .inline ∨ t.kind = .image → Nested t.children) →
      (∀ u ∈ t.children, NestedBelow u) → NestedBelow t

/-- A nested list of tokens, with the contents of texts and images nested at every depth. -/
def WellNested (ts : List Token) : Prop := Nested ts ∧ ∀ t ∈ ts, t.NestedBelow

section WellNested

variable {t o c : Token} {ts us : List Token}

theorem Token.nestedBelow_of_children_eq_nil (h : t.children = []) : t.NestedBelow :=
  .intro (fun _ => h ▸ nested_nil) (by simp [h])

theorem WellNested.nestedBelow (h : WellNested t.children) : t.NestedBelow :=
  .intro (fun _ => h.1) h.2

theorem wellNested_nil : WellNested [] := ⟨nested_nil, by simp⟩

theorem WellNested.append (h : WellNested ts) (h' : WellNested us) : WellNested (ts ++ us) :=
  ⟨h.1.append h'.1, List.forall_mem_append.mpr ⟨h.2, h'.2⟩⟩

theorem wellNested_singleton (ht : t.nesting = 0) (hbelow : t.NestedBelow) : WellNested [t] :=
  ⟨nested_cons_of_single ht nested_nil, List.forall_mem_singleton.mpr hbelow⟩

theorem wellNested_of_single (h : ∀ t ∈ ts, t.nesting = 0 ∧ t.NestedBelow) : WellNested ts :=
  ⟨nested_of_single fun t ht => (h t ht).1, fun t ht => (h t ht).2⟩

theorem wellNested_flatMap {α : Type*} {f : α → List Token} {as : List α}
    (h : ∀ a ∈ as, WellNested (f a)) : WellNested (as.flatMap f) := by
  induction as with
  | nil => exact wellNested_nil
  | cons a as ih =>
    rw [List.forall_mem_cons] at h
    exact h.1.append (ih h.2)

/-- A nested list between a token without content and the token that closes it. -/
theorem WellNested.wrap (ho : o.nesting = 1 ∧ o.children = [])
    (hc : c.nesting = -1 ∧ c.children = []) (hcloses : c.Closes o) (h : WellNested ts) :
    WellNested (o :: (ts ++ [c])) := by
  refine ⟨h.1.wrap ho.1 hc.1 hcloses, ?_⟩
  rw [List.forall_mem_cons, List.forall_mem_append, List.forall_mem_singleton]
  exact ⟨Token.nestedBelow_of_children_eq_nil ho.2, h.2,
    Token.nestedBelow_of_children_eq_nil hc.2⟩

end WellNested

end WikiPress
