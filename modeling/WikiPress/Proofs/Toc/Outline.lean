import Mathlib.Order.Nat
import WikiPress.Toc

/-!
# Outlines

An outline nests headings by their levels: the items of a list are the headings of its level, and
every run of deeper ones is a list of its own at the least level among them.  There is only one
outline of a list of headings, and `nest` writes it down run by run.

## Main definitions

* `Toc.headings` : the headings of a tree from left to right.
* `Toc.Outline` : a tree whose lists are nested by the levels of their items.
* `Toc.nest` : the outline of a list of headings, run by run.

## Main results

* `Toc.Outline.nest_headings` : an outline is the one that `nest` makes of its headings.
-/

namespace WikiPress.Toc

mutual

/-- The headings of an entry from left to right. -/
def Entry.headings : Entry → List Heading
  | .item h => [h]
  | .list _ entries => headings entries

/-- The headings of a list of entries from left to right. -/
def headings : List Entry → List Heading
  | [] => []
  | e :: rest => Entry.headings e ++ headings rest

end

theorem headings_append (es fs : List Entry) :
    headings (es ++ fs) = headings es ++ headings fs := by
  induction es with
  | nil => rfl
  | cons e es ih => rw [List.cons_append, headings, headings, ih, List.append_assoc]

theorem headings_singleton (e : Entry) : headings [e] = e.headings := by
  rw [headings, headings, List.append_nil]

theorem mem_headings_of_item_mem {h : Heading} {es : List Entry} (hmem : .item h ∈ es) :
    h ∈ headings es := by
  induction es with
  | nil => exact absurd hmem List.not_mem_nil
  | cons e es ih =>
    rw [headings, List.mem_append]
    rcases List.mem_cons.mp hmem with rfl | hmem
    · exact Or.inl (List.mem_singleton_self h)
    · exact Or.inr (ih hmem)

/-- Whether entries begin with a list. -/
def startsWithList (es : List Entry) : Bool := es.head?.any fun e => !e.isItem

/-- An outline at a level.  Its items have the level.  Its lists are outlines at deeper levels with
items of their own, and no list follows another one. -/
inductive Outline : Nat → List Entry → Prop
  | nil {level : Nat} : Outline level []
  | item {level : Nat} {h : Heading} {rest : List Entry} : h.level = level → Outline level rest →
      Outline level (.item h :: rest)
  | list {level inner : Nat} {es rest : List Entry} : level < inner → es.any Entry.isItem = true →
      Outline inner es → startsWithList rest = false → Outline level rest →
      Outline level (.list inner es :: rest)

theorem Outline.le_level {level : Nat} {es : List Entry} (h : Outline level es) :
    ∀ x ∈ headings es, level ≤ x.level := by
  induction h with
  | nil => exact fun _ hx => absurd hx List.not_mem_nil
  | item hlevel _ ih =>
    rw [headings, Entry.headings, List.singleton_append]
    exact List.forall_mem_cons.mpr ⟨hlevel.ge, ih⟩
  | list hlt _ _ _ _ ihinner ihrest =>
    rw [headings, Entry.headings]
    exact List.forall_mem_append.mpr ⟨fun x hx => hlt.le.trans (ihinner x hx), ihrest⟩

/-- In an outline with items of its own there is a heading of its level. -/
theorem Outline.exists_level_eq {level : Nat} {es : List Entry} (h : Outline level es)
    (hitem : es.any Entry.isItem = true) : ∃ x ∈ headings es, x.level = level := by
  obtain ⟨e, hmem, he⟩ := List.any_eq_true.mp hitem
  induction h with
  | nil => exact absurd hmem List.not_mem_nil
  | @item level x rest hlevel _ ih =>
    exact ⟨x, mem_headings_of_item_mem (List.mem_cons_self ..), hlevel⟩
  | @list level inner es rest _ _ _ _ _ _ ih =>
    rcases List.mem_cons.mp hmem with rfl | hmem
    · exact absurd he Bool.false_ne_true
    · obtain ⟨x, hx, hlevel⟩ := ih (List.any_eq_true.mpr ⟨e, hmem, he⟩) hmem
      exact ⟨x, List.mem_append_right _ hx, hlevel⟩

/-- What follows the lists of an outline begins with a heading of its level, or is empty. -/
theorem Outline.head?_headings {level : Nat} {es : List Entry} (h : Outline level es)
    (hstart : startsWithList es = false) : ∀ x ∈ (headings es).head?, x.level = level := by
  cases h with
  | nil => exact fun _ hx => absurd hx (Option.not_mem_none _)
  | item hlevel _ =>
    rw [headings, Entry.headings, List.singleton_append, List.head?_cons]
    exact fun x hx => Option.some.inj hx ▸ hlevel
  | list => exact Bool.noConfusion hstart

/-! ### Runs of deeper headings -/

/-- The least level of a list of headings that are at most as high as `level`. -/
def leastLevel (level : Nat) : List Heading → Nat
  | [] => level
  | h :: rest => leastLevel (min level h.level) rest

theorem leastLevel_le (level : Nat) (hs : List Heading) : leastLevel level hs ≤ level := by
  induction hs generalizing level with
  | nil => exact Nat.le_refl _
  | cons h rest ih => exact Nat.le_trans (ih _) (Nat.min_le_left _ _)

theorem leastLevel_le_of_mem {level : Nat} {hs : List Heading} {x : Heading} (hx : x ∈ hs) :
    leastLevel level hs ≤ x.level := by
  induction hs generalizing level with
  | nil => simp at hx
  | cons h rest ih =>
    rcases List.mem_cons.1 hx with rfl | hx
    · exact Nat.le_trans (leastLevel_le _ rest) (Nat.min_le_right _ _)
    · exact ih hx

theorem lt_leastLevel {bound level : Nat} {hs : List Heading} (hl : bound < level)
    (h : ∀ x ∈ hs, bound < x.level) : bound < leastLevel level hs := by
  induction hs generalizing level with
  | nil => exact hl
  | cons y rest ih =>
    exact ih (Nat.lt_min.2 ⟨hl, h y List.mem_cons_self⟩)
      fun x hx => h x (List.mem_cons_of_mem _ hx)

/-- A measure of what is to be nested: the headings with the levels that they are above another. -/
def weight (level : Nat) : List Heading → Nat
  | [] => 0
  | h :: rest => h.level - level + 1 + weight level rest

theorem weight_append (level : Nat) (hs ks : List Heading) :
    weight level (hs ++ ks) = weight level hs + weight level ks := by
  induction hs with
  | nil => simp [weight]
  | cons h rest ih => simp only [List.cons_append, weight, ih]; omega

theorem weight_add_length_le {level least : Nat} (hl : level < least) {hs : List Heading}
    (h : ∀ x ∈ hs, least ≤ x.level) : weight least hs + hs.length ≤ weight level hs := by
  induction hs with
  | nil => simp [weight]
  | cons y rest ih =>
    have h1 := h y List.mem_cons_self
    have h2 := ih fun x hx => h x (List.mem_cons_of_mem _ hx)
    simp only [weight, List.length_cons]
    omega

/-- The headings at the start of a list that are deeper than a level. -/
def deeper (level : Nat) (hs : List Heading) : List Heading :=
  hs.takeWhile fun h => level < h.level

/-- What follows the headings that are deeper than a level. -/
def afterDeeper (level : Nat) (hs : List Heading) : List Heading :=
  hs.dropWhile fun h => level < h.level

theorem lt_of_mem_deeper {level : Nat} {hs : List Heading} {x : Heading}
    (hx : x ∈ deeper level hs) : level < x.level := by
  have h := List.all_takeWhile (p := fun h : Heading => decide (level < h.level)) (l := hs)
  exact of_decide_eq_true (List.all_eq_true.1 h x hx)

theorem weight_split (level : Nat) (hs : List Heading) :
    weight level hs = weight level (deeper level hs) + weight level (afterDeeper level hs) := by
  rw [← weight_append]
  simp only [deeper, afterDeeper, List.takeWhile_append_dropWhile]

/-- The entries of a list at a level.  A heading at the level is an item, and a run of deeper ones
is a list at the least level among them. -/
def nest (level : Nat) (hs : List Heading) : List Entry :=
  match hs with
  | [] => []
  | h :: rest =>
    if level < h.level then
      let run := deeper level (h :: rest)
      let least := leastLevel h.level run
      .list least (nest least run) :: nest level (afterDeeper level (h :: rest))
    else .item h :: nest level rest
  termination_by weight level hs
  decreasing_by
    all_goals rename_i hlt
    · have hr : deeper level (h :: rest) = h :: deeper level rest := by
        simp only [deeper, List.takeWhile_cons, hlt, decide_true, if_true]
      have hl : level < leastLevel h.level (deeper level (h :: rest)) :=
        lt_leastLevel hlt fun x hx => lt_of_mem_deeper hx
      have hw := weight_add_length_le hl fun x hx => leastLevel_le_of_mem hx
      have hs := weight_split level (h :: rest)
      have hn : 0 < (deeper level (h :: rest)).length := by rw [hr]; simp
      omega
    · have hr : deeper level (h :: rest) = h :: deeper level rest := by
        simp only [deeper, List.takeWhile_cons, hlt, decide_true, if_true]
      have hs := weight_split level (h :: rest)
      have hp : 0 < weight level (deeper level (h :: rest)) := by
        rw [hr]; simp only [weight]; omega
      omega
    · simp only [weight]; omega

/-- A run of deeper headings is a list at the least level among them. -/
theorem nest_of_lt {level : Nat} {h : Heading} {run after rest : List Heading}
    (hlt : level < h.level) (hrun : deeper level (h :: rest) = run)
    (hafter : afterDeeper level (h :: rest) = after) :
    nest level (h :: rest) =
      .list (leastLevel h.level run) (nest (leastLevel h.level run) run) :: nest level after := by
  rw [nest, if_pos hlt, hrun, hafter]

/-! ### Uniqueness -/

section Uniqueness

variable {level : Nat} {hs ks : List Heading}

theorem deeper_append (hdeep : ∀ x ∈ hs, level < x.level)
    (hhead : ∀ x ∈ ks.head?, x.level = level) :
    deeper level (hs ++ ks) = hs ∧ afterDeeper level (hs ++ ks) = ks := by
  have hall : ∀ x ∈ hs, decide (level < x.level) = true := fun x hx => decide_eq_true (hdeep x hx)
  have hstop : ks.takeWhile (fun x => level < x.level) = [] ∧
      ks.dropWhile (fun x => level < x.level) = ks := by
    cases ks with
    | nil => exact ⟨rfl, rfl⟩
    | cons k ks =>
      have hk : ¬ level < k.level := (hhead k rfl).not_gt
      simp [hk]
  rw [deeper, afterDeeper, List.takeWhile_append_of_pos hall, List.dropWhile_append_of_pos hall]
  exact ⟨by rw [hstop.1, List.append_nil], hstop.2⟩

theorem leastLevel_eq {least : Nat} (hle : ∀ x ∈ hs, least ≤ x.level) (hlevel : least ≤ level)
    (hmem : ∃ x ∈ hs, x.level = least) : leastLevel level hs = least := by
  obtain ⟨x, hx, rfl⟩ := hmem
  refine Nat.le_antisymm (leastLevel_le_of_mem hx) ?_
  cases hzero : x.level with
  | zero => exact Nat.zero_le _
  | succ bound =>
    rw [hzero] at hle hlevel
    exact lt_leastLevel hlevel hle

/-- An outline is the one that `nest` makes of its headings. -/
theorem Outline.nest_headings {level : Nat} {es : List Entry} (h : Outline level es) :
    nest level (headings es) = es := by
  induction h with
  | nil => rw [headings, nest]
  | @item level x rest hlevel _ ih =>
    rw [headings, Entry.headings, List.singleton_append, nest, if_neg hlevel.not_gt, ih]
  | @list level inner es rest hlt hitem hinner hstart hrest ihinner ihrest =>
    have hlevels := hinner.le_level
    obtain ⟨x, hx, hxlevel⟩ := hinner.exists_level_eq hitem
    obtain ⟨hrun, hafter⟩ :=
      deeper_append (fun x hx => hlt.trans_le (hlevels x hx)) (hrest.head?_headings hstart)
    rw [headings, Entry.headings]
    -- The run begins with a heading, so that `nest` makes a list of it.
    obtain ⟨y, ys, hys⟩ := List.exists_cons_of_ne_nil (List.ne_nil_of_mem hx)
    have hy : inner ≤ y.level := hlevels y (hys ▸ List.mem_cons_self ..)
    have hleast : leastLevel y.level (headings es) = inner :=
      leastLevel_eq hlevels hy ⟨x, hx, hxlevel⟩
    rw [hys, List.cons_append] at hrun hafter ⊢
    rw [nest_of_lt (hlt.trans_le hy) hrun hafter, ← hys, hleast, ihinner, ihrest]

/-- There is only one outline of a list of headings. -/
theorem Outline.unique {level : Nat} {es fs : List Entry} (hes : Outline level es)
    (hfs : Outline level fs) (heq : headings es = headings fs) : es = fs := by
  rw [← hes.nest_headings, heq, hfs.nest_headings]

end Uniqueness

end WikiPress.Toc
