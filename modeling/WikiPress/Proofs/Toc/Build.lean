import Mathlib.Data.List.Basic
import Mathlib.Data.List.Range
import WikiPress.Proofs.Toc.Outline

/-!
# Tables of contents are outlines

While the headings are read, the lists that are open stand inside each other without a gap: there is
one for every level from that of the last heading up to the root.  A list is closed only behind a
heading or another closed list, so it holds something, and what follows it is a heading.  The tree
of the closed lists is therefore an outline up to lists that hold a single list and nothing else,
and those are the ones that are dissolved.

## Main definitions

* `Toc.Stepped` : entries whose lists are one level deeper than the list that they are in.
* `Toc.Standing` : open lists that stand inside each other without a gap.
* `Toc.Stack.Ready` : a stack between two headings.

## Main results

* `Toc.Stack.exists_place?` : what one heading does to the open lists.
* `Toc.Stack.exists_foldlM_place?` : what a list of headings does to them.
* `Toc.Stepped.outline_collapse` : the tree without its empty lists is an outline.
* `Toc.exists_build?_eq_nest` : the table of contents is the only outline of the headings with
  content.
-/

namespace WikiPress.Toc

/-! ### Entries that are being filled in -/

/-- Whether entries end with a list. -/
def endsWithList (es : List Entry) : Bool := es.getLast?.any fun e => !e.isItem

/-- Entries at a level as they are filled in.  Items have the level, lists are one level deeper and
hold something, and no list follows another one. -/
inductive Stepped : Nat → List Entry → Prop
  | nil {level : Nat} : Stepped level []
  | item {level : Nat} {h : Heading} {rest : List Entry} : h.level = level → Stepped level rest →
      Stepped level (.item h :: rest)
  | list {level : Nat} {es rest : List Entry} : es ≠ [] → Stepped (level + 1) es →
      startsWithList rest = false → Stepped level rest →
      Stepped level (.list (level + 1) es :: rest)

section Stepped

variable {level : Nat} {es fs : List Entry} {e : Entry}

theorem endsWithList_append_item (es : List Entry) (h : Heading) :
    endsWithList (es ++ [.item h]) = false := by
  simp [endsWithList, Entry.isItem]

theorem endsWithList_cons (h : endsWithList es = true) : endsWithList (e :: es) = true := by
  cases es with
  | nil => exact Bool.noConfusion h
  | cons f es => simpa only [endsWithList, List.getLast?_cons_cons] using h

theorem Stepped.append (hes : Stepped level es) (hfs : Stepped level fs)
    (hmeet : endsWithList es = true → startsWithList fs = false) : Stepped level (es ++ fs) := by
  induction hes with
  | nil => exact hfs
  | item hlevel _ ih => exact .item hlevel (ih hfs fun h => hmeet (endsWithList_cons h))
  | @list level inner rest hne hinner hstart _ _ ih =>
    refine .list hne hinner ?_ (ih hfs fun h => hmeet (endsWithList_cons h))
    cases rest with
    | nil => exact hmeet rfl
    | cons f rest => exact hstart

theorem Stepped.append_item {h : Heading} (hes : Stepped level es) (hlevel : h.level = level) :
    Stepped level (es ++ [.item h]) :=
  hes.append (.item hlevel .nil) fun _ => rfl

theorem Stepped.append_list (hes : Stepped level es) (hend : endsWithList es = false)
    (hfs : Stepped (level + 1) fs) (hne : fs ≠ []) :
    Stepped level (es ++ [.list (level + 1) fs]) :=
  hes.append (.list hne hfs rfl .nil) fun h => absurd (h.symm.trans hend) Bool.false_ne_true.symm

end Stepped

/-! ### Open lists -/

/-- Open lists that stand inside each other without a gap, down to the root at level zero.  None of
them ends with a list while another one is open inside it. -/
inductive Standing : OpenList → List OpenList → Prop
  | root {es : List Entry} : Stepped 0 es → Standing ⟨0, es⟩ []
  | inner {outer : OpenList} {es : List Entry} {around : List OpenList} :
      Stepped (outer.level + 1) es → endsWithList outer.entries = false → Standing outer around →
      Standing ⟨outer.level + 1, es⟩ (outer :: around)

/-- The headings in open lists from left to right. -/
def standingHeadings (top : OpenList) : List OpenList → List Heading
  | [] => headings top.entries
  | outer :: around => standingHeadings outer around ++ headings top.entries

/-- The levels of the open lists, from the inside out. -/
def Stack.levels (s : Stack) : List Nat := s.top.level :: s.around.map OpenList.level

section Standing

variable {top outer : OpenList} {around : List OpenList} {e : Entry}

theorem Standing.stepped (h : Standing top around) : Stepped top.level top.entries := by
  cases h with
  | root hes => exact hes
  | inner hes _ _ => exact hes

theorem Standing.push (h : Standing top around) (he : Stepped top.level (top.entries ++ [e])) :
    Standing (top.push e) around := by
  cases h with
  | root _ => exact .root he
  | inner _ hend houter => exact .inner he hend houter

theorem standingHeadings_push (top : OpenList) (e : Entry) (around : List OpenList) :
    standingHeadings (top.push e) around = standingHeadings top around ++ e.headings := by
  cases around with
  | nil =>
    rw [standingHeadings, standingHeadings, OpenList.push, headings_append, headings_singleton]
  | cons outer around =>
    rw [standingHeadings, standingHeadings, OpenList.push, headings_append, headings_singleton,
      List.append_assoc]

/-- A list that holds something is closed into the list around it. -/
theorem Standing.close (h : Standing top (outer :: around)) (hne : top.entries ≠ []) :
    Standing (outer.push top.close) around := by
  cases h with
  | inner hes hend houter => exact houter.push (houter.stepped.append_list hend hes hne)

theorem standingHeadings_close (top outer : OpenList) (around : List OpenList) :
    standingHeadings (outer.push top.close) around = standingHeadings top (outer :: around) := by
  rw [standingHeadings_push, OpenList.close, Entry.headings, standingHeadings]

theorem Standing.level_eq (h : Standing top (outer :: around)) : top.level = outer.level + 1 := by
  cases h with
  | inner _ _ _ => rfl

/-- There is one open list for every level down to the root. -/
theorem Standing.levels_eq (h : Standing top around) :
    Stack.levels ⟨top, around⟩ = (List.range (top.level + 1)).reverse := by
  induction h with
  | root _ => rfl
  | inner _ _ _ ih =>
    rw [List.range_succ, List.reverse_append, ← ih]
    rfl

end Standing

/-! ### One heading -/

namespace Stack

/-- A stack between two headings.  The list that was opened last ends with the last heading, unless
only the root is open. -/
structure Ready (s : Stack) (hs : List Heading) : Prop where
  standing : Standing s.top s.around
  headings_eq : standingHeadings s.top s.around = hs
  ends : endsWithList s.top.entries = false
  filled : s.around ≠ [] → s.top.entries ≠ []
  level_le : s.top.level ≤ mostLevel

theorem ready_root : Ready root [] where
  standing := .root .nil
  headings_eq := rfl
  ends := rfl
  filled := fun h => absurd rfl h
  level_le := Nat.zero_le _

variable {top : OpenList} {around : List OpenList}

/-- Closing the deeper lists leaves the last list at the level or above it.  If it ends with a list
now, it is at the level. -/
theorem closeFrom_spec (level : Nat) (h : Standing top around)
    (hfilled : around ≠ [] → top.entries ≠ [])
    (hend : endsWithList top.entries = true → level ≤ top.level) :
    Standing (closeFrom level top around).top (closeFrom level top around).around ∧
      standingHeadings (closeFrom level top around).top (closeFrom level top around).around =
        standingHeadings top around ∧
      (closeFrom level top around).top.level ≤ level ∧
      (endsWithList (closeFrom level top around).top.entries = true →
        (closeFrom level top around).top.level = level) := by
  induction around generalizing top with
  | nil =>
    have hroot : top.level = 0 := by cases h; rfl
    refine ⟨h, rfl, hroot ▸ Nat.zero_le level, fun hlist => ?_⟩
    exact Nat.le_antisymm (hroot ▸ Nat.zero_le level) (hend hlist)
  | cons outer around ih =>
    rw [closeFrom]
    split
    · next hlt =>
      have hle : level ≤ outer.level := Nat.le_of_lt_succ (Nat.lt_of_lt_of_eq hlt h.level_eq)
      rw [← standingHeadings_close]
      exact ih (h.close (hfilled (List.cons_ne_nil _ _)))
        (fun _ => List.append_ne_nil_of_right_ne_nil _ (List.cons_ne_nil _ _)) fun _ => hle
    · next hlt =>
      have hle := Nat.le_of_not_lt hlt
      exact ⟨h, rfl, hle, fun hlist => Nat.le_antisymm hle (hend hlist)⟩

/-- Lists can be opened down to the largest level. -/
theorem exists_openMore? {s : Stack} (n : Nat) (h : Standing s.top s.around)
    (hend : n ≠ 0 → endsWithList s.top.entries = false) (hlevel : s.top.level + n ≤ mostLevel) :
    ∃ s', s.openMore? n = some s' ∧ Standing s'.top s'.around ∧
      standingHeadings s'.top s'.around = standingHeadings s.top s.around ∧
      s'.top.level = s.top.level + n := by
  induction n generalizing s with
  | zero => exact ⟨s, rfl, h, rfl, rfl⟩
  | succ n ih =>
    have hopen : s.open? = some ⟨⟨s.top.level + 1, []⟩, s.top :: s.around⟩ :=
      if_pos (by omega)
    obtain ⟨s', hs', hstanding, hheadings, hlevel'⟩ :=
      ih (s := ⟨⟨s.top.level + 1, []⟩, s.top :: s.around⟩)
        (.inner .nil (hend (Nat.succ_ne_zero n)) h) (fun _ => rfl)
        (by rw [Nat.add_assoc, Nat.add_comm 1 n]; exact hlevel)
    refine ⟨s', ?_, hstanding, ?_, ?_⟩
    · rw [openMore?, hopen, Option.bind_some, hs']
    · rw [hheadings, standingHeadings, headings, List.append_nil]
    · rw [hlevel', Nat.add_assoc, Nat.add_comm 1 n]

/-- A heading is put behind the others, and its list is the one that was opened last. -/
theorem exists_place? {s : Stack} {hs : List Heading} {h : Heading} (hready : s.Ready hs)
    (hlevel : h.level ≤ mostLevel) :
    ∃ s', s.place? h = some s' ∧ s'.Ready (hs ++ [h]) := by
  obtain ⟨hstanding, hheadings, hle, hlist⟩ :=
    closeFrom_spec h.level hready.standing hready.filled
      fun hend => absurd (hend.symm.trans hready.ends) Bool.false_ne_true.symm
  rw [hready.headings_eq] at hheadings
  generalize hclosed : closeFrom h.level s.top s.around = closed at *
  obtain ⟨s', hs', hstanding', hheadings', hlevel'⟩ :=
    exists_openMore? (h.level - closed.top.level) hstanding
      (fun hne => Bool.eq_false_iff.mpr fun hend => hne (by rw [hlist hend, Nat.sub_self]))
      (by omega)
  rw [Nat.add_sub_cancel' hle] at hlevel'
  refine ⟨s'.push (.item h), ?_, ?_, ?_, ?_, ?_, hlevel'.trans_le hlevel⟩
  · rw [place?, hclosed, hs', Option.map_some]
  · exact hstanding'.push (hstanding'.stepped.append_item hlevel'.symm)
  · show standingHeadings (s'.top.push (.item h)) s'.around = hs ++ [h]
    rw [standingHeadings_push, hheadings', hheadings, Entry.headings]
  · exact endsWithList_append_item _ _
  · exact fun _ => List.append_ne_nil_of_right_ne_nil _ (List.cons_ne_nil _ _)

/-! ### All headings -/

/-- Headings are put one behind the other. -/
theorem exists_foldlM_place? {s : Stack} {hs : List Heading} (hready : s.Ready hs)
    (ks : List Heading) (hlevel : ∀ k ∈ ks, k.level ≤ mostLevel) :
    ∃ s', ks.foldlM place? s = some s' ∧ s'.Ready (hs ++ ks) := by
  induction ks generalizing s hs with
  | nil => exact ⟨s, rfl, by rwa [List.append_nil]⟩
  | cons k ks ih =>
    rw [List.forall_mem_cons] at hlevel
    obtain ⟨s₁, hs₁, hready₁⟩ := exists_place? hready hlevel.1
    obtain ⟨s', hs', hready'⟩ := ih hready₁ hlevel.2
    refine ⟨s', ?_, by rwa [List.append_assoc] at hready'⟩
    rw [List.foldlM_cons, hs₁]
    exact hs'

/-- Closing all lists keeps the headings. -/
theorem closeAll_spec (h : Standing top around) (hfilled : around ≠ [] → top.entries ≠ []) :
    Stepped 0 (closeAll top around) ∧
      headings (closeAll top around) = standingHeadings top around := by
  induction around generalizing top with
  | nil =>
    cases h with
    | root hes => exact ⟨hes, rfl⟩
  | cons outer around ih =>
    rw [closeAll, ← standingHeadings_close]
    exact ih (h.close (hfilled (List.cons_ne_nil _ _)))
      fun _ => List.append_ne_nil_of_right_ne_nil _ (List.cons_ne_nil _ _)

end Stack

/-! ### Lists without items -/

section Collapse

variable {level : Nat} {es : List Entry}

mutual

theorem headings_collapseEntry : ∀ e : Entry, headings (collapseEntry e) = e.headings
  | .item h => by rw [collapseEntry, headings_singleton]
  | .list level entries => by
    rw [collapseEntry, Entry.headings]
    split
    · rw [headings_singleton, Entry.headings, headings_collapse entries]
    · exact headings_collapse entries

/-- No heading is lost with the lists that are dissolved. -/
theorem headings_collapse : ∀ es : List Entry, headings (collapse es) = headings es
  | [] => rfl
  | e :: rest => by
    rw [collapse, headings_append, headings, headings_collapseEntry e, headings_collapse rest]

end

theorem any_isItem_collapse (h : es.any Entry.isItem = true) :
    (collapse es).any Entry.isItem = true := by
  induction es with
  | nil => exact Bool.noConfusion h
  | cons e rest ih =>
    rw [collapse, List.any_append]
    cases e with
    | item x => rfl
    | list inner entries => exact Bool.or_eq_true_iff.mpr (Or.inr (ih h))

theorem startsWithList_collapse (h : startsWithList es = false) :
    startsWithList (collapse es) = false := by
  cases es with
  | nil => rfl
  | cons e rest =>
    cases e with
    | item x => rfl
    | list inner entries => exact Bool.noConfusion h

theorem eq_nil_of_any_isItem (hstart : startsWithList es = false)
    (hitem : es.any Entry.isItem = false) : es = [] := by
  cases es with
  | nil => rfl
  | cons e rest =>
    cases e with
    | item x => exact Bool.noConfusion hitem
    | list inner entries => exact Bool.noConfusion hstart

/-- The tree without its empty lists is an outline.  Entries without items are a single list, and
they become a single list again. -/
theorem Stepped.outline_collapse (h : Stepped level es) :
    Outline level (collapse es) ∧
      (es ≠ [] → es.any Entry.isItem = false → ∃ inner fs, collapse es = [.list inner fs]) := by
  induction h with
  | nil => exact ⟨.nil, fun hne => absurd rfl hne⟩
  | item hlevel _ ih => exact ⟨.item hlevel ih.1, fun _ hitem => Bool.noConfusion hitem⟩
  | @list level es rest hne hes hstart hrest ihes ihrest =>
    obtain ⟨inner, fs, hlist, hlt, hitem, hfs⟩ : ∃ inner fs,
        collapseEntry (.list (level + 1) es) = [.list inner fs] ∧ level < inner ∧
          fs.any Entry.isItem = true ∧ Outline inner fs := by
      rw [collapseEntry]
      split
      · next hitem =>
        exact ⟨level + 1, collapse es, rfl, Nat.lt_succ_self level, any_isItem_collapse hitem,
          ihes.1⟩
      · next hitem =>
        obtain ⟨inner, fs, heq⟩ := ihes.2 hne (Bool.eq_false_iff.mpr hitem)
        have houtline := ihes.1
        rw [heq] at houtline
        cases houtline with
        | list hlt hitem hfs _ _ => exact ⟨inner, fs, heq, Nat.lt_of_succ_lt hlt, hitem, hfs⟩
    have hcollapse : collapse (.list (level + 1) es :: rest) = .list inner fs :: collapse rest := by
      rw [collapse, hlist, List.singleton_append]
    rw [hcollapse]
    refine ⟨.list hlt hitem hfs (startsWithList_collapse hstart) ihrest.1, fun _ hnone => ?_⟩
    have hnil : rest = [] := eq_nil_of_any_isItem hstart hnone
    exact ⟨inner, fs, by rw [hnil, collapse]⟩

end Collapse

/-! ### Tables of contents -/

theorem level_le_of_mem_shown {hs : List Heading} (hlevel : ∀ h ∈ hs, h.level ≤ mostLevel) :
    ∀ h ∈ shown hs, h.level ≤ mostLevel := fun h hh => hlevel h (List.mem_of_mem_filter hh)

/-- A table of contents is an outline of the headings with content. -/
theorem exists_build? {hs : List Heading} (hlevel : ∀ h ∈ hs, h.level ≤ mostLevel) :
    ∃ es, build? hs = some es ∧ Outline 0 es ∧ headings es = shown hs := by
  obtain ⟨s, hs', hready⟩ :=
    Stack.exists_foldlM_place? Stack.ready_root (shown hs) (level_le_of_mem_shown hlevel)
  obtain ⟨hstepped, hheadings⟩ := Stack.closeAll_spec hready.standing hready.filled
  refine ⟨collapse (Stack.closeAll s.top s.around), ?_, hstepped.outline_collapse.1, ?_⟩
  · rw [build?, hs', Option.map_some]
  · rw [headings_collapse, hheadings, hready.headings_eq, List.nil_append]

/-- The headings of a table of contents are those with content, in their order. -/
theorem headings_ofHeadings {hs : List Heading} (hlevel : ∀ h ∈ hs, h.level ≤ mostLevel) :
    headings (ofHeadings hs) = shown hs := by
  obtain ⟨es, hes, _, hheadings⟩ := exists_build? hlevel
  rw [ofHeadings, hes, Option.getD_some, hheadings]

/-- Headings of any levels have a table of contents.  It is an outline of the headings with content,
the only one, and the one that `nest` makes run by run.  Behind every heading that is read on the
way to it, the open lists have all levels down to the root, and none of these is too large. -/
theorem exists_build?_eq_nest {hs : List Heading} (hlevel : ∀ h ∈ hs, h.level ≤ mostLevel) :
    ∃ es, build? hs = some es ∧ Outline 0 es ∧ headings es = shown hs ∧
      (∀ fs, Outline 0 fs → headings fs = shown hs → fs = es) ∧ es = nest 0 (shown hs) ∧
      ∀ read, read <+: shown hs → ∃ s : Stack, read.foldlM Stack.place? Stack.root = some s ∧
        s.levels = (List.range (s.top.level + 1)).reverse ∧ s.top.level ≤ mostLevel := by
  obtain ⟨es, hes, houtline, hheadings⟩ := exists_build? hlevel
  refine ⟨es, hes, houtline, hheadings, ?_, ?_, ?_⟩
  · exact fun fs hfs hfs' => hfs.unique houtline (hfs'.trans hheadings.symm)
  · rw [← hheadings, houtline.nest_headings]
  · intro read hread
    have hlevel' : ∀ h ∈ read, h.level ≤ mostLevel := fun h hh =>
      level_le_of_mem_shown hlevel h (hread.subset hh)
    obtain ⟨s, hs', hready⟩ := Stack.exists_foldlM_place? Stack.ready_root read hlevel'
    exact ⟨s, hs', hready.standing.levels_eq, hready.level_le⟩

/-- Headings that begin below the first level, go up to a level that was skipped and down again past
another one, with an empty heading among them. -/
def skippedLevels : List Heading :=
  [⟨"a", 0, 3, "a"⟩, ⟨"b", 1, 2, "b"⟩, ⟨"", 2, 1, ""⟩, ⟨"c", 3, 9, "c"⟩, ⟨"d", 4, 1, "d"⟩,
    ⟨"e", 5, 0, "e"⟩, ⟨"f", 6, 255, "f"⟩]

/-- The outline of these headings. -/
def skippedLevelsTree : List Entry :=
  [.list 1 [.list 2 [.list 3 [.item ⟨"a", 0, 3, "a"⟩], .item ⟨"b", 1, 2, "b"⟩,
      .list 9 [.item ⟨"c", 3, 9, "c"⟩]], .item ⟨"d", 4, 1, "d"⟩],
    .item ⟨"e", 5, 0, "e"⟩, .list 255 [.item ⟨"f", 6, 255, "f"⟩]]

theorem exists_build?_skippedLevels :
    (∀ h ∈ skippedLevels, h.level ≤ mostLevel) ∧ build? skippedLevels = some skippedLevelsTree ∧
      Outline 0 skippedLevelsTree ∧ headings skippedLevelsTree = shown skippedLevels ∧
      skippedLevelsTree = nest 0 (shown skippedLevels) := by
  have hlevel : ∀ h ∈ skippedLevels, h.level ≤ mostLevel := by decide
  have hdeep : Outline 2 [.list 3 [.item ⟨"a", 0, 3, "a"⟩], .item ⟨"b", 1, 2, "b"⟩,
      .list 9 [.item ⟨"c", 3, 9, "c"⟩]] :=
    .list (by decide) rfl (.item rfl .nil) rfl
      (.item rfl (.list (by decide) rfl (.item rfl .nil) rfl .nil))
  have htree : Outline 0 skippedLevelsTree :=
    .list (by decide) rfl (.list (by decide) rfl hdeep rfl (.item rfl .nil)) rfl
      (.item rfl (.list (by decide) rfl (.item rfl .nil) rfl .nil))
  obtain ⟨es, hes, _, hheadings, hunique, hnest, _⟩ := exists_build?_eq_nest hlevel
  obtain rfl : skippedLevelsTree = es := hunique _ htree rfl
  exact ⟨hlevel, hes, htree, hheadings, hnest⟩

end WikiPress.Toc
