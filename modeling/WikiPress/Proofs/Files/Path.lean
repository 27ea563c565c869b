import Mathlib.Data.List.DropRight
import WikiPress.Files.Path
import WikiPress.Proofs.Text.Blank
import WikiPress.Proofs.Text.Offset

/-!
# Paths as lists of names

A path is a first piece with others below it, and the functions on paths are described here by these
pieces; the first one is empty if the path starts at the root.  A relative path that is put behind a
directory, the directories around it, and the path with another extension are all made of the same
names.

## Main definitions

* `Path.IsStep` : a name that leads from a directory to one of its entries.
* `Path.below` : the path of names below a path.
* `Path.trunk` : a path without a slash at its end.
* `Path.IsTop`, `Path.base` : a path that has only idle pieces, and a path without the idle pieces
  at its end.
* `Path.upwards` : the directories from a place below a path up to the path.

## Main results

* `Path.join_below`, `Path.dropBase_below` : names are put behind a path and taken from behind it.
* `Path.below_append_slash_isPrefix_iff` : one path leads through another one exactly if its names
  lead to a directory of the other one.
* `Path.extension?_below_eq_some`, `Path.withExtension_below` : extensions of the last name.
* `Path.parent?_below`, `Path.selfAndParents_base_append` : the directories around a path, up to the
  path that it is below and from there on.
-/

namespace WikiPress.Path

open Text

/-- A name that leads from a directory to one of its entries: it has characters, none of them is a
slash, and it is not one of the dots. -/
structure IsStep (name : Name) : Prop where
  ne_nil : name ≠ []
  slash_notMem : '/' ∉ name
  ne_here : name ≠ here
  ne_above : name ≠ above

/-- The path of names below a path. -/
def below (p : Path) (names : List Name) : Path := p ++ names.flatMap ('/' :: ·)

/-- A path without a slash at its end. -/
def trunk (p : Path) : Path := if p.getLast? = some '/' then p.dropLast else p

variable {p q : Path} {first n stem ending : Name} {rest names ns ms : List Name}

theorem IsStep.isIdle (h : IsStep n) : isIdle n = false := by
  simp [Path.isIdle, h.ne_nil, h.ne_here]

theorem not_isAbsolute (hne : n ≠ []) (hn : '/' ∉ n) : isAbsolute (below n names) = false := by
  obtain ⟨c, s, rfl⟩ := List.exists_cons_of_ne_nil hne
  have hc : c ≠ '/' := fun h => hn (h ▸ List.mem_cons_self ..)
  simp [isAbsolute, below, hc]

theorem forall_mem_concat {P : Name → Prop} (hns : ∀ m ∈ ns, P m) (hn : P n) :
    ∀ m ∈ ns ++ [n], P m := by
  intro m hm
  rcases List.mem_append.mp hm with hm | hm
  · exact hns m hm
  · rwa [List.mem_singleton.mp hm]

theorem slash_notMem_append (hrest : ∀ n ∈ rest, '/' ∉ n) (hnames : ∀ n ∈ names, IsStep n) :
    ∀ n ∈ rest ++ names, '/' ∉ n := by
  rw [List.forall_mem_append]
  exact ⟨hrest, fun n hn => (hnames n hn).slash_notMem⟩

/-! ### Names below a path -/

@[simp] theorem below_nil (p : Path) : below p [] = p := by simp [below]

theorem below_cons (p : Path) (n : Name) (ns : List Name) :
    below p (n :: ns) = p ++ '/' :: below n ns := by simp [below]

theorem below_below (p : Path) (ms ns : List Name) :
    below (below p ms) ns = below p (ms ++ ns) := by simp [below]

theorem below_concat (p : Path) (ns : List Name) (n : Name) :
    below p (ns ++ [n]) = below p ns ++ '/' :: n := by simp [below]

theorem splitAtEach_below (h : ∀ n ∈ names, '/' ∉ n) (p : Path) :
    splitAtEach '/' (below p names) = splitAtEach '/' p ++ names := by
  induction names generalizing p with
  | nil => simp
  | cons n names ih =>
    rw [List.forall_mem_cons] at h
    rw [below_cons, splitAtEach_append, ih h.2, splitAtEach_of_notMem h.1]
    rfl

theorem steps_below (h : ∀ n ∈ names, IsStep n) (p : Path) :
    steps (below p names) = steps p ++ names := by
  have hnames : names.filter (!·.isEmpty) = names :=
    List.filter_eq_self.mpr fun n hn => by simpa using (h n hn).ne_nil
  rw [steps, splitAtEach_below (fun n hn => (h n hn).slash_notMem), List.filter_append, hnames]
  rfl

theorem pieces_below (hfirst : '/' ∉ first) (h : ∀ n ∈ rest, '/' ∉ n) :
    pieces (below first rest) = (first, rest.reverse) := by
  rw [pieces, splitAtEach_below h, splitAtEach_of_notMem hfirst]
  rfl

/-- A path is a first piece with others below it. -/
theorem exists_eq_below (p : Path) :
    ∃ first rest, '/' ∉ first ∧ (∀ n ∈ rest, '/' ∉ n) ∧ p = below first rest := by
  obtain ⟨first, rest, heq⟩ := List.exists_cons_of_ne_nil (splitAtEach_ne_nil '/' p)
  have hpieces : ∀ n ∈ first :: rest, '/' ∉ n := fun n hn =>
    notMem_of_mem_splitAtEach (heq ▸ hn)
  rw [List.forall_mem_cons] at hpieces
  refine ⟨first, rest, hpieces.1, hpieces.2, ?_⟩
  rw [← intercalate_splitAtEach '/' p, heq]
  clear heq hpieces
  induction rest generalizing first with
  | nil => simp
  | cons n rest ih =>
    rw [List.intercalate_cons_cons, ih, below_cons, List.append_assoc]
    rfl

/-- Different names lead to different paths. -/
theorem below_inj (hn : ∀ n ∈ ns, '/' ∉ n) (hm : ∀ m ∈ ms, '/' ∉ m)
    (h : below p ns = below p ms) : ns = ms := by
  have := congrArg (splitAtEach '/') h
  rw [splitAtEach_below hn, splitAtEach_below hm] at this
  exact List.append_cancel_left this

/-- One path leads through another one exactly if its names lead to a directory of the other one. -/
theorem below_append_slash_isPrefix_iff (hns : ∀ n ∈ ns, '/' ∉ n) (hms : ∀ m ∈ ms, '/' ∉ m)
    (hn : '/' ∉ n) : below p ns ++ ['/'] <+: below p (ms ++ [n]) ↔ ns <+: ms := by
  constructor
  · rintro ⟨t, ht⟩
    rw [List.append_assoc, List.singleton_append] at ht
    have hsplit := congrArg (splitAtEach '/') ht
    rw [splitAtEach_append, splitAtEach_below hns, splitAtEach_below (forall_mem_concat hms hn),
      List.append_assoc] at hsplit
    obtain ⟨more, m, hmore⟩ := (List.eq_nil_or_concat' (splitAtEach '/' t)).resolve_left
      (splitAtEach_ne_nil _ _)
    have hnames := List.append_cancel_left hsplit
    rw [hmore, ← List.append_assoc] at hnames
    exact ⟨more, (List.append_inj' hnames rfl).1⟩
  · rintro ⟨more, rfl⟩
    obtain ⟨m, rest, hrest⟩ : ∃ m rest, more ++ [n] = m :: rest :=
      List.exists_cons_of_ne_nil (by simp)
    refine ⟨below m rest, ?_⟩
    rw [List.append_assoc, List.append_assoc, hrest, ← below_below, below_cons]
    rfl

/-! ### Joined paths -/

theorem getLast?_below_concat (hn : IsStep n) (p : Path) (ns : List Name) :
    (below p (ns ++ [n])).getLast? ≠ some '/' := by
  intro h
  rw [below_concat, List.getLast?_append_of_ne_nil _ (by simp), List.getLast?_cons] at h
  obtain ⟨c, hc⟩ := List.getLast?_isSome.mpr hn.ne_nil |> Option.isSome_iff_exists.mp
  rw [hc] at h
  simp only [Option.getD_some, Option.some.injEq] at h
  exact hn.slash_notMem (h ▸ List.mem_of_getLast? hc)

theorem trunk_below_concat (hn : IsStep n) (p : Path) (ns : List Name) :
    trunk (below p (ns ++ [n])) = below p (ns ++ [n]) := if_neg (getLast?_below_concat hn p ns)

theorem eq_trunk_append (p : Path) : p = trunk p ∨ p = trunk p ++ ['/'] := by
  rw [trunk]
  split
  · next h =>
    right
    obtain ⟨s, hs⟩ := List.getLast?_eq_some_iff.mp h
    rw [hs, List.dropLast_concat]
  · exact .inl rfl

theorem join_below (hp : p ≠ []) (hn : IsStep n) (ns : List Name) :
    join p (below n ns) = below (trunk p) (n :: ns) := by
  rw [join, not_isAbsolute hn.ne_nil hn.slash_notMem, below_cons, trunk]
  simp only [Bool.false_eq_true, if_false, List.isEmpty_iff, hp, false_or]
  split
  · next h =>
    obtain ⟨s, rfl⟩ := List.getLast?_eq_some_iff.mp h
    rw [List.dropLast_concat, List.append_assoc]
    rfl
  · rfl

/-- Names that are put behind a path one by one. -/
theorem foldl_join (hp : p ≠ []) (hn : IsStep n) (hns : ∀ m ∈ ns, IsStep m) :
    (n :: ns).foldl join p = below (trunk p) (n :: ns) := by
  have hjoin : join p n = below (trunk p) [n] := by simpa using join_below hp hn []
  induction ns generalizing p n with
  | nil => exact hjoin
  | cons m ns ih =>
    rw [List.forall_mem_cons] at hns
    have hne : join p n ≠ [] := by simp [hjoin, below]
    have htrunk : trunk (join p n) = below (trunk p) [n] := by
      rw [hjoin]
      exact trunk_below_concat hn (trunk p) []
    rw [List.foldl_cons, ih hne hns.1 hns.2 (by simpa using join_below hne hns.1 []), htrunk,
      below_below]
    rfl

theorem dropBase_below (hn : IsStep n) (ns : List Name) :
    dropBase p (below (trunk p) (n :: ns)) = below n ns := by
  have hrest : (below n ns).dropWhile (· = '/') = below n ns := by
    obtain ⟨c, s, rfl⟩ := List.exists_cons_of_ne_nil hn.ne_nil
    have hc : c ≠ '/' := fun h => hn.slash_notMem (h ▸ List.mem_cons_self ..)
    simp [below, hc]
  rw [dropBase, below_cons]
  rcases eq_trunk_append p with h | h
  · rw [← h, List.drop_left, List.dropWhile_cons_of_pos (by simp), hrest]
  · have : trunk p ++ '/' :: below n ns = p ++ below n ns := by
      conv_rhs => rw [h]
      simp
    rw [this, List.drop_left, hrest]

/-! ### Extensions -/

theorem name?_below (hfirst : '/' ∉ first) (hrest : ∀ n ∈ rest, '/' ∉ n) (hn : IsStep n) :
    name? (below first (rest ++ [n])) = some n := by
  rw [name?, pieces_below hfirst (forall_mem_concat hrest hn.slash_notMem)]
  simp [hn.isIdle, hn.ne_above]

theorem splitName_append (hstem : stem ≠ []) (hending : '.' ∉ ending) :
    splitName (stem ++ '.' :: ending) = (stem, some ending) := by
  have htake : (stem ++ '.' :: ending).reverse.takeWhile (· ≠ '.') = ending.reverse := by
    rw [List.reverse_append, List.reverse_cons, List.append_assoc, List.takeWhile_append_of_pos]
    · simp
    · intro c hc
      simpa using fun h : c = '.' => hending (h ▸ List.mem_reverse.mp hc)
  rw [splitName, htake]
  simp [hstem]

theorem exists_eq_of_splitName (h : (splitName n).2 = some ending) :
    ∃ stem ≠ [], '.' ∉ ending ∧ n = stem ++ '.' :: ending := by
  rw [splitName] at h
  split at h
  · next c start heq =>
    rw [drop_length_takeWhile] at heq
    split at h
    · exact absurd h (by simp)
    · next hstart =>
      have hc : c = '.' := by
        have := List.head?_dropWhile_not (· ≠ '.') n.reverse
        rw [heq] at this
        simpa using this
      have hn : n.reverse = n.reverse.takeWhile (· ≠ '.') ++ c :: start := by
        rw [← heq, List.takeWhile_append_dropWhile]
      have hending : ending.reverse = n.reverse.takeWhile (· ≠ '.') := by
        rw [← Option.some.inj h, List.reverse_reverse]
      refine ⟨start.reverse, by simpa using hstart, fun hmem => ?_, ?_⟩
      · rw [← List.mem_reverse, hending] at hmem
        simpa using List.mem_takeWhile_imp hmem
      · rw [← hending, hc] at hn
        rw [← List.reverse_reverse n, hn]
        simp
  · exact absurd h (by simp)

theorem extension?_below_eq_some (hfirst : '/' ∉ first) (hrest : ∀ n ∈ rest, '/' ∉ n)
    (hn : IsStep n) :
    extension? (below first (rest ++ [n])) = some ending ↔
      ∃ stem ≠ [], '.' ∉ ending ∧ n = stem ++ '.' :: ending := by
  rw [extension?, name?_below hfirst hrest hn, Option.bind_some]
  constructor
  · exact exists_eq_of_splitName
  · rintro ⟨stem, hstem, hending, rfl⟩
    rw [splitName_append hstem hending]

/-- A name without its extension, but with the point in front of that. -/
theorem IsStep.concat_point (h : IsStep (stem ++ '.' :: ending)) (hstem : stem ≠ [])
    (hdot : stem ≠ here) : IsStep (stem ++ ['.']) where
  ne_nil := by simp
  slash_notMem := by
    have hslash := h.slash_notMem
    rw [List.mem_append, not_or] at hslash ⊢
    exact ⟨hslash.1, by decide⟩
  ne_here := fun heq =>
    hstem (List.append_cancel_right (show stem ++ ['.'] = [] ++ ['.'] from heq))
  ne_above := fun heq =>
    hdot (List.append_cancel_right (show stem ++ ['.'] = here ++ ['.'] from heq))

/-- The last extension is replaced, unless nothing but a dot stands in front of its point. -/
theorem withExtension_below {other : Name} (hfirst : '/' ∉ first) (hrest : ∀ n ∈ rest, '/' ∉ n)
    (hn : IsStep (stem ++ '.' :: ending)) (hstem : stem ≠ []) (hdot : stem ≠ here)
    (hending : '.' ∉ ending) :
    withExtension other (below first (rest ++ [stem ++ '.' :: ending])) =
      below first (rest ++ [stem ++ '.' :: other]) := by
  have hbare : (below first (rest ++ [stem ++ '.' :: ending])).take
      ((below first (rest ++ [stem ++ '.' :: ending])).length - ending.length) =
        below first (rest ++ [stem ++ ['.']]) := by
    have : below first (rest ++ [stem ++ '.' :: ending]) =
        below first (rest ++ [stem ++ ['.']]) ++ ending := by simp [below_concat]
    rw [this, List.length_append, Nat.add_sub_cancel, List.take_left]
  have hbareStep := hn.concat_point hstem hdot
  have hbareName : splitName (stem ++ ['.']) = (stem, some []) := splitName_append hstem (by simp)
  rw [withExtension, (extension?_below_eq_some hfirst hrest hn).mpr ⟨stem, hstem, hending, rfl⟩]
  simp only [Option.getD_some, hbare, name?_below hfirst hrest hbareStep, hbareName]
  rw [withName, pieces_below hfirst (forall_mem_concat hrest hbareStep.slash_notMem),
    List.reverse_append, List.reverse_singleton, List.singleton_append]
  simp only [List.dropWhile_cons_of_neg (Bool.eq_false_iff.mp hbareStep.isIdle)]
  rw [ofPieces, if_neg (by simp)]
  simp [below]

/-! ### Directories around a path -/

/-- Whether a path has only idle pieces and nothing in front of its first slash. -/
def IsTop (first : Name) (rest : List Name) : Prop := first = [] ∧ rest.rdropWhile isIdle = []

/-- A path without the idle pieces at its end. -/
def base (first : Name) (rest : List Name) : Path :=
  ofPieces first (rest.rdropWhile isIdle).reverse

/-- The directories from a place below a path up to the path, which is left out.  The names that
lead to the place are given in reverse. -/
def upwards (first : Name) (rest : List Name) : List Name → List Path
  | [] => []
  | n :: ns => below first (rest ++ (n :: ns).reverse) :: upwards first rest ns

theorem slash_notMem_rdropWhile (hrest : ∀ n ∈ rest, '/' ∉ n) :
    ∀ n ∈ rest.rdropWhile isIdle, '/' ∉ n := fun n hn =>
  hrest n ((List.rdropWhile_prefix (p := isIdle) rest).subset hn)

theorem base_cases (first : Name) (rest : List Name) :
    (IsTop first rest ∧ base first rest = ['/']) ∨
      (¬IsTop first rest ∧ base first rest = below first (rest.rdropWhile isIdle)) := by
  simp only [base, ofPieces, List.reverse_reverse, List.isEmpty_iff, List.reverse_eq_nil_iff]
  split
  · next h => exact .inl ⟨h, rfl⟩
  · next h => exact .inr ⟨h, rfl⟩

theorem base_ne_nil (first : Name) (rest : List Name) : base first rest ≠ [] := by
  rcases base_cases first rest with ⟨-, h⟩ | ⟨hnot, h⟩
  · simp [h]
  · rw [h]
    intro hnil
    obtain ⟨hfirst, hrest⟩ := List.append_eq_nil_iff.mp hnil
    refine hnot ⟨hfirst, ?_⟩
    cases hdrop : rest.rdropWhile isIdle with
    | nil => rfl
    | cons n ns => simp [hdrop] at hrest

theorem base_subset (first : Name) (rest : List Name) :
    base first rest ⊆ '/' :: below first rest := by
  rcases base_cases first rest with ⟨-, h⟩ | ⟨-, h⟩
  · simp [h]
  · obtain ⟨more, hmore⟩ := List.rdropWhile_prefix (p := isIdle) rest
    have heq : below first rest = below (base first rest) more := by
      conv_lhs => rw [← hmore, ← below_below]
      rw [h]
    rw [heq]
    exact fun c hc => List.mem_cons_of_mem _ (List.mem_append_left _ hc)

theorem base_concat (hn : IsStep n) : base first (rest ++ [n]) = below first (rest ++ [n]) := by
  rw [base, List.rdropWhile_concat_neg _ _ _ (Bool.eq_false_iff.mp hn.isIdle)]
  simp [ofPieces, below]

theorem parent?_below (hfirst : '/' ∉ first) (hrest : ∀ n ∈ rest, '/' ∉ n) (hn : IsStep n) :
    parent? (below first (rest ++ [n])) = some (base first rest) := by
  rw [parent?, pieces_below hfirst (forall_mem_concat hrest hn.slash_notMem), List.reverse_append,
    List.reverse_singleton, List.singleton_append]
  simp only [List.dropWhile_cons_of_neg (Bool.eq_false_iff.mp hn.isIdle)]
  rw [base, List.rdropWhile, List.reverse_reverse]

/-- All paths but the root and the empty one have something in front of their last piece. -/
theorem isSome_parent? (hfirst : '/' ∉ first) (hrest : ∀ n ∈ rest, '/' ∉ n)
    (hnot : ¬IsTop first rest) :
    (parent? (below first rest)).isSome = true := by
  rw [parent?, pieces_below hfirst hrest]
  dsimp only
  split
  · rfl
  · next hidle =>
    have hne : first ≠ [] := fun h => hnot ⟨h, by rw [List.rdropWhile, hidle]; rfl⟩
    simp [hne]

theorem selfAndParents_below (hfirst : '/' ∉ first) (hrest : ∀ n ∈ rest, '/' ∉ n)
    (hnot : ¬IsTop first rest) :
    selfAndParents (below first rest) = below first rest :: parentsOf first rest.reverse := by
  have hsome := isSome_parent? hfirst hrest hnot
  rw [selfAndParents, pieces_below hfirst hrest]
  dsimp only
  rw [← Option.not_isSome, hsome]
  rfl

theorem selfAndParents_cases (p : Path) :
    p.selfAndParents = [] ∨ ∃ around, p.selfAndParents = p :: around := by
  rw [selfAndParents]
  dsimp only
  split
  · exact .inl rfl
  · exact .inr ⟨_, rfl⟩

/-- Idle pieces add nothing to the directories around a path. -/
theorem parentsOf_dropWhile (first : Name) (others : List Name) :
    parentsOf first (others.dropWhile isIdle) = parentsOf first others := by
  induction others with
  | nil => rfl
  | cons n others ih =>
    cases hn : isIdle n with
    | true => rw [List.dropWhile_cons_of_pos hn, ih, parentsOf, if_pos hn]
    | false => rw [List.dropWhile_cons_of_neg (Bool.eq_false_iff.mp hn)]

/-- The directories around an entry of a path are those from the path up. -/
theorem parentsOf_cons (hfirst : '/' ∉ first) (hrest : ∀ n ∈ rest, '/' ∉ n) (hn : IsStep n) :
    parentsOf first (n :: rest.reverse) = selfAndParents (base first rest) := by
  have hreverse : (rest.rdropWhile isIdle).reverse = rest.reverse.dropWhile isIdle := by
    rw [List.rdropWhile, List.reverse_reverse]
  rw [parentsOf, hn.isIdle, if_neg Bool.false_ne_true, ← parentsOf_dropWhile first rest.reverse,
    ← hreverse]
  rcases base_cases first rest with ⟨⟨rfl, hidle⟩, hbase⟩ | ⟨hnot, hbase⟩
  · rw [hbase, hidle]
    rfl
  · have hnot' : ¬IsTop first (rest.rdropWhile isIdle) := by rwa [IsTop, List.rdropWhile_idempotent]
    rw [hbase, selfAndParents_below hfirst (slash_notMem_rdropWhile hrest) hnot']
    cases hidle : (rest.rdropWhile isIdle).reverse with
    | nil =>
      rw [List.reverse_eq_nil_iff] at hidle
      have hne : first ≠ [] := fun h => hnot ⟨h, hidle⟩
      simp [hidle, hne]
    | cons m others =>
      have hpieces : base first rest = ofPieces first (m :: others) := by rw [base, hidle]
      rw [← hbase, hpieces]
      rfl

/-- The directories around a place below a path, up to the path, and those from there on. -/
theorem selfAndParents_base_append (hfirst : '/' ∉ first) (hrest : ∀ n ∈ rest, '/' ∉ n)
    (hns : ∀ m ∈ ns, IsStep m) :
    selfAndParents (base first (rest ++ ns.reverse)) =
      upwards first rest ns ++ selfAndParents (base first rest) := by
  induction ns with
  | nil => simp [upwards]
  | cons m ns ih =>
    rw [List.forall_mem_cons] at hns
    have hslash : ∀ n ∈ rest ++ ns.reverse, '/' ∉ n :=
      slash_notMem_append hrest fun m hm => hns.2 m (List.mem_reverse.mp hm)
    have hnot : ¬IsTop first (rest ++ ns.reverse ++ [m]) := by
      rw [IsTop, List.rdropWhile_concat_neg _ _ _ (Bool.eq_false_iff.mp hns.1.isIdle)]
      simp
    rw [upwards, List.reverse_cons, ← List.append_assoc, base_concat hns.1,
      selfAndParents_below hfirst (forall_mem_concat hslash hns.1.slash_notMem) hnot,
      List.reverse_append, List.reverse_singleton, List.singleton_append,
      parentsOf_cons hfirst hslash hns.1, ih hns.2]
    rfl

/-! ### Steps along a path -/

theorem steps_eq_of_pieces (hfirst : '/' ∉ first) (hrest : ∀ n ∈ rest, '/' ∉ n) :
    steps (below first rest) = (first :: rest).filter (!·.isEmpty) := by
  rw [steps, splitAtEach_below hrest, splitAtEach_of_notMem hfirst]
  rfl

theorem steps_base (hfirst : '/' ∉ first) (hrest : ∀ n ∈ rest, '/' ∉ n) :
    steps (base first rest) = (first :: rest.rdropWhile isIdle).filter (!·.isEmpty) := by
  rcases base_cases first rest with ⟨⟨rfl, hidle⟩, hbase⟩ | ⟨-, hbase⟩
  · rw [hbase, hidle]
    rfl
  · rw [hbase, steps_eq_of_pieces hfirst (slash_notMem_rdropWhile hrest)]

/-- The idle pieces at the end of a path stay where they are. -/
theorem exists_steps_eq (hfirst : '/' ∉ first) (hrest : ∀ n ∈ rest, '/' ∉ n) :
    ∃ k, steps (below first rest) = steps (base first rest) ++ List.replicate k here := by
  have hidle : ∀ n ∈ (rest.rtakeWhile isIdle).filter (!·.isEmpty), n = here := by
    intro n hn
    obtain ⟨hmem, hne⟩ := List.mem_filter.mp hn
    have := List.mem_rtakeWhile_imp hmem
    rw [isIdle, Bool.or_eq_true, decide_eq_true_eq] at this
    exact this.resolve_left (by simpa using hne)
  refine ⟨((rest.rtakeWhile isIdle).filter (!·.isEmpty)).length, ?_⟩
  rw [← List.eq_replicate_of_mem hidle, steps_eq_of_pieces hfirst hrest, steps_base hfirst hrest,
    ← List.filter_append, List.cons_append, List.rdropWhile_append_rtakeWhile]

theorem steps_trunk (p : Path) : steps (trunk p) = steps p := by
  rcases eq_trunk_append p with h | h
  · rw [← h]
  · conv_rhs => rw [h, steps, splitAtEach_append]
    simp [steps, splitAtEach]

/-- A path without steps ends with a slash, since it has nothing but slashes. -/
theorem getLast?_of_steps_eq_nil (hp : p ≠ []) (h : steps p = []) : p.getLast? = some '/' := by
  obtain ⟨first, rest, hfirst, hrest, rfl⟩ := exists_eq_below p
  rw [steps_eq_of_pieces hfirst hrest, List.filter_eq_nil_iff, List.forall_mem_cons] at h
  obtain rfl : first = [] := by simpa using h.1
  rcases List.eq_nil_or_concat' rest with rfl | ⟨rest, n, rfl⟩
  · exact absurd rfl hp
  · obtain rfl : n = [] := by simpa using h.2 n (by simp)
    rw [below_concat, List.getLast?_concat]

end WikiPress.Path
