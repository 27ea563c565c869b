import WikiPress.Proofs.Files.Tree

/-!
# Operations on trees of files

A path leads along its steps from the root to a place, and still does when more is put into the
tree.  The operations on a path below a directory are described here by what is at the places on the
way.

## Main definitions

* `FileTree.Leads` : a path leads to a place.
* `FileTree.Reaches` : the steps of a text do, which may be empty if names stand behind it.

## Main results

* `FileTree.Keeps.follow`, `FileTree.Keeps.read` : paths and files in a tree that grows.
* `FileTree.IsProper.makeDirectory`, `FileTree.IsProper.write` : proper trees stay proper.
* `FileTree.Reaches.makeDirectory_below`, `FileTree.Reaches.write_below`,
  `FileTree.Reaches.read_below` : the operations on a path below another one.
-/

namespace WikiPress.FileTree

open Text

variable {t u : FileTree} {entries : List (Name × FileTree)} {n : Name}
  {place other names : Place} {p q : Path} {bytes : ByteArray}

/-! ### Steps -/

theorem follow_append (t : FileTree) (place steps more : List Name) :
    t.follow place (steps ++ more) = (t.follow place steps).bind fun q => t.follow q more := by
  induction steps generalizing place with
  | nil => rfl
  | cons step steps ih =>
    simp only [List.cons_append, follow]
    split
    · rfl
    · rfl
    · split
      · exact ih _
      · split
        · exact ih _
        · split
          · rfl
          · exact ih _

theorem follow_append_eq_ok {steps more : List Name} :
    t.follow place (steps ++ more) = .ok other ↔
      ∃ q, t.follow place steps = .ok q ∧ t.follow q more = .ok other := by
  rw [follow_append]
  cases t.follow place steps <;> simp [Except.bind]

theorem item?_of_follow_cons (h : t.follow place (n :: names) = .ok other) :
    t.item? place = some empty := by
  rw [follow] at h
  split at h
  · exact absurd h (by simp)
  · exact absurd h (by simp)
  · next entries hat => exact item?_eq_empty_iff.mpr ⟨entries, hat⟩

theorem follow_cons_of_missing (h : t.item? place = none) :
    t.follow place (n :: names) = .error .notFound := by
  rw [follow, Option.map_eq_none_iff.mp h]

/-- The place that one step leads to from a directory. -/
def stepTo (place : Place) (step : Name) : Except FileError Place :=
  if step = Path.here then .ok place
  else if step = Path.above then .ok place.dropLast
  else if longestName < size step then .error .nameTooLong
  else .ok (place ++ [step])

theorem follow_cons (h : t.item? place = some empty) :
    t.follow place (n :: names) = (stepTo place n).bind fun q => t.follow q names := by
  obtain ⟨entries, hat⟩ := item?_eq_empty_iff.mp h
  rw [follow, hat, stepTo]
  dsimp only
  split
  · rfl
  · split
    · rfl
    · split <;> rfl

theorem stepTo_eq_ok (h : stepTo place n = .ok other) :
    size n ≤ longestName ∧ (isDots n = false → other = place ++ [n]) := by
  rw [stepTo] at h
  split at h
  · next hn => exact ⟨by rw [hn]; decide, by simp [isDots, hn]⟩
  · split at h
    · next hn => exact ⟨by rw [hn]; decide, by simp [isDots, hn]⟩
    · split at h
      · exact absurd h (by simp)
      · next hsize => exact ⟨Nat.not_lt.mp hsize, fun _ => (Except.ok.inj h).symm⟩

theorem follow_cons_here (h : t.item? place = some empty) :
    t.follow place (Path.here :: names) = t.follow place names := by
  rw [follow_cons h, stepTo, if_pos rfl]
  rfl

theorem follow_here (h : t.item? place = some empty) :
    t.follow place [Path.here] = .ok place := by
  rw [follow_cons_here h]
  rfl

theorem follow_concat_here {steps : List Name} :
    t.follow place (steps ++ [Path.here]) = .ok other ↔
      t.follow place steps = .ok other ∧ t.item? other = some empty := by
  rw [follow_append_eq_ok]
  constructor
  · rintro ⟨q, hq, hhere⟩
    have hdir := item?_of_follow_cons hhere
    obtain rfl : q = other := Except.ok.inj ((follow_here hdir).symm.trans hhere)
    exact ⟨hq, hdir⟩
  · rintro ⟨hq, hdir⟩
    exact ⟨other, hq, follow_here hdir⟩

theorem follow_cons_name (h : t.item? place = some empty) (hn : IsName n) :
    t.follow place (n :: names) = t.follow (place ++ [n]) names := by
  rw [follow_cons h, stepTo, if_neg hn.ne_here, if_neg hn.ne_above,
    if_neg (Nat.not_lt.mpr hn.size_le)]
  rfl

/-- Steps lead to the same place in a tree that has grown. -/
theorem Keeps.follow (h : Keeps t u) {steps : List Name}
    (hfollow : t.follow place steps = .ok other) :
    u.follow place steps = .ok other := by
  induction steps generalizing place with
  | nil => exact hfollow
  | cons step steps ih =>
    have hitem := item?_of_follow_cons hfollow
    rw [follow_cons hitem] at hfollow
    rw [follow_cons (h _ _ hitem)]
    cases hstep : stepTo place step with
    | error e => exact absurd hfollow (by simp [hstep, Except.bind])
    | ok q =>
      rw [hstep] at hfollow
      exact ih hfollow

/-- Names lead on to what they name. -/
theorem follow_names (hnames : ∀ n ∈ names, IsName n) {item : FileTree}
    (h : t.item? (place ++ names) = some item) : t.follow place names = .ok (place ++ names) := by
  induction names generalizing place with
  | nil => simp [follow]
  | cons n names ih =>
    rw [List.forall_mem_cons] at hnames
    rw [follow_cons_name (item?_eq_empty_of_append h) hnames.1]
    have hnext : t.follow (place ++ [n]) names = .ok (place ++ [n] ++ names) :=
      ih hnames.2 (by simpa using h)
    simpa using hnext

/-- Names lead nowhere behind a directory that is missing. -/
theorem follow_names_of_missing (hnames : ∀ n ∈ names, IsName n)
    (hfree : ∀ start, start <+: names → ∀ bytes, t.item? (place ++ start) ≠ some (.file bytes))
    (h : t.item? (place ++ names) = none) :
    t.follow place (names ++ [Path.here]) = .error .notFound := by
  induction names generalizing place with
  | nil => exact follow_cons_of_missing (by simpa using h)
  | cons n names ih =>
    rw [List.forall_mem_cons] at hnames
    rcases item?_cases t place with hitem | hitem | ⟨bytes, hitem⟩
    · exact follow_cons_of_missing hitem
    · rw [List.cons_append, follow_cons_name hitem hnames.1]
      refine ih hnames.2 (fun start hstart bytes => ?_) (by simpa using h)
      simpa using hfree (n :: start) (List.cons_prefix_cons.mpr ⟨rfl, hstart⟩) bytes
    · have := hfree [] List.nil_prefix bytes
      rw [List.append_nil] at this
      exact absurd hitem this

/-! ### Paths -/

theorem stepsOf_eq_ok {steps : List Name} (h : stepsOf p = .ok steps) :
    steps = p.steps ∧ '\x00' ∉ p ∧ p ≠ [] := by
  rw [stepsOf] at h
  split at h
  · exact absurd h (by simp)
  · split at h
    · exact absurd h (by simp)
    · next hzero hne =>
      exact ⟨(Except.ok.inj h).symm, by simpa using hzero, by simpa using hne⟩

theorem stepsOf_of (hzero : '\x00' ∉ p) (hp : p ≠ []) : stepsOf p = .ok p.steps := by
  simp [stepsOf, hzero, hp]

/-- A path leads to a place. -/
structure Leads (t : FileTree) (p : Path) (place : Place) : Prop where
  steps : stepsOf p = .ok p.steps
  follow : t.follow [] p.steps = .ok place

/-- The steps of a text lead to a place.  The empty text, which is no path, reaches the root, and
the names that stand behind it lead on from there. -/
structure Reaches (t : FileTree) (p : Path) (place : Place) : Prop where
  zero_notMem : '\x00' ∉ p
  follow : t.follow [] p.steps = .ok place

theorem leads_iff : Leads t p place ↔ p ≠ [] ∧ Reaches t p place := by
  constructor
  · intro h
    obtain ⟨-, hzero, hne⟩ := stepsOf_eq_ok h.steps
    exact ⟨hne, hzero, h.follow⟩
  · rintro ⟨hne, h⟩
    exact ⟨stepsOf_of h.zero_notMem hne, h.follow⟩

theorem Leads.reaches (h : Leads t p place) : Reaches t p place := (leads_iff.mp h).2

theorem Leads.keeps (h : Leads t p place) (hkeeps : Keeps t u) : Leads u p place :=
  ⟨h.steps, hkeeps.follow h.follow⟩

theorem Reaches.keeps (h : Reaches t p place) (hkeeps : Keeps t u) : Reaches u p place :=
  ⟨h.zero_notMem, hkeeps.follow h.follow⟩

theorem exists_leads_of_find (h : t.find p = .ok u) :
    ∃ place, Leads t p place ∧ t.at? place = some u ∧
      (endsWithSlash p = false ∨ t.item? place = some empty) := by
  cases hsteps : stepsOf p with
  | error e => exact absurd h (by simp [find, hsteps, bind, Except.bind])
  | ok steps =>
    obtain ⟨rfl, -⟩ := stepsOf_eq_ok hsteps
    simp only [find, hsteps, bind, Except.bind] at h
    split at h
    · exact absurd h (by simp)
    · next place hfollow =>
      split at h
      · next w hat =>
        rw [← Except.ok.inj h]
        split at hfollow
        · obtain ⟨hstart, hdir⟩ := follow_concat_here.mp hfollow
          exact ⟨place, ⟨hsteps, hstart⟩, hat, .inr hdir⟩
        · next hslash => exact ⟨place, ⟨hsteps, hfollow⟩, hat, .inl (by simpa using hslash)⟩
      · exact absurd h (by simp)

theorem Leads.find (h : Leads t p place) (hat : t.at? place = some u)
    (hslash : endsWithSlash p = false ∨ t.item? place = some empty) : t.find p = .ok u := by
  have hfollow : t.follow [] (if endsWithSlash p then p.steps ++ [Path.here] else p.steps) =
      .ok place := by
    split
    · next hends =>
      exact follow_concat_here.mpr ⟨h.follow, hslash.resolve_left (by simp [hends])⟩
    · exact h.follow
  simp only [FileTree.find, h.steps, bind, Except.bind, hfollow, hat]

theorem findParent_eq {start : List Name} (hsteps : stepsOf p = .ok (start ++ [n]))
    (hn : size n ≤ longestName) :
    t.findParent p = (t.follow [] (start ++ [Path.here])).map fun q => (q, n) := by
  simp only [findParent, hsteps, bind, Except.bind, List.dropLast_concat, List.getLast?_concat,
    Option.getD_some, Nat.not_lt.mpr hn, if_false]
  cases t.follow [] (start ++ [Path.here]) <;> rfl

/-- A new entry is made in a directory, under a name that it may have unless it is one of the
dots. -/
theorem item?_of_findParent (h : t.findParent p = .ok (place, n)) :
    t.item? place = some empty ∧ (isDots n = false → IsName n) := by
  cases hsteps : stepsOf p with
  | error e => exact absurd h (by simp [findParent, hsteps, bind, Except.bind])
  | ok steps =>
    obtain ⟨rfl, hzero, -⟩ := stepsOf_eq_ok hsteps
    simp only [findParent, hsteps, bind, Except.bind] at h
    split at h
    · exact absurd h (by simp)
    · next place' hfollow =>
      split at h
      · exact absurd h (by simp)
      · next hsize =>
        obtain ⟨rfl, rfl⟩ := Prod.mk.inj (Except.ok.inj h)
        refine ⟨(follow_concat_here.mp hfollow).2, ?_⟩
        intro hdots
        simp only [isDots, Bool.or_eq_false_iff, decide_eq_false_iff_not] at hdots
        cases hlast : p.steps.getLast? with
        | none => exact absurd rfl (hlast ▸ hdots.1)
        | some n =>
          rw [hlast, Option.getD_some] at hdots hsize
          rw [Option.getD_some]
          obtain ⟨hmem, hne⟩ := List.mem_filter.mp (List.mem_of_getLast? hlast)
          exact ⟨⟨by simpa using hne, notMem_of_mem_splitAtEach hmem, hdots.1, hdots.2⟩,
            fun hc => hzero (mem_of_mem_splitAtEach hmem hc), Nat.not_lt.mp hsize⟩

/-- The steps of a path to a new entry: those to its directory, and the name of the entry. -/
theorem exists_steps_of_findParent (h : t.findParent p = .ok (place, n))
    (hdots : isDots n = false) :
    ∃ start, stepsOf p = .ok (start ++ [n]) ∧ t.follow [] start = .ok place := by
  cases hsteps : stepsOf p with
  | error e => exact absurd h (by simp [findParent, hsteps, bind, Except.bind])
  | ok steps =>
    simp only [findParent, hsteps, bind, Except.bind] at h
    split at h
    · exact absurd h (by simp)
    · next start hfollow =>
      split at h
      · exact absurd h (by simp)
      · obtain ⟨rfl, rfl⟩ := Prod.mk.inj (Except.ok.inj h)
        rcases List.eq_nil_or_concat' steps with rfl | ⟨start, last, rfl⟩
        · exact absurd hdots (by decide)
        · rw [List.dropLast_concat] at hfollow
          exact ⟨start, by simp, (follow_concat_here.mp hfollow).1⟩

theorem IsProper.isName_of_findParent (ht : IsProper t) (h : t.findParent p = .ok (place, n))
    (hdots : isDots n = false) : ∀ m ∈ place ++ [n], IsName m := by
  obtain ⟨hdir, hn⟩ := item?_of_findParent h
  obtain ⟨entries, hat⟩ := item?_eq_empty_iff.mp hdir
  exact Path.forall_mem_concat (ht.at? hat).2 (hn hdots)

/-- A directory is made under a name in a directory, where nothing was. -/
theorem exists_of_makeDirectory (h : t.makeDirectory p = .ok u) :
    ∃ place n, t.findParent p = .ok (place, n) ∧ isDots n = false ∧
      t.item? (place ++ [n]) = none ∧ u = put empty t (place ++ [n]) := by
  cases hfind : t.findParent p with
  | error e => exact absurd h (by simp [makeDirectory, hfind, bind, Except.bind])
  | ok parent =>
    obtain ⟨place, n⟩ := parent
    simp only [makeDirectory, hfind, bind, Except.bind] at h
    split at h
    · exact absurd h (by simp)
    · next hnot =>
      simp only [Bool.or_eq_true, not_or, Bool.not_eq_true, Option.isSome_eq_false_iff,
        Option.isNone_iff_eq_none] at hnot
      exact ⟨place, n, rfl, hnot.1, by rw [item?, hnot.2, Option.map_none],
        (Except.ok.inj h).symm⟩

/-- Directories are made with proper names only. -/
theorem IsProper.makeDirectory (ht : IsProper t) (h : t.makeDirectory p = .ok u) : IsProper u := by
  obtain ⟨place, n, hfind, hdots, -, rfl⟩ := exists_of_makeDirectory h
  exact ht.put isProper_empty (ht.isName_of_findParent hfind hdots)

/-- Files are written with proper names only. -/
theorem IsProper.write (ht : IsProper t) (h : t.write p bytes = .ok u) : IsProper u := by
  cases hfind : t.findParent p with
  | error e => exact absurd h (by simp [FileTree.write, hfind, bind, Except.bind])
  | ok parent =>
    obtain ⟨place, n⟩ := parent
    simp only [FileTree.write, hfind, bind, Except.bind] at h
    split at h
    · exact absurd h (by simp)
    · next hnot =>
      simp only [Bool.or_eq_true, not_or, Bool.not_eq_true] at hnot
      split at h
      · exact absurd h (by simp)
      · rw [← Except.ok.inj h]
        exact ht.put (.file bytes) (ht.isName_of_findParent hfind hnot.1)

theorem size_le_of_follow (h : t.follow place [n] = .ok other) :
    size n ≤ longestName ∧ (isDots n = false → other = place ++ [n]) := by
  rw [follow_cons (item?_of_follow_cons h)] at h
  cases hstep : stepTo place n with
  | error e => exact absurd h (by simp [hstep, Except.bind])
  | ok q =>
    rw [hstep] at h
    obtain rfl : q = other := Except.ok.inj h
    exact stepTo_eq_ok hstep

/-- A path that leads somewhere has steps, or leads to the root, which is a directory. -/
theorem Leads.steps_ne_nil (h : Leads t p place)
    (hslash : endsWithSlash p = false ∨ t.item? place = some empty) :
    (p.steps = [] ∧ t.item? [] = some empty) ∨ ∃ start last, p.steps = start ++ [last] := by
  rcases List.eq_nil_or_concat' p.steps with hnil | hsteps
  · left
    have hends : endsWithSlash p = true := by
      rw [endsWithSlash, Path.getLast?_of_steps_eq_nil (leads_iff.mp h).1 hnil]
      rfl
    have hfollow := h.follow
    rw [hnil] at hfollow
    obtain rfl : [] = place := Except.ok.inj hfollow
    exact ⟨hnil, hslash.resolve_left (by simp [hends])⟩
  · exact .inr hsteps

/-- No directory is made where something is. -/
theorem makeDirectory_of_find (h : t.find p = .ok u) :
    t.makeDirectory p = .error .alreadyExists := by
  obtain ⟨place, hleads, hat, hslash⟩ := exists_leads_of_find h
  rcases hleads.steps_ne_nil hslash with ⟨hnil, hroot⟩ | ⟨start, last, hsteps⟩
  · -- There is no other name for the root than the dot.
    have hfind : t.findParent p = .ok ([], Path.here) := by
      simp only [findParent, hleads.steps, hnil, bind, Except.bind, List.dropLast_nil,
        List.nil_append, follow_here hroot]
      rfl
    rw [makeDirectory, hfind]
    rfl
  · have hfollow := hleads.follow
    rw [hsteps] at hfollow
    obtain ⟨q, hstart, hlast⟩ := follow_append_eq_ok.mp hfollow
    obtain ⟨hsize, hplace⟩ := size_le_of_follow hlast
    have hfind : t.findParent p = .ok (q, last) := by
      rw [findParent_eq (hsteps ▸ hleads.steps) hsize,
        follow_concat_here.mpr ⟨hstart, item?_of_follow_cons hlast⟩]
      rfl
    rw [makeDirectory, hfind]
    cases hdots : isDots last with
    | true => simp [bind, Except.bind, hdots]
    | false => simp [bind, Except.bind, hdots, ← hplace hdots, hat]

theorem eq_of_follow_replicate {k : Nat}
    (h : t.follow place (List.replicate k Path.here) = .ok other) : place = other := by
  induction k with
  | zero => exact Except.ok.inj h
  | succ k ih =>
    rw [List.replicate_succ] at h
    rw [follow_cons_here (item?_of_follow_cons h)] at h
    exact ih h

/-- Idle steps at the end of a path may be left out. -/
theorem Reaches.of_steps {k : Nat} (h : Reaches t p place) (hsub : q ⊆ '/' :: p)
    (hsteps : p.steps = q.steps ++ List.replicate k Path.here) : Reaches t q place := by
  refine ⟨fun hmem => ?_, ?_⟩
  · exact (List.mem_cons.mp (hsub hmem)).elim (by decide) h.zero_notMem
  · have hfollow := h.follow
    rw [hsteps] at hfollow
    obtain ⟨place', hstart, hidle⟩ := follow_append_eq_ok.mp hfollow
    rwa [← eq_of_follow_replicate hidle]

/-- A slash at the end of a path may be left out in front of names. -/
theorem Reaches.trunk (h : Reaches t p place) : Reaches t p.trunk place := by
  refine h.of_steps (k := 0) (fun c hc => List.mem_cons_of_mem _ ?_) (by simp [Path.steps_trunk])
  rcases Path.eq_trunk_append p with heq | heq
  · rwa [heq]
  · rw [heq]
    exact List.mem_append_left _ hc

/-- So may idle pieces. -/
theorem Reaches.base {first : Name} {rest : List Name} (hfirst : '/' ∉ first)
    (hrest : ∀ n ∈ rest, '/' ∉ n) (h : Reaches t (Path.below first rest) place) :
    Leads t (Path.base first rest) place := by
  obtain ⟨k, hk⟩ := Path.exists_steps_eq hfirst hrest
  exact leads_iff.mpr ⟨Path.base_ne_nil first rest, h.of_steps (Path.base_subset first rest) hk⟩

section Below

variable (hreaches : Reaches t p place) (hnames : ∀ n ∈ names, IsName n) (hn : IsName n)
include hreaches hnames

theorem Reaches.stepsOf_below (hne : names ≠ []) :
    stepsOf (p.below names) = .ok (p.steps ++ names) := by
  rw [stepsOf_of, Path.steps_below fun n hn => (hnames n hn).toIsStep]
  · simp only [Path.below, List.mem_append, List.mem_flatMap, not_or, hreaches.zero_notMem,
      not_false_eq_true, true_and, not_exists, not_and]
    intro n hn hmem
    exact (List.mem_cons.mp hmem).elim (by decide) (hnames n hn).zero_notMem
  · obtain ⟨n, ns, rfl⟩ := List.exists_cons_of_ne_nil hne
    simp [Path.below_cons]

/-- Names below a path lead on from where the path leads. -/
theorem Reaches.below (hne : names ≠ []) {item : FileTree}
    (h : t.item? (place ++ names) = some item) : Leads t (p.below names) (place ++ names) := by
  have hsteps := hreaches.stepsOf_below hnames hne
  have hbelow := (stepsOf_eq_ok hsteps).1
  refine ⟨by rw [hsteps, hbelow], ?_⟩
  rw [← hbelow]
  exact follow_append_eq_ok.mpr ⟨place, hreaches.follow, follow_names hnames h⟩

/-- Where names below a path lead if they lead to a directory. -/
theorem Reaches.follow_below (h : t.item? (place ++ names) = some empty) :
    t.follow [] (p.steps ++ names ++ [Path.here]) = .ok (place ++ names) :=
  follow_concat_here.mpr
    ⟨follow_append_eq_ok.mpr ⟨place, hreaches.follow, follow_names hnames h⟩, h⟩

include hn

theorem Reaches.stepsOf_below_concat :
    stepsOf (p.below (names ++ [n])) = .ok (p.steps ++ names ++ [n]) := by
  rw [hreaches.stepsOf_below (Path.forall_mem_concat hnames hn) (by simp), List.append_assoc]

theorem Reaches.findParent_below (h : t.item? (place ++ names) = some empty) :
    t.findParent (p.below (names ++ [n])) = .ok (place ++ names, n) := by
  rw [findParent_eq (hreaches.stepsOf_below_concat hnames hn) hn.size_le,
    hreaches.follow_below hnames h]
  rfl

/-- A directory is made below another one if nothing is there. -/
theorem Reaches.makeDirectory_below (h : t.item? (place ++ names) = some empty) :
    t.makeDirectory (p.below (names ++ [n])) =
      if (t.item? (place ++ names ++ [n])).isSome then .error .alreadyExists
      else .ok (put empty t (place ++ names ++ [n])) := by
  have hdots : isDots n = false := by simp [isDots, hn.ne_here, hn.ne_above]
  rw [makeDirectory, hreaches.findParent_below hnames hn h, item?, Option.isSome_map]
  simp only [bind, Except.bind, hdots, Bool.false_or]

/-- No directory is made below a directory that is missing. -/
theorem Reaches.makeDirectory_below_of_missing
    (hfree : ∀ start, start <+: names → ∀ bytes, t.item? (place ++ start) ≠ some (.file bytes))
    (h : t.item? (place ++ names) = none) :
    t.makeDirectory (p.below (names ++ [n])) = .error .notFound := by
  have hfind : t.findParent (p.below (names ++ [n])) = .error .notFound := by
    rw [findParent_eq (hreaches.stepsOf_below_concat hnames hn) hn.size_le, List.append_assoc,
      follow_append, hreaches.follow]
    show (t.follow place (names ++ [Path.here])).map _ = _
    rw [follow_names_of_missing hnames hfree h]
    rfl
  rw [makeDirectory, hfind]
  rfl

/-- A file is written below a directory if no directory is there. -/
theorem Reaches.write_below (h : t.item? (place ++ names) = some empty)
    (hnot : t.item? (place ++ names ++ [n]) ≠ some empty) :
    t.write (p.below (names ++ [n])) bytes =
      .ok (put (.file bytes) t (place ++ names ++ [n])) := by
  have hdots : isDots n = false := by simp [isDots, hn.ne_here, hn.ne_above]
  have hslash : endsWithSlash (p.below (names ++ [n])) = false := by
    simpa [endsWithSlash] using Path.getLast?_below_concat hn.toIsStep p names
  rw [write, hreaches.findParent_below hnames hn h]
  simp only [bind, Except.bind, hdots, hslash, Bool.or_self, Bool.false_eq_true, if_false]
  split
  · next entries hat => exact absurd (item?_eq_empty_iff.mpr ⟨entries, hat⟩) hnot
  · rfl

theorem Reaches.read_below
    (h : t.item? (place ++ (names ++ [n])) = some (.file bytes)) :
    t.read (p.below (names ++ [n])) = .ok bytes := by
  have hslash : endsWithSlash (p.below (names ++ [n])) = false := by
    simpa [endsWithSlash] using Path.getLast?_below_concat hn.toIsStep p names
  have hleads := hreaches.below (Path.forall_mem_concat hnames hn) (by simp) h
  rw [read, hleads.find (item?_eq_file_iff.mp h) (.inl hslash)]

end Below

/-- A file keeps its bytes while all that is in the tree is kept. -/
theorem Keeps.read (h : Keeps t u) (hread : t.read p = .ok bytes) : u.read p = .ok bytes := by
  rw [FileTree.read] at hread
  split at hread
  · next bytes' hfind =>
    obtain rfl : bytes' = bytes := Except.ok.inj hread
    obtain ⟨place, hleads, hat, hslash⟩ := exists_leads_of_find hfind
    have hat' : u.at? place = some (.file bytes') :=
      item?_eq_file_iff.mp (h _ _ (item?_eq_file_iff.mpr hat))
    rw [FileTree.read, (hleads.keeps h).find hat' (hslash.imp_right fun hdir => h _ _ hdir)]
  · exact absurd hread (by simp)
  · exact absurd hread (by simp)

theorem update_of_ok {f : FileTree → Except FileError FileTree} (h : f t = .ok u) :
    update f t = (.ok (), u) := by
  rw [update, h]

theorem update_of_error {f : FileTree → Except FileError FileTree} {e : FileError}
    (h : f t = .error e) : update f t = (.error e, t) := by
  rw [update, h]

end WikiPress.FileTree
