import WikiPress.Proofs.Command.Script

/-!
# Pages that are written at the same time

Jobs that write pages below one empty directory do not get in each other's way if no page is where
another one needs a directory.  Each of them finds either nothing or what it would have made itself,
and so each succeeds, and together they leave one tree.

## Main definitions

* `Page` : a page to be written below a directory.
* `Plan`, `Plan.IsSound` : pages that are to be written below an empty directory, and do not get in
  each other's way.
* `Plan.Has`, `Plan.Holds` : what a plan puts into a tree, and the trees on the way.

## Main results

* `Plan.IsSound.eq_of_item?`, `Plan.IsSound.put` : where something is planned, there is nothing
  else, and it may be put there.
* `Plan.Holds.eq` : there is only one tree in which all pages are written.
* `Plan.IsSound.safe_makeEach`, `Plan.IsSound.safe_renderFile` : a job makes the directories that it
  needs and writes its page, whatever other jobs do.
-/

namespace WikiPress

open FileTree

/-- A page that is to be written below a directory. -/
structure Page where
  /-- The names that lead to the directory of the page. -/
  directory : List Name
  name : Name
  bytes : ByteArray
  deriving Inhabited

/-- The names that lead to a page. -/
def Page.names (page : Page) : List Name := page.directory ++ [page.name]

/-- Pages that are to be written below a place in a tree. -/
structure Plan where
  start : FileTree
  base : FileTree.Place
  pages : List Page

namespace Plan

/-- Nothing is at the place below which the pages are written, and no page is where another one
needs a directory. -/
structure IsSound (plan : Plan) : Prop where
  proper : plan.start.IsProper
  atBase : plan.start.at? plan.base = some (.directory [])
  names : ∀ page ∈ plan.pages, ∀ n ∈ page.names, IsName n
  apart : ∀ page ∈ plan.pages, ∀ other ∈ plan.pages, ¬page.names <+: other.directory
  distinct : ∀ page ∈ plan.pages, ∀ other ∈ plan.pages, page.names = other.names → page = other

/-- What is at a place when all pages are written. -/
inductive Has (plan : Plan) : FileTree.Place → FileTree → Prop where
  | page {page : Page} (h : page ∈ plan.pages) :
    Has plan (plan.base ++ page.names) (.file page.bytes)
  | directory {page : Page} {names : List Name} (h : page ∈ plan.pages)
    (hnames : names <+: page.directory) : Has plan (plan.base ++ names) empty

/-- A tree on the way: nothing of the start is missing, and all else is planned. -/
structure Holds (plan : Plan) (t : FileTree) : Prop where
  proper : t.IsProper
  keeps : Keeps plan.start t
  planned : ∀ place item, t.item? place = some item →
    plan.start.item? place = some item ∨ plan.Has place item

variable {plan : Plan} {page other : Page} {t u : FileTree} {names : List Name} {n : Name}
  {place : FileTree.Place} {item : FileTree}

section

variable (hplan : plan.IsSound)
include hplan

theorem IsSound.holds : plan.Holds plan.start := ⟨hplan.proper, .refl _, fun _ _ h => .inl h⟩

theorem IsSound.item?_base : plan.start.item? plan.base = some empty :=
  item?_eq_empty_iff.mpr ⟨[], hplan.atBase⟩

theorem IsSound.item?_below (n : Name) (names : List Name) :
    plan.start.item? (plan.base ++ n :: names) = none := by
  rw [item?, at?_append, hplan.atBase]
  rfl

/-- At each place at most one thing is planned. -/
theorem IsSound.eq_of_has {item' : FileTree} (h : plan.Has place item)
    (h' : plan.Has place item') : item = item' := by
  generalize heq : place = place' at h'
  cases h with
  | page hpage =>
    cases h' with
    | page hother =>
      rw [hplan.distinct _ hpage _ hother (List.append_cancel_left heq)]
    | directory hother hnames =>
      exact absurd (List.append_cancel_left heq ▸ hnames) (hplan.apart _ hpage _ hother)
  | directory hpage hnames =>
    cases h' with
    | page hother =>
      exact absurd (List.append_cancel_left heq ▸ hnames) (hplan.apart _ hother _ hpage)
    | directory hother hnames' => rfl

/-- What is planned for a place is not at another one at the start. -/
theorem IsSound.eq_of_start {item' : FileTree} (h : plan.Has place item)
    (hitem : plan.start.item? place = some item') : item' = item := by
  cases h with
  | @page page hpage =>
    obtain ⟨n, ns, hnames⟩ : ∃ n ns, page.names = n :: ns :=
      List.exists_cons_of_ne_nil (by simp [Page.names])
    rw [hnames, hplan.item?_below] at hitem
    exact absurd hitem (by simp)
  | @directory page names hpage hnames =>
    cases names with
    | nil =>
      rw [List.append_nil, hplan.item?_base] at hitem
      exact (Option.some.inj hitem).symm
    | cons n ns =>
      rw [hplan.item?_below] at hitem
      exact absurd hitem (by simp)

/-- Where something is planned, there is nothing else. -/
theorem IsSound.eq_of_item? (ht : plan.Holds t) (h : plan.Has place item) {item' : FileTree}
    (hitem : t.item? place = some item') : item' = item := by
  rcases ht.planned place item' hitem with hstart | hhas
  · exact hplan.eq_of_start h hstart
  · exact hplan.eq_of_has hhas h

theorem IsSound.isName_of_has (h : plan.Has place item) : ∀ n ∈ place, IsName n := by
  have hbase := (hplan.proper.at? hplan.atBase).2
  intro n hn
  cases h with
  | page hpage =>
    exact (List.mem_append.mp hn).elim (hbase n) (hplan.names _ hpage n)
  | directory hpage hnames =>
    refine (List.mem_append.mp hn).elim (hbase n) fun hn => hplan.names _ hpage n ?_
    exact List.mem_append.mpr (.inl (hnames.subset hn))

/-- What is planned may be put where nothing is, or where it is already. -/
theorem IsSound.put (ht : plan.Holds t) (h : plan.Has (place ++ [n]) item)
    (hplace : t.item? place = some empty) (hnot : t.item? (place ++ [n]) ≠ some empty) :
    plan.Holds (put item t (place ++ [n])) ∧ Keeps t (put item t (place ++ [n])) ∧
      (put item t (place ++ [n])).item? (place ++ [n]) = some item := by
  have hitem : bare item = item ∧ IsProper item := by
    generalize place ++ [n] = whole at h
    cases h with
    | page hpage => exact ⟨rfl, .file _⟩
    | directory hpage hnames => exact ⟨rfl, isProper_empty⟩
  have hput := item?_put hplace hitem.1 hnot
  have hkeeps : Keeps t (FileTree.put item t (place ++ [n])) :=
    .of_item?_eq hput fun item' hq => hplan.eq_of_item? ht h hq
  refine ⟨⟨ht.proper.put hitem.2 (hplan.isName_of_has h), ht.keeps.trans hkeeps, ?_⟩, hkeeps, ?_⟩
  · intro q item' hq
    rw [hput] at hq
    split at hq
    · next heq =>
      subst heq
      exact .inr (Option.some.inj hq ▸ h)
    · exact ht.planned q item' hq
  · rw [hput, if_pos rfl]

end

theorem item?_of_has
    (hpages : ∀ page ∈ plan.pages, t.item? (plan.base ++ page.names) = some (.file page.bytes))
    (h : plan.Has place item) : t.item? place = some item := by
  cases h with
  | page hpage => exact hpages _ hpage
  | @directory page names hpage hnames =>
    obtain ⟨more, hmore⟩ := hnames
    have hfile := hpages _ hpage
    obtain ⟨m, ms, hms⟩ : ∃ m ms, more ++ [page.name] = m :: ms :=
      List.exists_cons_of_ne_nil (by simp)
    rw [Page.names, ← hmore, List.append_assoc, hms, ← List.append_assoc] at hfile
    exact item?_eq_empty_of_append hfile

/-- All trees in which everything is written are the same. -/
theorem Holds.eq (ht : plan.Holds t) (hu : plan.Holds u)
    (htpages : ∀ page ∈ plan.pages, t.item? (plan.base ++ page.names) = some (.file page.bytes))
    (hupages : ∀ page ∈ plan.pages, u.item? (plan.base ++ page.names) = some (.file page.bytes)) :
    t = u := by
  have hle {v w : FileTree} (hv : plan.Holds v) (hw : plan.Holds w)
      (hpages : ∀ page ∈ plan.pages, w.item? (plan.base ++ page.names) = some (.file page.bytes)) :
      Keeps v w := by
    intro q item hq
    rcases hv.planned q item hq with hstart | hhas
    · exact hw.keeps q item hstart
    · exact item?_of_has hpages hhas
  refine ht.proper.ext hu.proper fun q => ?_
  cases hq : t.item? q with
  | some item => exact (hle ht hu hupages q item hq).symm
  | none =>
    cases hq' : u.item? q with
    | none => rfl
    | some item => exact absurd (hq.symm.trans (hle hu ht htpages q item hq')) (by simp)

/-! ### Jobs -/

open Script

variable {first : Name} {rest : List Name} {p : Path}

section

variable (hplan : plan.IsSound)
include hplan

theorem IsSound.isName_of_prefix (hpage : page ∈ plan.pages) (h : names <+: page.directory) :
    ∀ m ∈ names, IsName m := fun m hm =>
  hplan.names page hpage m (List.mem_append.mpr (.inl (h.subset hm)))

/-- A directory on the way to a page is there or is made, if the directory around it is there. -/
theorem IsSound.makeDirectory_cases (hu : plan.Holds u) (hreaches : Reaches u p plan.base)
    (hpage : page ∈ plan.pages) (hnames : names ++ [n] <+: page.directory) :
    ∃ r v, (FileRequest.makeDirectory (p.below (names ++ [n]))).perform u = (r, v) ∧
      plan.Holds v ∧ Keeps u v ∧
      ((r = .ok () ∨ r = .error .alreadyExists) ∧
          v.item? (plan.base ++ (names ++ [n])) = some empty ∨
        r = .error .notFound ∧ u.item? (plan.base ++ names) ≠ some empty) := by
  have hname := hplan.isName_of_prefix hpage hnames
  have hn : IsName n := hname n (by simp)
  have hns : ∀ m ∈ names, IsName m := fun m hm => hname m (List.mem_append.mpr (.inl hm))
  have haround : names <+: page.directory := (List.prefix_append names [n]).trans hnames
  have hhas : plan.Has (plan.base ++ names ++ [n]) empty := by
    rw [List.append_assoc]
    exact .directory hpage hnames
  rw [← List.append_assoc]
  rcases item?_cases u (plan.base ++ names) with hitem | hitem | ⟨bytes, hitem⟩
  · have hfree : ∀ start, start <+: names → ∀ bytes,
        u.item? (plan.base ++ start) ≠ some (.file bytes) := fun start hstart bytes hfile =>
      absurd (hplan.eq_of_item? hu (.directory hpage (hstart.trans haround)) hfile)
        (by simp [empty])
    have hmake := hreaches.makeDirectory_below_of_missing hns hn hfree hitem
    exact ⟨_, _, update_of_error (f := (·.makeDirectory _)) hmake, hu, .refl u,
      .inr ⟨rfl, by simp [hitem]⟩⟩
  · have hmake := hreaches.makeDirectory_below hns hn hitem
    cases hthere : u.item? (plan.base ++ names ++ [n]) with
    | some item =>
      rw [hthere, Option.isSome_some, if_pos rfl] at hmake
      rw [hplan.eq_of_item? hu hhas hthere] at hthere
      exact ⟨_, _, update_of_error (f := (·.makeDirectory _)) hmake, hu, .refl u,
        .inl ⟨.inr rfl, hthere⟩⟩
    | none =>
      rw [hthere, Option.isSome_none, if_neg Bool.false_ne_true] at hmake
      obtain ⟨hput, hkeeps, hdir⟩ := hplan.put hu hhas hitem (by rw [hthere]; simp)
      exact ⟨_, _, update_of_ok (f := (·.makeDirectory _)) hmake, hput, hkeeps,
        .inl ⟨.inl rfl, hdir⟩⟩
  · exact absurd (hplan.eq_of_item? hu (.directory hpage haround) hitem) (by simp [empty])

theorem IsSound.safe_ensureDirectory (hpath : Reaches plan.start p plan.base)
    (hpage : page ∈ plan.pages) (hnames : names ++ [n] <+: page.directory) :
    Safe plan.Holds
      (fun r u => r = .ok () ∧ u.item? (plan.base ++ (names ++ [n])) = some empty ∨
        r = .error .notFound ∧ t.item? (plan.base ++ names) ≠ some empty)
      t (FileStore.ensureDirectory (p.below (names ++ [n]))) := by
  have hname := hplan.isName_of_prefix hpage hnames
  refine safe_ask_bind fun u hu hkeeps => ?_
  obtain ⟨r, v, hperform, hv, huv, hcases⟩ :=
    hplan.makeDirectory_cases hu (hpath.keeps hu.keeps) hpage hnames
  rw [hperform]
  refine ⟨hv, huv, ?_⟩
  rcases hcases with ⟨rfl | rfl, hdir⟩ | ⟨rfl, hnot⟩
  · exact safe_pure fun w _ hkeeps' => .inl ⟨rfl, hkeeps' _ _ hdir⟩
  · refine safe_ask_bind fun w hw hkeeps' => ?_
    have hdir' := hkeeps' _ _ hdir
    rw [kind_of_leads ((hpath.keeps hw.keeps).below hname (by simp) hdir') hdir']
    exact ⟨hw, .refl w, safe_pure fun x _ hkeeps'' => .inl ⟨rfl, hkeeps'' _ _ hdir'⟩⟩
  · exact safe_pure fun w _ _ => .inr ⟨rfl, fun hdir => hnot (hkeeps _ _ hdir)⟩

/-- The directories on the way to a page are made as far as they are missing, if those around the
base are there. -/
theorem IsSound.safe_makeEach (hpath : Reaches plan.start (Path.below first rest) plan.base)
    {around : List Path}
    (haround : Safe plan.Holds (fun r _ => r = .ok ()) plan.start (FileStore.makeEach around))
    (hpage : page ∈ plan.pages) (ns : List Name) (hns : ns.reverse <+: page.directory) :
    Safe plan.Holds
      (fun r u => r = .ok () ∧ u.item? (plan.base ++ ns.reverse) = some empty)
      t (FileStore.makeEach (Path.upwards first rest ns ++ around)) := by
  induction ns generalizing t with
  | nil =>
    refine safe_of_forall fun u hu _ => (haround.keeps hu.keeps).imp fun r v hv _ hr => ⟨hr, ?_⟩
    rw [List.reverse_nil, List.append_nil]
    exact hv.keeps _ _ hplan.item?_base
  | cons n ns ih =>
    have hstart : ns.reverse <+: page.directory :=
      (List.prefix_append ns.reverse [n]).trans (by rwa [← List.reverse_cons])
    rw [List.reverse_cons] at hns ⊢
    rw [Path.upwards, List.reverse_cons, ← Path.below_below, List.cons_append]
    refine Safe.bind ((hplan.safe_ensureDirectory hpath hpage hns).imp fun r u hu _ hr => ?_)
    rcases hr with ⟨rfl, hdir⟩ | ⟨rfl, -⟩
    · exact safe_pure fun v _ hkeeps => ⟨rfl, hkeeps _ _ hdir⟩
    · refine Safe.bind ((ih hstart).imp fun r v hv _ hr => ?_)
      obtain ⟨rfl, hdir⟩ := hr
      refine (hplan.safe_ensureDirectory hpath hpage hns).imp fun r w _ _ hr => ?_
      exact hr.resolve_right fun h => h.2 hdir

/-- A page is written when its directory is there. -/
theorem IsSound.safe_write (hpath : Reaches plan.start p plan.base) (hpage : page ∈ plan.pages)
    (hdir : t.item? (plan.base ++ page.directory) = some empty) :
    Safe plan.Holds
      (fun r u => r = .ok () ∧ u.item? (plan.base ++ page.names) = some (.file page.bytes))
      t (FileStore.write (p.below page.names) page.bytes) := by
  intro u hu hkeeps
  have hhas : plan.Has (plan.base ++ page.directory ++ [page.name]) (.file page.bytes) := by
    rw [List.append_assoc]
    exact .page hpage
  have hnot : u.item? (plan.base ++ page.directory ++ [page.name]) ≠ some empty := fun h =>
    absurd (hplan.eq_of_item? hu hhas h) (by simp [empty])
  have hnames := hplan.names page hpage
  have hwrite : u.write (p.below page.names) page.bytes = .ok (FileTree.put (.file page.bytes) u
      (plan.base ++ page.directory ++ [page.name])) :=
    (hpath.keeps hu.keeps).write_below (hplan.isName_of_prefix hpage (List.prefix_refl _))
      (hnames page.name (by simp [Page.names])) (hkeeps _ _ hdir) hnot
  obtain ⟨hput, hkeeps', hfile⟩ := hplan.put hu hhas (hkeeps _ _ hdir) hnot
  have hperform : (FileRequest.write (p.below page.names) page.bytes).perform u = (.ok (), _) :=
    update_of_ok (f := (·.write _ _)) hwrite
  rw [hperform]
  refine ⟨hput, hkeeps', fun v _ hkeeps'' => ⟨rfl, ?_⟩⟩
  rw [Page.names, ← List.append_assoc]
  exact hkeeps'' _ _ hfile

/-- The job of a page renders its source into the page. -/
theorem IsSound.safe_renderFile (hfirst : '/' ∉ first) (hrest : ∀ n ∈ rest, '/' ∉ n)
    (hpath : Reaches plan.start (Path.below first rest) plan.base) (hpage : page ∈ plan.pages)
    {processor : Processor} {source : String} {outputDir file relative : Path}
    (hread : plan.start.read file = .ok source.toUTF8)
    (htarget : Command.pagePath outputDir relative = Path.below first (rest ++ page.names))
    (hbytes : (processor.renderHtml source.toList).toUTF8 = page.bytes) :
    Safe plan.Holds
      (fun r u => r = .ok (Command.pagePath outputDir relative) ∧
        u.item? (plan.base ++ page.names) = some (.file page.bytes))
      t (Command.renderFile (m := Script) processor outputDir file relative).run := by
  have hname := hplan.names page hpage
  have hsteps : ∀ n ∈ page.directory, Path.IsStep n := fun n hn =>
    (hname n (List.mem_append.mpr (.inl hn))).toIsStep
  have hparent := Path.parent?_below hfirst (Path.slash_notMem_append hrest hsteps)
    (hname page.name (by simp [Page.names])).toIsStep
  rw [List.append_assoc] at hparent
  have haround := Path.selfAndParents_base_append hfirst hrest fun n hn =>
    hsteps n (List.mem_reverse.mp hn)
  rw [List.reverse_reverse] at haround
  unfold Command.renderFile
  refine safe_of_forall fun u hu _ =>
    Command.safe_attempt ((safe_readText (hu.keeps.read hread)).imp ?_)
  rintro r v hv - rfl
  refine ⟨source, rfl, ?_⟩
  rw [htarget]
  dsimp only
  rw [Page.names, hparent]
  have hbase : Safe plan.Holds (fun r _ => r = .ok ()) plan.start
      (FileStore.makeDirectories (Path.base first rest)) :=
    safe_makeDirectories (hpath.base hfirst hrest) hplan.item?_base
  have hmake := hplan.safe_makeEach (t := v) hpath hbase hpage page.directory.reverse (by simp)
  rw [← haround, List.reverse_reverse] at hmake
  refine Command.safe_attempt (hmake.imp ?_)
  rintro r w hw - ⟨rfl, hdir⟩
  have hwrite := hplan.safe_write hpath hpage hdir
  rw [← hbytes, Path.below_below] at hwrite
  refine ⟨(), rfl, Command.safe_attempt (hwrite.imp ?_)⟩
  rintro r x hx - ⟨rfl, hfile⟩
  rw [hbytes] at hfile
  exact ⟨(), rfl, safe_pure fun y _ hkeeps => ⟨rfl, hkeeps _ _ hfile⟩⟩

end

end Plan

end WikiPress
