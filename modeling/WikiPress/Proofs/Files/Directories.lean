import WikiPress.Proofs.Files.Operation

/-!
# Directories that are made as far as they are missing

Making a directory with those around it adds empty directories where nothing was, and does nothing
else, also if it fails half way.

## Main definitions

* `FileTree.AddsDirectories` : a tree has grown by empty directories at some paths.

## Main results

* `FileTree.exists_leads_of_makeDirectory` : what one directory changes.
* `FileTree.makeEach_run` : what directories in each other change, and that they are there then.
-/

namespace WikiPress.FileTree

open FileStore

variable {t u v : FileTree} {p : Path} {place : Place} {paths more : List Path}
  {r : Except FileError Unit}

/-- All that is in a tree is kept, and what is new are empty directories that some of the paths lead
to. -/
structure AddsDirectories (t u : FileTree) (paths : List Path) : Prop where
  keeps : Keeps t u
  new : ∀ place item, t.item? place = none → u.item? place = some item →
    item = empty ∧ ∃ p ∈ paths, Leads u p place

namespace AddsDirectories

theorem refl (t : FileTree) (paths : List Path) : AddsDirectories t t paths :=
  ⟨.refl t, fun place item hnone hsome => absurd (hnone.symm.trans hsome) (by simp)⟩

theorem mono (h : AddsDirectories t u paths) (hsub : paths ⊆ more) : AddsDirectories t u more := by
  refine ⟨h.keeps, fun place item hnone hsome => ?_⟩
  obtain ⟨hitem, p, hp, hleads⟩ := h.new place item hnone hsome
  exact ⟨hitem, p, hsub hp, hleads⟩

theorem trans (h : AddsDirectories t u paths) (h' : AddsDirectories u v paths) :
    AddsDirectories t v paths := by
  refine ⟨h.keeps.trans h'.keeps, fun place item hnone hsome => ?_⟩
  cases hmid : u.item? place with
  | none => exact h'.new place item hmid hsome
  | some other =>
    obtain ⟨hitem, p, hp, hleads⟩ := h.new place other hnone hmid
    obtain rfl : other = item := Option.some.inj ((h'.keeps place other hmid).symm.trans hsome)
    exact ⟨hitem, p, hp, hleads.keeps h'.keeps⟩

end AddsDirectories

/-! ### One directory -/

/-- A directory is made at a place where nothing was, and its path leads there afterwards. -/
theorem exists_leads_of_makeDirectory (h : t.makeDirectory p = .ok u) :
    ∃ place, Leads u p place ∧ t.item? place = none ∧
      ∀ other, u.item? other = if other = place then some empty else t.item? other := by
  obtain ⟨place, n, hfind, hdots, hnone, rfl⟩ := exists_of_makeDirectory h
  obtain ⟨hdir, hname⟩ := item?_of_findParent hfind
  obtain ⟨start, hsteps, hstart⟩ := exists_steps_of_findParent hfind hdots
  have hput : ∀ other, (put empty t (place ++ [n])).item? other =
      if other = place ++ [n] then some empty else t.item? other :=
    item?_put hdir rfl (by simp [hnone])
  have hkeeps : Keeps t (put empty t (place ++ [n])) := .of_item?_eq hput (by simp [hnone])
  have hitem : (put empty t (place ++ [n])).item? (place ++ [n]) = some empty := by
    rw [hput, if_pos rfl]
  have hlast : (put empty t (place ++ [n])).follow place [n] = .ok (place ++ [n]) :=
    follow_names (by simp [hname hdots]) hitem
  have heq := (stepsOf_eq_ok hsteps).1
  refine ⟨place ++ [n], ⟨heq ▸ hsteps, ?_⟩, hnone, hput⟩
  rw [← heq]
  exact follow_append_eq_ok.mpr ⟨place, hkeeps.follow hstart, hlast⟩

theorem AddsDirectories.of_makeDirectory (h : t.makeDirectory p = .ok u) :
    AddsDirectories t u [p] := by
  obtain ⟨place, hleads, hnone, hitem⟩ := exists_leads_of_makeDirectory h
  refine ⟨.of_item?_eq hitem (by simp [hnone]), fun other item hother hsome => ?_⟩
  rw [hitem] at hsome
  split at hsome
  · next heq =>
    subst heq
    exact ⟨(Option.some.inj hsome).symm, p, List.mem_singleton_self p, hleads⟩
  · exact absurd (hother.symm.trans hsome) (by simp)

theorem isOk_find_of_makeDirectory (h : t.makeDirectory p = .ok u) : (u.find p).isOk := by
  obtain ⟨place, hleads, -, hitem⟩ := exists_leads_of_makeDirectory h
  have hdir : u.item? place = some empty := by rw [hitem, if_pos rfl]
  obtain ⟨entries, hat⟩ := item?_eq_empty_iff.mp hdir
  rw [hleads.find hat (.inr hdir)]
  rfl

theorem exists?_eq (t : FileTree) (p : Path) :
    exists? (m := StateM FileTree) p t = ((t.find p).isOk, t) := by
  show (((t.find p).toOption.map kind).isSome, t) = _
  cases t.find p <;> rfl

/-! ### Directories in each other -/

section

variable {e : FileError}

theorem ensureDirectory_of_ok (h : t.makeDirectory p = .ok u) :
    ensureDirectory (m := StateM FileTree) p t = (.ok (), u) := by
  have hmake : FileStore.makeDirectory (m := StateM FileTree) p t = (.ok (), u) := update_of_ok h
  simp only [ensureDirectory, bind, StateT.bind, hmake]
  rfl

theorem ensureDirectory_of_error (h : t.makeDirectory p = .error e) :
    ensureDirectory (m := StateM FileTree) p t =
      (if e = .alreadyExists ∧ (t.find p).toOption.map kind = some .directory then .ok ()
        else .error e, t) := by
  have hmake : FileStore.makeDirectory (m := StateM FileTree) p t = (.error e, t) :=
    update_of_error h
  simp only [ensureDirectory, bind, StateT.bind, hmake]
  cases e
  case alreadyExists =>
    simp only [FileStore.kind?, bind, StateT.bind, true_and]
    split <;> rfl
  all_goals rfl

theorem makeEach_cons_of_ne (h : ensureDirectory (m := StateM FileTree) p t = (r, u))
    (hr : r ≠ .error .notFound) : makeEach (m := StateM FileTree) (p :: paths) t = (r, u) := by
  simp only [makeEach, bind, StateT.bind, h]
  cases r with
  | ok _ => rfl
  | error e =>
    cases e
    case notFound => exact absurd rfl hr
    all_goals rfl

theorem makeEach_cons_of_notFound
    (h : ensureDirectory (m := StateM FileTree) p t = (.error .notFound, u))
    (hmake : makeEach (m := StateM FileTree) paths u = (r, v)) :
    makeEach (m := StateM FileTree) (p :: paths) t =
      match r with
      | .ok () => ensureDirectory (m := StateM FileTree) p v
      | .error e => (.error e, v) := by
  simp only [makeEach, bind, StateT.bind, h, hmake]
  cases r <;> rfl

end

/-- A directory is made unless it is there; if this succeeds it is there. -/
theorem ensureDirectory_run (h : ensureDirectory (m := StateM FileTree) p t = (r, u)) :
    AddsDirectories t u [p] ∧ (r = .ok () → (u.find p).isOk) := by
  cases hmake : t.makeDirectory p with
  | ok v =>
    rw [ensureDirectory_of_ok hmake] at h
    obtain ⟨rfl, rfl⟩ := Prod.mk.inj h
    exact ⟨.of_makeDirectory hmake, fun _ => isOk_find_of_makeDirectory hmake⟩
  | error e =>
    rw [ensureDirectory_of_error hmake] at h
    obtain ⟨rfl, rfl⟩ := Prod.mk.inj h
    refine ⟨.refl t _, fun hr => ?_⟩
    split at hr
    · next hthere =>
      obtain ⟨-, hkind⟩ := hthere
      cases hfind : t.find p with
      | ok w => rfl
      | error e => exact absurd hkind (by simp [hfind, Except.toOption])
    · exact nomatch hr

/-- Directories in each other are made as far as they are missing, and what was made stays if this
fails half way; if it succeeds, the first of them is there. -/
theorem makeEach_run (h : makeEach (m := StateM FileTree) paths t = (r, u)) :
    AddsDirectories t u paths ∧ (r = .ok () → ∀ p ∈ paths.head?, (u.find p).isOk) := by
  -- The first directory may be tried twice, from the tree at the start and from the one that the
  -- others were made in, so the induction is over all trees.
  induction paths generalizing t u r with
  | nil =>
    obtain ⟨rfl, rfl⟩ := Prod.mk.inj h
    exact ⟨.refl t _, fun _ => by simp⟩
  | cons p around ih =>
    have hhead : [p] ⊆ p :: around := by simp
    obtain ⟨first, v, hfirst⟩ :
        ∃ first v, ensureDirectory (m := StateM FileTree) p t = (first, v) := ⟨_, _, rfl⟩
    obtain ⟨hadds, hfound⟩ := ensureDirectory_run hfirst
    by_cases hmissing : first = .error .notFound
    · subst hmissing
      obtain ⟨rest, w, hrest⟩ :
          ∃ rest w, makeEach (m := StateM FileTree) around v = (rest, w) := ⟨_, _, rfl⟩
      have haround := (hadds.mono hhead).trans ((ih hrest).1.mono (List.subset_cons_self p around))
      rw [makeEach_cons_of_notFound hfirst hrest] at h
      cases rest with
      | error e =>
        obtain ⟨rfl, rfl⟩ := Prod.mk.inj h
        exact ⟨haround, fun hr => nomatch hr⟩
      | ok _ =>
        obtain ⟨hagain, hfound⟩ := ensureDirectory_run h
        exact ⟨haround.trans (hagain.mono hhead), fun hr => by simpa using hfound hr⟩
    · rw [makeEach_cons_of_ne hfirst hmissing] at h
      obtain ⟨rfl, rfl⟩ := Prod.mk.inj h
      exact ⟨hadds.mono hhead, fun hr => by simpa using hfound hr⟩

end WikiPress.FileTree
