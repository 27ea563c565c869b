import WikiPress.Command.Render
import WikiPress.Proofs.Files.Operation

/-!
# Where pages go

The page of a file in a directory goes below the output directory, to the same names with another
extension.  So two files never have the same page.  But a page can be where the directory of another
page should be, and it is exactly if the file of the other page is in a directory that is named like
the page.

## Main definitions

* `Command.sources`, `Command.target` : the files that are rendered, and where their pages go.
* `Command.IsSource` : the names that the path of such a file is made of.

## Main results

* `Command.IsSource.target_eq` : the names that the path of a page is made of.
* `Command.nodup_map_target` : the pages are at different paths.
* `Command.target_append_slash_isPrefix_iff` : which pages are in each other's way.
-/

namespace WikiPress.Command

open FileTree

/-- The files that are rendered in a directory of a tree. -/
def sources (t : FileTree) (input : Path) : List Path :=
  ((markdownFiles input : StateM FileTree (List Path)) t).1

/-- Where the page of a file goes. -/
def target (input outputDir file : Path) : Path := pagePath outputDir (Path.dropBase input file)

/-- A file with the extension `md` below a path. -/
structure IsSource (input file : Path) (directory : List Name) (stem : Name) : Prop where
  eq : file = Path.below (Path.trunk input) (directory ++ [stem ++ '.' :: "md".toList])
  directory : ∀ n ∈ directory, IsName n
  name : IsName (stem ++ '.' :: "md".toList)
  ne_nil : stem ≠ []

variable {t u : FileTree} {input outputDir file other : Path} {directory : List Name} {stem : Name}
  {entries : List (Name × FileTree)}

theorem ne_nil_of_find (h : t.find input = .ok u) : input ≠ [] := by
  obtain ⟨place, hleads, -⟩ := exists_leads_of_find h
  exact (leads_iff.mp hleads).1

theorem exists_isSource (ht : t.IsProper) (hinput : t.find input = .ok (.directory entries))
    (h : file ∈ sources t input) : ∃ directory stem, IsSource input file directory stem := by
  have hne := ne_nil_of_find hinput
  obtain ⟨first, rest, hfirst, hrest, htrunk⟩ := Path.exists_eq_below (Path.trunk input)
  obtain ⟨hfile, hextension⟩ := List.mem_filter.mp h
  rw [filesBelow, hinput] at hfile
  obtain ⟨place, -, hat⟩ := exists_leads_of_find hinput
  obtain ⟨names, bytes, hbytes, rfl⟩ := exists_of_mem_files (ht.at? hat.1).1 hfile
  have hnames := ((ht.at? hat.1).1.at? hbytes).2
  cases names with
  | nil => exact absurd hbytes (by simp [FileTree.at?])
  | cons n ns =>
    have hstep : ∀ m ∈ n :: ns, Path.IsStep m := fun m hm => (hnames m hm).toIsStep
    rw [List.forall_mem_cons] at hstep
    rw [Path.foldl_join hne hstep.1 hstep.2] at hextension ⊢
    obtain ⟨directory, name, hconcat⟩ : ∃ directory name, n :: ns = directory ++ [name] :=
      (List.eq_nil_or_concat' (n :: ns)).resolve_left (List.cons_ne_nil n ns)
    rw [hconcat] at hnames hextension ⊢
    have hname := hnames name (by simp)
    have hdirectory : ∀ m ∈ directory, IsName m := fun m hm =>
      hnames m (List.mem_append.mpr (.inl hm))
    have hslash := Path.slash_notMem_append hrest fun m hm => (hdirectory m hm).toIsStep
    rw [decide_eq_true_eq, htrunk, Path.below_below, ← List.append_assoc,
      Path.extension?_below_eq_some hfirst hslash hname.toIsStep] at hextension
    obtain ⟨stem, hstem, -, rfl⟩ := hextension
    exact ⟨directory, stem, rfl, hdirectory, hname, hstem⟩

namespace IsSource

variable (h : IsSource input file directory stem)
include h

theorem isStep : ∀ n ∈ directory, Path.IsStep n := fun n hn => (h.directory n hn).toIsStep

theorem slash_notMem : (∀ n ∈ directory, '/' ∉ n) ∧
    '/' ∉ stem ++ '.' :: "md".toList ∧ '/' ∉ stem ++ '.' :: "html".toList := by
  refine ⟨fun n hn => (h.directory n hn).slash_notMem, h.name.slash_notMem, ?_⟩
  have := h.name.slash_notMem
  rw [List.mem_append, not_or] at this ⊢
  exact ⟨this.1, by decide⟩

theorem name?_eq : file.name? = some (stem ++ '.' :: "md".toList) := by
  obtain ⟨first, rest, hfirst, hrest, htrunk⟩ := Path.exists_eq_below (Path.trunk input)
  rw [h.eq, htrunk, Path.below_below, ← List.append_assoc,
    Path.name?_below hfirst (Path.slash_notMem_append hrest h.isStep) h.name.toIsStep]

theorem withExtension_eq (hstem : stem ≠ Path.here) (ending : Name) :
    file.withExtension ending =
      Path.below (Path.trunk input) (directory ++ [stem ++ '.' :: ending]) := by
  obtain ⟨first, rest, hfirst, hrest, htrunk⟩ := Path.exists_eq_below (Path.trunk input)
  rw [h.eq, htrunk, Path.below_below, Path.below_below, ← List.append_assoc, ← List.append_assoc,
    Path.withExtension_below hfirst (Path.slash_notMem_append hrest h.isStep) h.name.toIsStep
      h.ne_nil hstem (by decide)]

/-- The page of a file is at the same names, up to the extension. -/
theorem target_eq (houtput : outputDir ≠ []) (hstem : stem ≠ Path.here) :
    target input outputDir file =
      Path.below (Path.trunk outputDir) (directory ++ [stem ++ '.' :: "html".toList]) := by
  obtain ⟨n, ns, hcons⟩ : ∃ n ns, directory ++ [stem ++ '.' :: "md".toList] = n :: ns :=
    List.exists_cons_of_ne_nil (by simp)
  have hn : Path.IsStep n := by
    have : n ∈ directory ++ [stem ++ '.' :: "md".toList] := hcons ▸ List.mem_cons_self ..
    rcases List.mem_append.mp this with hmem | hmem
    · exact (h.directory n hmem).toIsStep
    · rw [List.mem_singleton.mp hmem]
      exact h.name.toIsStep
  have hsame : IsSource outputDir (outputDir.join (Path.dropBase input file)) directory stem :=
    { h with
      eq := by rw [h.eq, hcons, Path.dropBase_below hn, Path.join_below houtput hn] }
  exact hsame.withExtension_eq hstem _

end IsSource

/-- The name of a page is proper if the file leaves room for the longer extension. -/
theorem IsSource.isName (h : IsSource input file directory stem)
    (hsize : Text.size (stem ++ '.' :: "md".toList) + 2 ≤ longestName) :
    IsName (stem ++ '.' :: "html".toList) where
  ne_nil := by simp
  slash_notMem := h.slash_notMem.2.2
  ne_here := fun heq => absurd (congrArg List.length heq) (by simp [Path.here])
  ne_above := fun heq => absurd (congrArg List.length heq) (by simp [Path.above])
  zero_notMem := by
    have := h.name.zero_notMem
    rw [List.mem_append, not_or] at this ⊢
    exact ⟨this.1, by decide⟩
  size_le := by
    have hmd : Text.size ('.' :: "md".toList) = 3 := by decide
    have hhtml : Text.size ('.' :: "html".toList) = 5 := by decide
    rw [Text.size_append, hmd] at hsize
    rw [Text.size_append, hhtml]
    exact hsize

/-! ### Pages apart from each other -/

section

variable (ht : t.IsProper) (hinput : t.find input = .ok (.directory entries))
  (hdots : ∀ file ∈ sources t input, file.name? ≠ some "..md".toList)
include ht hinput hdots

theorem exists_isSource_of_name? (h : file ∈ sources t input) :
    ∃ directory stem, IsSource input file directory stem ∧ stem ≠ Path.here := by
  obtain ⟨directory, stem, hsource⟩ := exists_isSource ht hinput h
  refine ⟨directory, stem, hsource, ?_⟩
  rintro rfl
  exact hdots file h hsource.name?_eq

/-- A page is where the directory of another one should be exactly if the file of the other one is
in a directory that is named like the page. -/
theorem target_append_slash_isPrefix_iff (houtput : outputDir ≠ [])
    (h : file ∈ sources t input) (h' : other ∈ sources t input) :
    target input outputDir file ++ ['/'] <+: target input outputDir other ↔
      file.withExtension "html".toList ++ ['/'] <+: other := by
  obtain ⟨directory, stem, hfile, hstem⟩ := exists_isSource_of_name? ht hinput hdots h
  obtain ⟨directory', stem', hother, hstem'⟩ := exists_isSource_of_name? ht hinput hdots h'
  obtain ⟨hslash, -, hpage⟩ := hfile.slash_notMem
  obtain ⟨hslash', hname', hpage'⟩ := hother.slash_notMem
  have hnames := Path.forall_mem_concat hslash hpage
  rw [hfile.target_eq houtput hstem, hother.target_eq houtput hstem',
    Path.below_append_slash_isPrefix_iff hnames hslash' hpage',
    hfile.withExtension_eq hstem, hother.eq,
    Path.below_append_slash_isPrefix_iff hnames hslash' hname']

theorem target_inj (houtput : outputDir ≠ []) (h : file ∈ sources t input)
    (h' : other ∈ sources t input)
    (heq : target input outputDir file = target input outputDir other) : file = other := by
  obtain ⟨directory, stem, hfile, hstem⟩ := exists_isSource_of_name? ht hinput hdots h
  obtain ⟨directory', stem', hother, hstem'⟩ := exists_isSource_of_name? ht hinput hdots h'
  obtain ⟨hslash, -, hpage⟩ := hfile.slash_notMem
  obtain ⟨hslash', -, hpage'⟩ := hother.slash_notMem
  rw [hfile.target_eq houtput hstem, hother.target_eq houtput hstem'] at heq
  have hnames := Path.below_inj (Path.forall_mem_concat hslash hpage)
    (Path.forall_mem_concat hslash' hpage') heq
  obtain ⟨hdirectory, hname⟩ := List.append_inj' hnames rfl
  rw [hfile.eq, hother.eq, hdirectory, List.append_cancel_right (List.singleton_inj.mp hname)]

theorem nodup_map_target (houtput : outputDir ≠ []) :
    ((sources t input).map (target input outputDir)).Nodup := by
  refine List.Nodup.map_on (fun file h other h' => target_inj ht hinput hdots houtput h h') ?_
  obtain ⟨place, -, hat, -⟩ := exists_leads_of_find hinput
  refine List.Nodup.filter _ ?_
  rw [filesBelow, hinput]
  exact nodup_files (ht.at? hat).1 (ne_nil_of_find hinput)

end

end WikiPress.Command
