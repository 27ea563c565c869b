import Mathlib.Tactic.Choose
import WikiPress.Pattern.Reader
import WikiPress.Proofs.Command.Plan
import WikiPress.Proofs.Command.Target
import WikiPress.Url.Web

/-!
# Rendering a directory

The pages of a directory are rendered by one job for each file, and the jobs run at the same time.
The order in which they reach their files does not matter, as long as no page is where the directory
of another page should be.

## Main definitions

* `Command.job` : the script that renders one file of a directory.
* `Command.Renders` : all orders of the jobs lead to the same tree, in which all pages are.
* `Command.IsPlan` : the pages of a directory, as a plan for the output directory.

## Main results

* `Command.exists_isPlan` : the pages of a directory can be planned if they are apart from each
  other.
* `Command.IsPlan.inevitably` : the planned pages are written, whatever the order of the jobs.
* `Command.renderDirectory_inEveryOrder` : the pages are at different paths, which of them are in
  each other's way, and all orders of the jobs lead to the same tree if none are.
* `Command.renderDirectory_clash` : directories that cannot be rendered.
-/

namespace WikiPress.Command

open FileTree

/-- The script that renders a file of a directory. -/
def job (p : Processor) (input outputDir file : Path) : Script (Except CommandError Path) :=
  (renderFile (m := Script) p outputDir file (Path.dropBase input file)).run

/-- A directory is rendered from a tree into another one, whatever the order of the jobs. -/
structure Renders (p : Processor) (source : Path → String) (input outputDir : Path)
    (t u : FileTree) : Prop where
  /-- One job after the other. -/
  run : (renderDirectory (m := StateM FileTree) p input outputDir).run t =
    (.ok ((sources t input).map (target input outputDir)), u)
  keeps : Keeps t u
  pages : ∀ file ∈ sources t input, u.read (target input outputDir file) =
    .ok (p.renderHtml (source file).toList).toUTF8
  /-- All jobs at the same time. -/
  inevitably : Pool.Inevitably
    (fun pool => pool =
      ⟨(sources t input).map fun file => .done (.ok (target input outputDir file)), u⟩)
    ⟨(sources t input).map (job p input outputDir), t⟩

variable {t : FileTree} {input outputDir : Path} {entries : List (Name × FileTree)}

/-- What is left of rendering a directory when its files are known. -/
theorem run_renderDirectory (p : Processor) (t : FileTree) (input outputDir : Path) :
    (renderDirectory (m := StateM FileTree) p input outputDir).run t =
      (alone (attempt (.noOutputDirectory outputDir) (FileStore.makeDirectories outputDir) >>=
        fun _ => (sources t input).mapM fun file =>
          renderFile p outputDir file (Path.dropBase input file))).run t := by
  rw [alone_bind, alone_attempt, FileStore.makeDirectories, Script.run_makeEach]
  simp only [alone_mapM, alone_renderFile]
  rfl

/-! ### The plan of a directory -/

/-- The pages of the files of a directory are planned for the output directory. -/
structure IsPlan (p : Processor) (source : Path → String) (input outputDir : Path) (t : FileTree)
    (base : FileTree.Place) (page : Path → Page) : Prop where
  output : t.find outputDir = .ok (.directory [])
  leads : Leads t outputDir base
  sound : Plan.IsSound ⟨t, base, (sources t input).map page⟩
  target_eq : ∀ file ∈ sources t input,
    target input outputDir file = Path.below (Path.trunk outputDir) (page file).names
  bytes_eq : ∀ file ∈ sources t input,
    (page file).bytes = (p.renderHtml (source file).toList).toUTF8

variable {p : Processor} {source : Path → String}

theorem exists_isPlan (p : Processor) (source : Path → String) (ht : t.IsProper)
    (hinput : t.find input = .ok (.directory entries))
    (houtput : t.find outputDir = .ok (.directory []))
    (hdots : ∀ file ∈ sources t input, file.name? ≠ some "..md".toList)
    (hapart : ∀ file ∈ sources t input, ∀ other ∈ sources t input,
      ¬file.withExtension "html".toList ++ ['/'] <+: other)
    (hsize : ∀ file ∈ sources t input, ∀ name ∈ file.name?, Text.size name + 2 ≤ longestName) :
    ∃ base page, IsPlan p source input outputDir t base page := by
  obtain ⟨base, hleads, hat, -⟩ := exists_leads_of_find houtput
  choose! directory stem hsource hstem using fun file (hfile : file ∈ sources t input) =>
    exists_isSource_of_name? ht hinput hdots hfile
  have hne := ne_nil_of_find houtput
  have hname : ∀ file ∈ sources t input, IsName (stem file ++ '.' :: "html".toList) :=
    fun file hfile => (hsource file hfile).isName (hsize file hfile _ (hsource file hfile).name?_eq)
  have hnames : ∀ file ∈ sources t input,
      ∀ n ∈ directory file ++ [stem file ++ '.' :: "html".toList], IsName n := fun file hfile => by
    rw [List.forall_mem_append, List.forall_mem_singleton]
    exact ⟨(hsource file hfile).directory, hname file hfile⟩
  refine ⟨base, fun file => ⟨directory file, stem file ++ '.' :: "html".toList,
    (p.renderHtml (source file).toList).toUTF8⟩, houtput, hleads, ⟨ht, hat, ?_, ?_, ?_⟩,
    fun file hfile => (hsource file hfile).target_eq hne (hstem file hfile),
    fun _ _ => rfl⟩
  · exact List.forall_mem_map.mpr hnames
  · refine List.forall_mem_map.mpr fun file hfile => List.forall_mem_map.mpr fun other hother => ?_
    have hnot := hapart file hfile other hother
    obtain ⟨hslash, hmd, -⟩ := (hsource other hother).slash_notMem
    rwa [(hsource file hfile).withExtension_eq (hstem file hfile), (hsource other hother).eq,
      Path.below_append_slash_isPrefix_iff (fun n hn => (hnames file hfile n hn).slash_notMem)
        hslash hmd] at hnot
  · refine List.forall_mem_map.mpr fun file hfile =>
      List.forall_mem_map.mpr fun other hother heq => ?_
    obtain rfl : file = other := by
      refine target_inj ht hinput hdots hne hfile hother ?_
      rw [(hsource file hfile).target_eq hne (hstem file hfile),
        (hsource other hother).target_eq hne (hstem other hother)]
      exact congrArg _ heq
    rfl

namespace IsPlan

variable {base : FileTree.Place} {page : Path → Page} {u : FileTree}
  (h : IsPlan p source input outputDir t base page)
include h

theorem reaches_trunk : Reaches t (Path.trunk outputDir) base := h.leads.reaches.trunk

/-- What a job has done when it is over, whatever the others do. -/
theorem safe_job (hread : ∀ file ∈ sources t input, t.read file = .ok (source file).toUTF8)
    {file : Path} (hfile : file ∈ sources t input) (v : FileTree) :
    Script.Safe (Plan.Holds ⟨t, base, (sources t input).map page⟩)
      (fun r w => r = .ok (target input outputDir file) ∧
        w.item? (base ++ (page file).names) = some (.file (page file).bytes))
      v (job p input outputDir file) := by
  obtain ⟨first, rest, hfirst, hrest, htrunk⟩ := Path.exists_eq_below (Path.trunk outputDir)
  have hpath := h.reaches_trunk
  rw [htrunk] at hpath
  have htarget := h.target_eq file hfile
  rw [htrunk, Path.below_below] at htarget
  exact h.sound.safe_renderFile hfirst hrest hpath (List.mem_map_of_mem hfile) (hread file hfile)
    htarget (h.bytes_eq file hfile).symm

/-- The jobs one after the other. -/
theorem exists_run (hread : ∀ file ∈ sources t input, t.read file = .ok (source file).toUTF8) :
    ∃ u, (renderDirectory (m := StateM FileTree) p input outputDir).run t =
        (.ok ((sources t input).map (target input outputDir)), u) ∧
      Plan.Holds ⟨t, base, (sources t input).map page⟩ u ∧ Keeps t u ∧
      ∀ file ∈ sources t input,
        u.item? (base ++ (page file).names) = some (.file (page file).bytes) := by
  have hall : Script.Safe (Plan.Holds ⟨t, base, (sources t input).map page⟩)
      (fun r u => r = .ok ((sources t input).map (target input outputDir)) ∧
        ∀ file ∈ sources t input,
          u.item? (base ++ (page file).names) = some (.file (page file).bytes))
      t (attempt (.noOutputDirectory outputDir) (FileStore.makeDirectories outputDir) >>= fun _ =>
        (sources t input).mapM fun file =>
          renderFile p outputDir file (Path.dropBase input file)).run := by
    refine safe_attempt ((Script.safe_makeDirectories h.leads h.sound.item?_base).imp ?_)
    rintro r v - - rfl
    exact ⟨(), rfl, safe_mapM (fun file v w hvw hfile => hvw _ _ hfile)
      fun file hfile => h.safe_job hread hfile⟩
  obtain ⟨hholds, hkeeps, hvalue, hitems⟩ := hall.run h.sound.holds
  exact ⟨_, (run_renderDirectory p t input outputDir).trans (Prod.ext hvalue rfl), hholds, hkeeps,
    hitems⟩

theorem read_target (hkeeps : Keeps t u) {file : Path} (hfile : file ∈ sources t input)
    (hitem : u.item? (base ++ (page file).names) = some (.file (page file).bytes)) :
    u.read (target input outputDir file) = .ok (p.renderHtml (source file).toList).toUTF8 := by
  have hmem := List.mem_map_of_mem (f := page) hfile
  rw [h.target_eq file hfile, ← h.bytes_eq file hfile]
  exact (h.reaches_trunk.keeps hkeeps).read_below
    (h.sound.isName_of_prefix hmem (List.prefix_refl _))
    (h.sound.names _ hmem _ (by simp [Page.names])) hitem

/-- The jobs at the same time end in the tree in which all pages are. -/
theorem inevitably (hread : ∀ file ∈ sources t input, t.read file = .ok (source file).toUTF8)
    (hu : Plan.Holds ⟨t, base, (sources t input).map page⟩ u)
    (hitems : ∀ file ∈ sources t input,
      u.item? (base ++ (page file).names) = some (.file (page file).bytes)) :
    Pool.Inevitably
      (fun pool => pool =
        ⟨(sources t input).map fun file => .done (.ok (target input outputDir file)), u⟩)
      ⟨(sources t input).map (job p input outputDir), t⟩ := by
  have hscripts : List.Forall₂ (fun file s => Script.Safe
      (Plan.Holds ⟨t, base, (sources t input).map page⟩)
      (fun r w => w.item? (base ++ (page file).names) = some (.file (page file).bytes) ∧
        r = .ok (target input outputDir file)) t s)
      (sources t input) ((sources t input).map (job p input outputDir)) := by
    rw [List.forall₂_map_right_iff, List.forall₂_same]
    exact fun file hfile => (h.safe_job hread hfile t).imp fun r w _ _ h => h.symm
  refine Pool.inevitably_of_safe hscripts h.sound.holds fun values w hw _ hvalues => ?_
  obtain ⟨hitems', hvalues⟩ := (List.forall₂_and_left _ _).mp hvalues
  have hmap : List.Forall₂ Eq ((sources t input).map fun file =>
      Except.ok (target input outputDir file)) values :=
    List.forall₂_map_left_iff.mpr (hvalues.imp fun _ _ => Eq.symm)
  rw [List.forall₂_eq_eq_eq] at hmap
  rw [← hmap, List.map_map,
    hw.eq hu (List.forall_mem_map.mpr hitems') (List.forall_mem_map.mpr hitems)]
  rfl

theorem exists_renders
    (hread : ∀ file ∈ sources t input, t.read file = .ok (source file).toUTF8) :
    ∃ u, Renders p source input outputDir t u := by
  obtain ⟨u, hrun, hu, hkeeps, hitems⟩ := h.exists_run hread
  exact ⟨u, hrun, hkeeps, fun file hfile => h.read_target hkeeps hfile (hitems file hfile),
    h.inevitably hread hu hitems⟩

end IsPlan

/-! ### Every order -/

/-- The pages of a directory are at different paths, and a page is where the directory of another
one should be exactly if the file of the other one is in a directory that is named like the page.
If that is not so, the files are texts and their names leave room for the longer extension, then all
orders in which the jobs run succeed and lead to the same tree, as long as nothing was in the output
directory. -/
theorem renderDirectory_inEveryOrder (p : Processor) (source : Path → String) (ht : t.IsProper)
    (hinput : t.find input = .ok (.directory entries))
    (houtput : t.find outputDir = .ok (.directory []))
    (hdots : ∀ file ∈ sources t input, file.name? ≠ some "..md".toList) :
    ((sources t input).map (target input outputDir)).Nodup ∧
    (∀ file ∈ sources t input, ∀ other ∈ sources t input,
      target input outputDir file ++ ['/'] <+: target input outputDir other ↔
        file.withExtension "html".toList ++ ['/'] <+: other) ∧
    ((∀ file ∈ sources t input, ∀ other ∈ sources t input,
        ¬file.withExtension "html".toList ++ ['/'] <+: other) →
      (∀ file ∈ sources t input, ∀ name ∈ file.name?, Text.size name + 2 ≤ longestName) →
      (∀ file ∈ sources t input, t.read file = .ok (source file).toUTF8) →
      ∃ u, Renders p source input outputDir t u) :=
  ⟨nodup_map_target ht hinput hdots (ne_nil_of_find houtput),
    fun _ hfile _ hother =>
      target_append_slash_isPrefix_iff ht hinput hdots (ne_nil_of_find houtput) hfile hother,
    fun hapart hsize hread =>
      have ⟨_, _, hplan⟩ := exists_isPlan p source ht hinput houtput hdots hapart hsize
      hplan.exists_renders hread⟩

/-- Names with two points, names of which one begins with the other, and the same name twice.  The
output directory is given by its path from the root. -/
theorem renderDirectory_inEveryOrder_sameNames :
    let t : FileTree := .directory
      [("in".toList, .directory
        [("a.b.md".toList, .file "x".toUTF8), ("a.md".toList, .file "x".toUTF8),
          ("a.md.d".toList, .directory [("a.md".toList, .file "x".toUTF8)])]),
        ("out".toList, .directory [])]
    t.IsProper ∧ (sources t "in".toList).map (target "in".toList "/out".toList) =
        ["/out/a.b.html".toList, "/out/a.html".toList, "/out/a.md.d/a.html".toList] ∧
      ∃ u, Renders (.ofOptions {}) (fun _ => "x") "in".toList "/out".toList t u := by
  intro t
  have ht : t.IsProper := by
    have hinner := isProper_cons (n := "a.md".toList) (by decide) (by simp)
      (.file "x".toUTF8) isProper_empty
    refine isProper_cons (by decide) (by decide) ?_
      (isProper_cons (by decide) (by simp) isProper_empty isProper_empty)
    exact isProper_cons (by decide) (by decide) (.file _) (isProper_cons (by decide) (by decide)
      (.file _) (isProper_cons (by decide) (by simp) hinner isProper_empty))
  have hsources : sources t "in".toList =
      ["in/a.b.md".toList, "in/a.md".toList, "in/a.md.d/a.md".toList] := by decide +kernel
  obtain ⟨entries, hinput⟩ : ∃ entries, t.find "in".toList = .ok (.directory entries) := ⟨_, rfl⟩
  have houtput : t.find "/out".toList = .ok (.directory []) := rfl
  obtain ⟨-, -, hrenders⟩ := renderDirectory_inEveryOrder (.ofOptions {}) (fun _ => "x") ht
    hinput houtput (by rw [hsources]; decide +kernel)
  refine ⟨ht, by rw [hsources]; decide +kernel, hrenders ?_ ?_ ?_⟩
  · rw [hsources]; decide +kernel
  · rw [hsources]; decide +kernel
  · rw [hsources]; decide +kernel

/-- Directories that cannot be rendered: a page is where the directory of another one should be, a
name is no more than dots in front of the extension, a file is not a text, and a name leaves no room
for the longer extension. -/
theorem renderDirectory_clash :
    let tree (entries : List (Name × FileTree)) : FileTree :=
      .directory [("in".toList, .directory entries), ("out".toList, .directory [])]
    let clash := tree [("a.html".toList, .directory [("x.md".toList, .file "".toUTF8)]),
      ("a.md".toList, .file "".toUTF8)]
    let dots := tree [("..md".toList, .file "".toUTF8)]
    let broken := tree [("a.md".toList, .file ⟨#[0xff]⟩)]
    let long := tree [(List.replicate 251 'a' ++ ".md".toList, .file "".toUTF8)]
    let run (t : FileTree) := ((renderDirectory (m := StateM FileTree) (.ofOptions {})
      "in".toList "out".toList).run t).1
    (clash.IsProper ∧ dots.IsProper ∧ broken.IsProper ∧ long.IsProper) ∧
      sources clash "in".toList = ["in/a.html/x.md".toList, "in/a.md".toList] ∧
      target "in".toList "out".toList "in/a.md".toList ++ ['/'] <+:
        target "in".toList "out".toList "in/a.html/x.md".toList ∧
      run clash = .error (.unwritable "out/a.html".toList .isDirectory) ∧
      run dots = .error (.unwritable "out/..".toList .isDirectory) ∧
      run broken = .error (.unreadable "in/a.md".toList .notText) ∧
      run long = .error (.unwritable
        ("out/".toList ++ List.replicate 251 'a' ++ ".html".toList) .nameTooLong) := by
  intro tree clash dots broken long run
  have htree {entries : List (Name × FileTree)} (h : IsProper (.directory entries)) :
      (tree entries).IsProper :=
    isProper_cons (by decide) (by simp; decide) h
      (isProper_cons (by decide) (by simp) isProper_empty isProper_empty)
  have hfile {name : Name} (bytes : ByteArray) (h : IsName name) :
      IsProper (.directory [(name, .file bytes)]) :=
    isProper_cons h (by simp) (.file bytes) isProper_empty
  refine ⟨⟨htree ?_, htree (hfile _ (by decide)), htree (hfile _ (by decide)),
      htree (hfile _ (by decide +kernel))⟩, by decide +kernel, by decide +kernel,
    by decide +kernel, by decide +kernel, by decide +kernel, by decide +kernel⟩
  exact isProper_cons (by decide) (by simp; decide) (hfile _ (by decide)) (hfile _ (by decide))

end WikiPress.Command
