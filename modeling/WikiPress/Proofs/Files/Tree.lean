import Mathlib.Data.List.Nodup
import WikiPress.Files.Tree
import WikiPress.Proofs.Files.Path

/-!
# Trees of files as maps of places

A tree is described by what is at its places: nothing, a file with its bytes, or a directory.  A
tree whose names are proper is determined by this, and each operation on a tree changes it at one
place or not at all.

## Main definitions

* `FileTree.IsName`, `FileTree.IsProper` : the names that entries may have, and trees in which the
  entries of each directory stand in the order of such names.
* `FileTree.item?` : what is at a place, without what is in it.
* `FileTree.Keeps` : all that is in a tree is at the same place in another one.

## Main results

* `FileTree.IsProper.put` : proper trees stay proper.
* `FileTree.IsProper.ext` : proper trees with the same at each place are the same.
* `FileTree.item?_put` : what is at the places of a tree after a change.
* `FileTree.exists_of_mem_files`, `FileTree.nodup_files` : the files of a tree.
-/

namespace WikiPress.FileTree

open Text

/-- A name that an entry of a directory may have. -/
structure IsName (name : Name) : Prop extends Path.IsStep name where
  zero_notMem : '\x00' ∉ name
  size_le : size name ≤ longestName

instance (name : Name) : Decidable (IsName name) :=
  decidable_of_iff ((name ≠ [] ∧ '/' ∉ name ∧ name ≠ Path.here ∧ name ≠ Path.above) ∧
      '\x00' ∉ name ∧ size name ≤ longestName)
    ⟨fun ⟨⟨hne, hslash, hhere, habove⟩, hzero, hsize⟩ =>
        ⟨⟨hne, hslash, hhere, habove⟩, hzero, hsize⟩,
      fun h => ⟨⟨h.ne_nil, h.slash_notMem, h.ne_here, h.ne_above⟩, h.zero_notMem, h.size_le⟩⟩

/-- The entries of each directory have proper names, and stand in the order of them. -/
inductive IsProper : FileTree → Prop where
  | file (bytes : ByteArray) : IsProper (.file bytes)
  | directory {entries : List (Name × FileTree)}
    (sorted : entries.Pairwise fun e f => e.1 < f.1) (names : ∀ e ∈ entries, IsName e.1)
    (trees : ∀ e ∈ entries, IsProper e.2) : IsProper (.directory entries)

/-- A file, or a directory without what is in it. -/
def bare : FileTree → FileTree
  | .file bytes => .file bytes
  | .directory _ => empty

/-- What is at a place, without what is in it. -/
def item? (t : FileTree) (place : Place) : Option FileTree := (t.at? place).map bare

/-- All that is in a tree is at the same place in another one. -/
def Keeps (t u : FileTree) : Prop :=
  ∀ place item, t.item? place = some item → u.item? place = some item

variable {t u v new : FileTree} {entries : List (Name × FileTree)} {n m : Name}
  {place other names : Place} {p q : Path} {bytes : ByteArray}

theorem Keeps.refl (t : FileTree) : Keeps t t := fun _ _ h => h

theorem Keeps.trans (h : Keeps t u) (h' : Keeps u v) : Keeps t v :=
  fun place item hitem => h' place item (h place item hitem)

/-- A tree that differs from another one at a single place keeps what is in that one, if it has no
other item there. -/
theorem Keeps.of_item?_eq
    (h : ∀ other, u.item? other = if other = place then some new else t.item? other)
    (hplace : ∀ item, t.item? place = some item → item = new) : Keeps t u := by
  intro other item hitem
  rw [h]
  split
  · next heq =>
    subst heq
    rw [hplace item hitem]
  · exact hitem

/-! ### Entries -/

theorem entryOf?_putEntry (n m : Name) (u : FileTree) (entries : List (Name × FileTree)) :
    entryOf? m (putEntry n u entries) = if m = n then some u else entryOf? m entries := by
  induction entries with
  | nil => simp [putEntry, entryOf?, eq_comm]
  | cons e entries ih =>
    obtain ⟨k, v⟩ := e
    rw [putEntry]
    split
    · next h =>
      subst h
      by_cases hm : k = m <;> simp [entryOf?, hm, Ne.symm]
    · split
      · by_cases hm : n = m <;> simp [entryOf?, hm, eq_comm]
      · next h _ =>
        rw [entryOf?, ih, entryOf?]
        by_cases hm : m = n
        · subst hm
          simp [h]
        · simp [hm]

theorem mem_of_entryOf? (h : entryOf? n entries = some u) : (n, u) ∈ entries := by
  induction entries with
  | nil => exact absurd h (by simp [entryOf?])
  | cons e entries ih =>
    rw [entryOf?] at h
    split at h
    · next heq => exact List.mem_cons.mpr (.inl (Prod.ext heq.symm (Option.some.inj h).symm))
    · exact List.mem_cons_of_mem _ (ih h)

theorem entryOf?_eq_some_iff (hsorted : entries.Pairwise fun e f => e.1 < f.1) :
    entryOf? n entries = some u ↔ (n, u) ∈ entries := by
  refine ⟨mem_of_entryOf?, fun h => ?_⟩
  induction entries with
  | nil => exact absurd h (by simp)
  | cons e entries ih =>
    rw [List.pairwise_cons] at hsorted
    rw [entryOf?]
    rcases List.mem_cons.mp h with rfl | h
    · exact if_pos rfl
    · have hlt : e.1 < n := hsorted.1 _ h
      rw [if_neg fun heq => List.lt_irrefl n (by rwa [heq] at hlt), ih hsorted.2 h]

theorem mem_putEntry {e : Name × FileTree} (h : e ∈ putEntry n u entries) :
    e = (n, u) ∨ e ∈ entries := by
  induction entries with
  | nil => exact .inl (by simpa [putEntry] using h)
  | cons f entries ih =>
    rw [putEntry] at h
    split at h
    · exact (List.mem_cons.mp h).imp_right (List.mem_cons_of_mem _)
    · split at h
      · exact List.mem_cons.mp h
      · rcases List.mem_cons.mp h with h | h
        · exact .inr (List.mem_cons.mpr (.inl h))
        · exact (ih h).imp_right (List.mem_cons_of_mem _)

theorem sorted_putEntry (hsorted : entries.Pairwise fun e f => e.1 < f.1) :
    (putEntry n u entries).Pairwise fun e f => e.1 < f.1 := by
  induction entries with
  | nil => exact List.pairwise_singleton _ _
  | cons e entries ih =>
    obtain ⟨k, v⟩ := e
    have hcons := List.pairwise_cons.mp hsorted
    rw [putEntry]
    split
    · next h =>
      subst h
      exact List.pairwise_cons.mpr hcons
    · next hne =>
      split
      · next hlt =>
        refine List.pairwise_cons.mpr ⟨fun f hf => ?_, hsorted⟩
        rcases List.mem_cons.mp hf with rfl | hf
        · exact hlt
        · exact List.lt_trans hlt (hcons.1 f hf)
      · next hlt =>
        have hkn : k < n :=
          (List.le_iff_lt_or_eq.mp (List.not_lt.mp hlt)).resolve_right hne
        refine List.pairwise_cons.mpr ⟨fun f hf => ?_, ih hcons.2⟩
        rcases mem_putEntry hf with rfl | hf
        · exact hkn
        · exact hcons.1 f hf

/-- Directories with the same entries are the same. -/
theorem eq_of_entryOf?_eq {others : List (Name × FileTree)}
    (h : entries.Pairwise fun e f => e.1 < f.1) (h' : others.Pairwise fun e f => e.1 < f.1)
    (heq : ∀ n, entryOf? n entries = entryOf? n others) : entries = others := by
  have hnodup {es : List (Name × FileTree)} (hs : es.Pairwise fun e f => e.1 < f.1) : es.Nodup := by
    refine hs.imp fun {e f} hlt heq => ?_
    rw [heq] at hlt
    exact List.lt_irrefl _ hlt
  have hperm : entries.Perm others := by
    refine (List.perm_ext_iff_of_nodup (hnodup h) (hnodup h')).mpr fun ⟨n, u⟩ => ?_
    rw [← entryOf?_eq_some_iff h, ← entryOf?_eq_some_iff h', heq]
  exact hperm.eq_of_pairwise
    (fun e f _ _ hlt hgt => absurd (List.lt_trans hlt hgt) (List.lt_irrefl _)) h h'

/-! ### Places -/

theorem at?_append (t : FileTree) (place other : Place) :
    t.at? (place ++ other) = (t.at? place).bind (·.at? other) := by
  induction place generalizing t with
  | nil => cases t <;> simp [at?]
  | cons n place ih =>
    cases t with
    | file bytes => rfl
    | directory entries =>
      simp only [List.cons_append, at?, Option.bind_assoc]
      exact congrArg _ (funext fun u => ih u)

theorem item?_eq_empty_iff :
    t.item? place = some empty ↔ ∃ entries, t.at? place = some (.directory entries) := by
  rw [item?, Option.map_eq_some_iff]
  constructor
  · rintro ⟨u, hu, hbare⟩
    cases u with
    | file bytes => exact absurd hbare (by simp [bare, empty])
    | directory entries => exact ⟨entries, hu⟩
  · rintro ⟨entries, h⟩
    exact ⟨_, h, rfl⟩

theorem item?_eq_file_iff :
    t.item? place = some (.file bytes) ↔ t.at? place = some (.file bytes) := by
  rw [item?, Option.map_eq_some_iff]
  constructor
  · rintro ⟨u, hu, hbare⟩
    cases u with
    | file bytes => rw [hu, ← hbare]; rfl
    | directory entries => exact absurd hbare (by simp [bare, empty])
  · exact fun h => ⟨_, h, rfl⟩

theorem item?_cases (t : FileTree) (place : Place) :
    t.item? place = none ∨ t.item? place = some empty ∨
      ∃ bytes, t.item? place = some (.file bytes) := by
  rw [item?]
  cases t.at? place with
  | none => exact .inl rfl
  | some u =>
    cases u with
    | file bytes => exact .inr (.inr ⟨bytes, rfl⟩)
    | directory entries => exact .inr (.inl rfl)

/-- Whatever has something in it is a directory. -/
theorem item?_eq_empty_of_append {item : FileTree} (h : t.item? (place ++ n :: names) = some item) :
    t.item? place = some empty := by
  obtain ⟨u, hu, -⟩ := Option.map_eq_some_iff.mp h
  rw [at?_append] at hu
  obtain ⟨w, hw, hbelow⟩ := Option.bind_eq_some_iff.mp hu
  cases w with
  | file bytes => exact absurd hbelow (by simp [at?])
  | directory entries => exact item?_eq_empty_iff.mpr ⟨entries, hw⟩

theorem item?_cons (entries : List (Name × FileTree)) (n : Name) (place : Place) :
    (directory entries).item? (n :: place) = (entryOf? n entries).bind (·.item? place) := by
  rw [item?, at?, Option.map_bind]
  rfl

theorem item?_cons_of_bare (h : bare new = new) (n : Name) (place : Place) :
    new.item? (n :: place) = none := by
  cases new with
  | file bytes => rfl
  | directory entries =>
    rw [← h]
    rfl

/-- What is at the places of a directory, after an entry that has nothing in it was put there. -/
theorem item?_put_name {entries : List (Name × FileTree)} (hnew : bare new = new)
    (h : (directory entries).item? [n] ≠ some empty) (other : Place) :
    (put new (directory entries) [n]).item? other =
      if other = [n] then some new else (directory entries).item? other := by
  rw [put]
  cases other with
  | nil => rfl
  | cons m other =>
    rw [item?_cons, item?_cons, entryOf?_putEntry, put]
    by_cases hm : m = n
    · subst hm
      rw [if_pos rfl, Option.bind_some]
      cases other with
      | nil => simp [item?, at?, hnew]
      | cons k other =>
        rw [item?_cons_of_bare hnew, if_neg (by simp), eq_comm, ← item?_cons]
        by_contra hsome
        obtain ⟨item, hitem⟩ := Option.ne_none_iff_exists'.mp hsome
        exact h (item?_eq_empty_of_append
          (show (directory entries).item? ([m] ++ k :: other) = some item from hitem))
    · rw [if_neg hm, if_neg (by simp [hm])]

/-- What is at the places of a tree, after a file or an empty directory was put into one of its
directories, where no directory was. -/
theorem item?_put (hplace : t.item? place = some empty) (hnew : bare new = new)
    (h : t.item? (place ++ [n]) ≠ some empty) (other : Place) :
    (put new t (place ++ [n])).item? other =
      if other = place ++ [n] then some new else t.item? other := by
  obtain ⟨entries, hat⟩ := item?_eq_empty_iff.mp hplace
  clear hplace
  induction place generalizing t other with
  | nil =>
    obtain rfl : t = directory entries := by simpa [at?] using hat
    exact item?_put_name hnew h other
  | cons k place ih =>
    obtain ⟨es, rfl⟩ : ∃ es, t = directory es := by
      cases t with
      | file bytes => exact absurd hat (by simp [at?])
      | directory es => exact ⟨es, rfl⟩
    obtain ⟨u, hu, hbelow⟩ := Option.bind_eq_some_iff.mp hat
    rw [List.cons_append, item?_cons, hu, Option.bind_some] at h
    rw [List.cons_append, put, hu, Option.getD_some]
    cases other with
    | nil => rfl
    | cons m other =>
      rw [item?_cons, item?_cons, entryOf?_putEntry]
      by_cases hm : m = k
      · subst hm
        rw [if_pos rfl, Option.bind_some, hu, Option.bind_some, ih h other hbelow]
        simp
      · rw [if_neg hm, if_neg (by simp [hm])]

/-! ### Proper trees -/

theorem IsProper.at? (ht : IsProper t) (h : t.at? place = some u) :
    IsProper u ∧ ∀ n ∈ place, IsName n := by
  induction place generalizing t with
  | nil =>
    obtain rfl : t = u := by simpa [FileTree.at?] using h
    exact ⟨ht, by simp⟩
  | cons n place ih =>
    cases ht with
    | file bytes => exact absurd h (by simp [FileTree.at?])
    | directory sorted hnames htrees =>
      obtain ⟨w, hw, hbelow⟩ := Option.bind_eq_some_iff.mp h
      have hmem := mem_of_entryOf? hw
      obtain ⟨hu, hplace⟩ := ih (htrees _ hmem) hbelow
      exact ⟨hu, List.forall_mem_cons.mpr ⟨hnames _ hmem, hplace⟩⟩

theorem isProper_empty : IsProper empty := .directory .nil (by simp) (by simp)

theorem isProper_cons (hn : IsName n) (hlt : ∀ e ∈ entries, n < e.1) (hu : IsProper u)
    (h : IsProper (.directory entries)) : IsProper (.directory ((n, u) :: entries)) := by
  cases h with
  | directory sorted hnames htrees =>
    exact .directory (List.pairwise_cons.mpr ⟨hlt, sorted⟩)
      (List.forall_mem_cons.mpr ⟨hn, hnames⟩) (List.forall_mem_cons.mpr ⟨hu, htrees⟩)

theorem IsProper.put (ht : IsProper t) (hnew : IsProper new) (hplace : ∀ n ∈ place, IsName n) :
    IsProper (put new t place) := by
  induction place generalizing t with
  | nil => rwa [FileTree.put]
  | cons n place ih =>
    rw [List.forall_mem_cons] at hplace
    cases ht with
    | file bytes => exact .file bytes
    | @directory entries sorted hnames htrees =>
      have hentry : IsProper ((entryOf? n entries).getD empty) := by
        cases h : entryOf? n entries with
        | none => exact isProper_empty
        | some u => exact htrees _ (mem_of_entryOf? h)
      refine .directory (sorted_putEntry sorted) (fun e he => ?_) fun e he => ?_
      · rcases mem_putEntry he with rfl | he
        · exact hplace.1
        · exact hnames e he
      · rcases mem_putEntry he with rfl | he
        · exact ih hentry hplace.2
        · exact htrees e he

/-- Proper trees with the same at each place are the same. -/
theorem IsProper.ext (ht : IsProper t) (hu : IsProper u)
    (h : ∀ place, t.item? place = u.item? place) : t = u := by
  induction ht generalizing u with
  | file bytes =>
    have := item?_eq_file_iff.mp ((h []).symm.trans rfl)
    simpa [FileTree.at?] using this.symm
  | @directory entries sorted hnames htrees ih =>
    obtain ⟨others, hothers⟩ := item?_eq_empty_iff.mp ((h []).symm.trans rfl)
    obtain rfl : u = FileTree.directory others := by simpa [FileTree.at?] using hothers
    cases hu with
    | directory sorted' hnames' htrees' =>
      refine congrArg _ (eq_of_entryOf?_eq sorted sorted' fun n => ?_)
      have hplaces := fun place => h (n :: place)
      simp only [item?_cons] at hplaces
      cases hn : entryOf? n entries with
      | none =>
        cases hn' : entryOf? n others with
        | none => rfl
        | some w => exact absurd (hplaces []) (by simp [hn, hn', item?, FileTree.at?])
      | some v =>
        cases hn' : entryOf? n others with
        | none => exact absurd (hplaces []) (by simp [hn, hn', item?, FileTree.at?])
        | some w =>
          simp only [hn, hn', Option.bind_some] at hplaces
          exact congrArg some (ih _ (mem_of_entryOf? hn) (htrees' _ (mem_of_entryOf? hn')) hplaces)

/-! ### The files of a tree -/

theorem entriesFiles_eq (p : Path) (entries : List (Name × FileTree)) :
    entriesFiles p entries = entries.flatMap fun e => files (p.join e.1) e.2 := by
  induction entries with
  | nil => simp [entriesFiles]
  | cons e entries ih => rw [entriesFiles, ih, List.flatMap_cons]

/-- The files of a tree are at its places, and their paths are made of the names that lead there. -/
theorem exists_of_mem_files (ht : IsProper t) {file : Path} (h : file ∈ t.files p) :
    ∃ place bytes, t.at? place = some (.file bytes) ∧ file = place.foldl Path.join p := by
  induction ht generalizing p with
  | file bytes =>
    rw [files, List.mem_singleton] at h
    exact ⟨[], bytes, rfl, h⟩
  | @directory entries sorted hnames htrees ih =>
    rw [files, entriesFiles_eq, List.mem_flatMap] at h
    obtain ⟨e, he, hfile⟩ := h
    obtain ⟨place, bytes, hat, rfl⟩ := ih e he hfile
    refine ⟨e.1 :: place, bytes, ?_, rfl⟩
    rw [at?, (entryOf?_eq_some_iff sorted).mpr he]
    exact hat

theorem exists_below_of_mem_files (ht : IsProper t) (hp : p ≠ []) (hn : IsName n) {file : Path}
    (h : file ∈ t.files (p.join n)) :
    ∃ names, (∀ m ∈ names, IsName m) ∧ file = Path.below p.trunk (n :: names) := by
  obtain ⟨names, bytes, hat, rfl⟩ := exists_of_mem_files ht h
  have hnames := (ht.at? hat).2
  exact ⟨names, hnames, Path.foldl_join hp hn.toIsStep fun m hm => (hnames m hm).toIsStep⟩

/-- No file is met twice. -/
theorem nodup_files (ht : IsProper t) (hp : p ≠ []) : (t.files p).Nodup := by
  induction ht generalizing p with
  | file bytes =>
    rw [files]
    exact List.nodup_singleton p
  | @directory entries sorted hnames htrees ih =>
    rw [files, entriesFiles_eq, List.nodup_flatMap]
    have hjoin (n : Name) (hn : IsName n) : p.join n ≠ [] := by
      have : p.join n = Path.below p.trunk [n] := by simpa using Path.join_below hp hn.toIsStep []
      simp [this, Path.below]
    refine ⟨fun e he => ih e he (hjoin _ (hnames e he)), ?_⟩
    refine sorted.imp_of_mem fun {e f} he hf hlt file hfile hfile' => ?_
    obtain ⟨names, hall, heq⟩ := exists_below_of_mem_files (htrees e he) hp (hnames e he) hfile
    obtain ⟨names', hall', heq'⟩ := exists_below_of_mem_files (htrees f hf) hp (hnames f hf) hfile'
    have hslash {n : Name} {names : List Name} (hn : IsName n) (hnames : ∀ m ∈ names, IsName m) :
        ∀ m ∈ n :: names, '/' ∉ m :=
      List.forall_mem_cons.mpr ⟨hn.slash_notMem, fun m hm => (hnames m hm).slash_notMem⟩
    have hsame := Path.below_inj (hslash (hnames e he) hall) (hslash (hnames f hf) hall')
      (heq.symm.trans heq')
    rw [(List.cons.inj hsame).1] at hlt
    exact List.lt_irrefl _ hlt

end WikiPress.FileTree
