import WikiPress.Command.Init
import WikiPress.Proofs.Command.Script
import WikiPress.Proofs.Files.Directories

/-!
# What a refused `init` leaves behind

The command `init` refuses to replace a file before it does anything else.  A format that is not
known is refused when its template is looked up, and by then the directory of the file has been
made.

## Main definitions

* `Path.directories` : the directory of a file and those around it.
* `Command.HasParent` : no directory has to be made for a file.

## Main results

* `Command.makeParent_run` : what is done for the directory of a file.
* `Command.init_cases` : why `init` fails, and what it did up to then.
* `Command.init_refused` : when a refused `init` leaves everything as it was.
-/

namespace WikiPress

open FileTree FileStore

variable {t u : FileTree} {p parent output : Path} {format : String} {force : Bool}

namespace Path

/-- The directory of a file and those around it. -/
def directories (p : Path) : List Path := p.parent?.elim [] selfAndParents

end Path

namespace Command

/-- No directory has to be made for a file: its directory is there, or it is the working directory
or the root. -/
def HasParent (t : FileTree) (p : Path) : Prop :=
  ∀ parent ∈ p.parent?, parent.selfAndParents = [] ∨ (t.find parent).isOk

variable {r : Except CommandError Unit} {e : CommandError}

/-! ### The directory of the file -/

theorem run_makeParent_of_none (hparent : p.parent? = none) :
    (makeParent p : Command (StateM FileTree) Unit).run t = (.ok (), t) := by
  rw [makeParent, hparent]
  rfl

theorem run_makeParent_of_some (hparent : p.parent? = some parent) :
    (makeParent p : Command (StateM FileTree) Unit).run t =
      if parent.isEmpty || (t.find parent).isOk then (.ok (), t)
      else (attempt (.noDirectory parent)
        (makeDirectories (m := StateM FileTree) parent)).run t := by
  rw [makeParent, hparent]
  dsimp only
  cases hempty : parent.isEmpty with
  | true => rfl
  | false =>
    rw [if_neg Bool.false_ne_true, run_bind_of_ok (run_liftM (exists?_eq t parent))]
    cases (t.find parent).isOk <;> rfl

/-- Nothing is done if no directory has to be made. -/
theorem HasParent.run_makeParent (h : HasParent t p) :
    (makeParent p : Command (StateM FileTree) Unit).run t = (.ok (), t) := by
  cases hparent : p.parent? with
  | none => exact run_makeParent_of_none hparent
  | some parent =>
    rw [run_makeParent_of_some hparent]
    split
    · rfl
    · next hnot =>
      rw [Bool.or_eq_true, not_or] at hnot
      rw [makeDirectories, (h parent hparent).resolve_right hnot.2]
      exact run_attempt rfl

/-- Otherwise the directory of the file is made with those around it. -/
theorem exists_of_run_makeParent (hnot : ¬HasParent t p)
    (h : (makeParent p : Command (StateM FileTree) Unit).run t = (r, u)) :
    ∃ parent made, p.parent? = some parent ∧ parent.selfAndParents.head? = some parent ∧
      makeEach (m := StateM FileTree) parent.selfAndParents t = (made, u) ∧
      r = made.mapError (.noDirectory parent) := by
  simp only [HasParent, not_forall, not_or] at hnot
  obtain ⟨parent, hparent, htop, hmissing⟩ := hnot
  obtain ⟨around, haround⟩ := parent.selfAndParents_cases.resolve_left htop
  have hempty : parent.isEmpty = false := by
    rw [List.isEmpty_eq_false_iff]
    rintro rfl
    exact htop rfl
  obtain ⟨made, v, hmade⟩ :
      ∃ made v, makeDirectories (m := StateM FileTree) parent t = (made, v) := ⟨_, _, rfl⟩
  rw [run_makeParent_of_some hparent, hempty, Bool.false_or, if_neg hmissing,
    run_attempt hmade] at h
  obtain ⟨rfl, rfl⟩ := Prod.mk.inj h
  exact ⟨parent, made, hparent, by rw [haround, List.head?_cons], hmade, rfl⟩

/-- The directory of a file is made with those around it as far as they are missing, and nothing
else is done; if this succeeds, the directory is there, and otherwise the error says so. -/
theorem makeParent_run (h : (makeParent p : Command (StateM FileTree) Unit).run t = (r, u)) :
    AddsDirectories t u p.directories ∧ (r = .ok () → HasParent u p) ∧
      ∀ e, r = .error e → ∃ parent reason, e = .noDirectory parent reason := by
  by_cases hhas : HasParent t p
  · rw [hhas.run_makeParent] at h
    obtain ⟨rfl, rfl⟩ := Prod.mk.inj h
    exact ⟨.refl t _, fun _ => hhas, fun e he => nomatch he⟩
  · obtain ⟨parent, made, hparent, hhead, hmade, rfl⟩ := exists_of_run_makeParent hhas h
    obtain ⟨hadds, hfound⟩ := makeEach_run hmade
    refine ⟨by rwa [Path.directories, hparent], ?_, ?_⟩
    · intro hr q hq
      obtain rfl : parent = q := Option.some.inj (hparent.symm.trans hq)
      cases made with
      | ok _ => exact .inr (hfound rfl parent hhead)
      | error reason => exact nomatch hr
    · intro e he
      cases made with
      | ok _ => exact nomatch he
      | error reason => exact ⟨parent, reason, (Except.error.inj he).symm⟩

/-! ### The whole command -/

theorem run_init (t : FileTree) :
    (init output format force : Command (StateM FileTree) Unit).run t =
      if !force && (t.find output).isOk then (.error (.alreadyExists output), t)
      else (do
        makeParent output
        attempt (.noTemplate output) (Config.writeTemplate (m := StateM FileTree) format output) :
          Command (StateM FileTree) Unit).run t := by
  rw [init, run_bind_of_ok (run_liftM (exists?_eq t output))]
  cases !force && (t.find output).isOk <;> rfl

/-- A template that cannot be written changes nothing, and its format is refused only if it is not
known. -/
theorem writeTemplate_of_error {reason : ConfigError}
    (h : Config.writeTemplate (m := StateM FileTree) format output t = (.error reason, u)) :
    u = t ∧ (reason = .unknownFormat format → ConfigFormat.ofName? format.toList = none) := by
  rw [Config.writeTemplate] at h
  cases hformat : ConfigFormat.ofName? format.toList with
  | none =>
    rw [hformat] at h
    exact ⟨(Prod.mk.inj h).2.symm, fun _ => rfl⟩
  | some f =>
    simp only [hformat, writeText, bind, StateT.bind] at h
    cases hwrite : t.write output f.template.toUTF8 with
    | ok v =>
      have hstep : FileStore.write (m := StateM FileTree) output f.template.toUTF8 t =
          (.ok (), v) := update_of_ok hwrite
      rw [hstep] at h
      exact nomatch (Prod.mk.inj h).1
    | error failure =>
      have hstep : FileStore.write (m := StateM FileTree) output f.template.toUTF8 t =
          (.error failure, t) := update_of_error hwrite
      rw [hstep] at h
      obtain ⟨hreason, rfl⟩ := Prod.mk.inj h
      obtain rfl : ConfigError.unwritable output failure = reason := Except.error.inj hreason
      exact ⟨rfl, fun hunknown => nomatch hunknown⟩

/-- Why `init` fails: the file is there, its directory cannot be made, or else this is done and the
template cannot be written. -/
theorem init_cases
    (h : (init output format force : Command (StateM FileTree) Unit).run t = (.error e, u)) :
    (e = .alreadyExists output ∧ u = t ∧ force = false ∧ (t.find output).isOk) ∨
      (makeParent output : Command (StateM FileTree) Unit).run t = (.error e, u) ∨
      ∃ reason, e = .noTemplate output reason ∧
        (makeParent output : Command (StateM FileTree) Unit).run t = (.ok (), u) ∧
        ¬(force = false ∧ (t.find output).isOk) ∧
        (reason = .unknownFormat format → ConfigFormat.ofName? format.toList = none) := by
  rw [run_init] at h
  split at h
  · next hthere =>
    obtain ⟨hrefused, rfl⟩ := Prod.mk.inj h
    exact .inl ⟨(Except.error.inj hrefused).symm, rfl, by simpa using hthere⟩
  · next hnot =>
    obtain ⟨made, v, hmade⟩ : ∃ made v,
        (makeParent output : Command (StateM FileTree) Unit).run t = (made, v) := ⟨_, _, rfl⟩
    cases made with
    | error failure =>
      rw [run_bind_of_error hmade] at h
      exact .inr (.inl (hmade.trans h))
    | ok _ =>
      obtain ⟨written, w, hwritten⟩ : ∃ written w,
          Config.writeTemplate (m := StateM FileTree) format output v = (written, w) := ⟨_, _, rfl⟩
      rw [run_bind_of_ok hmade, run_attempt hwritten] at h
      obtain ⟨hfailed, rfl⟩ := Prod.mk.inj h
      cases written with
      | ok _ => exact nomatch hfailed
      | error reason =>
        obtain ⟨rfl, hunknown⟩ := writeTemplate_of_error hwritten
        exact .inr (.inr ⟨reason, (Except.error.inj hfailed).symm, hmade, by simpa using hnot,
          hunknown⟩)

/-- What a refused `init` leaves behind.  A file that is there is refused before anything is done.
If the format is refused, nothing is changed or taken away, and no file is made, but the directory
of the file is made with those around it unless it is there. -/
theorem init_refused
    (h : (init output format force : Command (StateM FileTree) Unit).run t = (.error e, u))
    (he : e = .alreadyExists output ∨ e = .noTemplate output (.unknownFormat format)) :
    AddsDirectories t u output.directories ∧
      (u = t ↔ e = .alreadyExists output ∨ HasParent t output) ∧
      (e = .alreadyExists output ↔ force = false ∧ (t.find output).isOk) ∧
      (e ≠ .alreadyExists output → ConfigFormat.ofName? format.toList = none) := by
  rcases init_cases h with ⟨rfl, rfl, hthere⟩ | hmade | ⟨reason, rfl, hmade, hnot, hunknown⟩
  · exact ⟨.refl u _, by simp, by simpa using hthere, fun hne => absurd rfl hne⟩
  · obtain ⟨parent, reason, rfl⟩ := (makeParent_run hmade).2.2 e rfl
    exact absurd he (by simp)
  · obtain ⟨hadds, hhas, -⟩ := makeParent_run hmade
    have hkept : u = t ↔ HasParent t output := by
      constructor
      · rintro rfl
        exact hhas rfl
      · intro hbefore
        exact (Prod.mk.inj (hmade.symm.trans hbefore.run_makeParent)).2
    have hreason : reason = .unknownFormat format := by simpa using he
    exact ⟨hadds, by simp [hkept], by simpa using hnot, fun _ => hunknown hreason⟩

/-- An unknown format for a file in the working directory. -/
theorem init_refused_workingDirectory :
    (init "x.toml".toList "yaml" false : Command (StateM FileTree) Unit).run empty =
        (.error (.noTemplate "x.toml".toList (.unknownFormat "yaml")), empty) ∧
      HasParent empty "x.toml".toList ∧ ConfigFormat.ofName? "yaml".toList = none := by
  have hrun : (init "x.toml".toList "yaml" false : Command (StateM FileTree) Unit).run empty =
      (.error (.noTemplate "x.toml".toList (.unknownFormat "yaml")), empty) := by rfl
  obtain ⟨-, hkept, -, hunknown⟩ := init_refused hrun (.inr rfl)
  exact ⟨hrun, (hkept.mp rfl).resolve_left (by simp), hunknown (by simp)⟩

/-- An unknown format for a file whose directory is missing: the directory is made, wherever the
path of the file starts. -/
theorem exists_init_refused_ne :
    ∃ t u : FileTree, u ≠ t ∧ ∀ output ∈ ["new/x.toml".toList, "/new/x.toml".toList],
      (init output "yaml" false : Command (StateM FileTree) Unit).run t =
        (.error (.noTemplate output (.unknownFormat "yaml")), u) := by
  refine ⟨empty, .directory [("new".toList, empty)], by simp [empty], ?_⟩
  simp only [List.forall_mem_cons, List.not_mem_nil, false_imp_iff, implies_true, and_true]
  exact ⟨by rfl, by rfl⟩

end Command

end WikiPress
