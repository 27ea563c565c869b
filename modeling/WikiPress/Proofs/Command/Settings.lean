import WikiPress.Command.Program
import WikiPress.Proofs.Command.Script
import WikiPress.Proofs.Text.Offset

/-!
# The settings that pages are rendered with

A configuration is checked when it is loaded.  The settings of a command line come before those of
the configuration, and they are not checked again: whatever they are, the configuration stays valid,
unless the number of jobs on the command line is zero, which is accepted as any other number is.

## Main results

* `Config.validate_eq_ok_iff` : the check is for jobs and for patterns, and for nothing else.
* `Config.exists_load_eq` : a configuration that is loaded is valid, and loading changes no file.
* `Overrides.validate_apply_eq` : the check of a configuration under the settings of a command line.
* `Program.validate_apply` : when the configuration that pages are rendered with is valid.
-/

namespace WikiPress

open FileTree

variable {c : Config} {o : Overrides} {t u : FileTree}

/-! ### Valid configurations -/

namespace Processor

/-- Whether there is a processor depends on the two patterns alone. -/
theorem isSome_ofOptions? [PatternLibrary] [UrlParser] (o : MarkdownOptions) :
    (ofOptions? o).isSome = ((Slugger.ofOptions? o.wiki.toc.slugify).isSome &&
      (Slugger.ofOptions? o.wiki.wikilinks.slugify).isSome) := by
  rw [ofOptions?]
  cases Slugger.ofOptions? o.wiki.toc.slugify with
  | none => rfl
  | some anchors => rw [Option.bind_some, Option.isSome_map, Option.isSome_some, Bool.true_and]

end Processor

/-- Reading a file changes none. -/
theorem FileTree.exists_readText_eq (t : FileTree) (p : Path) :
    ∃ r, FileStore.readText (m := StateM FileTree) p t = (r, t) := by
  have hread : FileStore.read (m := StateM FileTree) p t = (t.read p, t) := rfl
  simp only [FileStore.readText, bind, StateT.bind, hread]
  cases t.read p with
  | error e => exact ⟨_, rfl⟩
  | ok bytes =>
    dsimp only
    cases String.fromUTF8? bytes <;> exact ⟨_, rfl⟩

namespace Config

/-- Looking for a file changes no file. -/
theorem exists_findFirst?_eq (t : FileTree) (paths : List Path) :
    ∃ found, findFirst? (m := StateM FileTree) paths t = (found, t) := by
  induction paths with
  | nil => exact ⟨none, rfl⟩
  | cons p paths ih =>
    have hfile : FileStore.isFile (m := StateM FileTree) p t =
        (decide ((t.find p).toOption.map kind = some .file), t) := rfl
    simp only [findFirst?, bind, StateT.bind, hfile]
    split
    · exact ⟨some p, rfl⟩
    · exact ih

variable [PatternLibrary] [UrlParser]

theorem validate_eq (c : Config) : c.validate =
    if c.jobs = some 0 then .error .noJobs
    else if (Processor.ofOptions? c.markdown).isSome then .ok () else .error .badPattern := by
  rw [validate, processor]
  cases Processor.ofOptions? c.markdown <;> rfl

/-- What is checked is that there are jobs, and that there is a processor. -/
theorem validate_eq_ok_iff :
    c.validate = .ok () ↔ c.jobs ≠ some 0 ∧ (Processor.ofOptions? c.markdown).isSome = true := by
  rw [validate_eq]
  by_cases hjobs : c.jobs = some 0
  · simp [hjobs]
  · cases Processor.ofOptions? c.markdown <;> simp [hjobs]

theorem validate_default : ({} : Config).validate = .ok () := by rfl

/-! ### Loading -/

theorem validate_of_ofDocument {document : Json} (h : ofDocument document = .ok c) :
    c.validate = .ok () := by
  rw [ofDocument] at h
  cases hshape : checkShape document with
  | error e =>
    rw [hshape] at h
    exact nomatch h
  | ok _ =>
    cases hread : ofJson? document with
    | none =>
      rw [hshape, hread] at h
      exact nomatch h
    | some d =>
      cases hvalid : d.validate with
      | error e =>
        simp only [hshape, hread, hvalid] at h
        exact nomatch h
      | ok _ =>
        simp only [hshape, hread, hvalid] at h
        obtain rfl : d = c := Except.ok.inj h
        exact hvalid

theorem validate_of_ofText {format : ConfigFormat} {s : List Char} (h : ofText format s = .ok c) :
    c.validate = .ok () := by
  rw [ofText] at h
  cases hdocument : documentOfText format s with
  | error e =>
    rw [hdocument] at h
    exact nomatch h
  | ok document =>
    rw [hdocument] at h
    exact validate_of_ofDocument h

/-- The configuration of a file is valid, and reading it changes no file. -/
theorem exists_ofFile_eq (t : FileTree) (p : Path) :
    ∃ r, ofFile (m := StateM FileTree) p t = (r, t) ∧ ∀ c, r = .ok c → c.validate = .ok () := by
  obtain ⟨read, hread⟩ := exists_readText_eq t p
  simp only [ofFile, bind, StateT.bind, hread]
  cases read with
  | error e => exact ⟨_, rfl, by simp⟩
  | ok s =>
    refine ⟨_, rfl, fun c h => ?_⟩
    cases hformat : formatOf p with
    | error e => exact absurd h (by simp [hformat, Except.bind])
    | ok format =>
      rw [hformat] at h
      exact validate_of_ofText h

/-- A configuration that is loaded is valid: it was checked when its file was read, or it is the
usual one.  Loading it changes no file. -/
theorem exists_load_eq (t : FileTree) (named : Option Path) :
    ∃ r, load (m := StateM FileTree) named t = (r, t) ∧ ∀ c, r = .ok c → c.validate = .ok () := by
  cases named with
  | some p => exact exists_ofFile_eq t p
  | none =>
    obtain ⟨found, hfound⟩ := exists_findFirst?_eq t (fileNames.map String.toList)
    simp only [load, find?, bind, StateT.bind, hfound]
    cases found with
    | some p => exact exists_ofFile_eq t p
    | none =>
      refine ⟨.ok {}, rfl, fun c h => ?_⟩
      rw [← Except.ok.inj h]
      exact validate_default

end Config

/-! ### Settings that come before those of a configuration -/

namespace Overrides

theorem jobs_apply (o : Overrides) (c : Config) : (o.apply c).jobs = o.jobs.or c.jobs := rfl

variable [PatternLibrary] [UrlParser]

/-- Whatever comes before the settings of a configuration, the patterns stay as they are. -/
theorem isSome_ofOptions?_apply (o : Overrides) (c : Config) :
    (Processor.ofOptions? (o.apply c).markdown).isSome =
      (Processor.ofOptions? c.markdown).isSome := by
  rw [Processor.isSome_ofOptions?, Processor.isSome_ofOptions?]
  rfl

/-- There are no jobs exactly if the command line asks for none. -/
theorem jobs_apply_eq_zero_iff (hc : c.validate = .ok ()) :
    (o.apply c).jobs = some 0 ↔ o.jobs = some 0 := by
  rw [jobs_apply]
  cases o.jobs with
  | none => simpa using (Config.validate_eq_ok_iff.mp hc).1
  | some n => rfl

/-- A valid configuration stays valid, unless it is given no jobs. -/
theorem validate_apply_eq (o : Overrides) (hc : c.validate = .ok ()) :
    (o.apply c).validate = if o.jobs = some 0 then .error .noJobs else .ok () := by
  rw [Config.validate_eq, isSome_ofOptions?_apply, if_pos (Config.validate_eq_ok_iff.mp hc).2]
  simp only [jobs_apply_eq_zero_iff hc]

end Overrides

/-! ### The command line -/

namespace CommandLine

/-- An open switch takes an argument as its value, unless this begins with a hyphen. -/
theorem readArguments_value {g : Grammar} {r : Reading} {arg : String}
    (hr : r.awaitsValue = true) (harg : arg.toList.head? ≠ some '-') :
    readArguments g r [arg] = .ok (r.giveValue arg, none) := by
  rw [readArguments, hr, Bool.not_true, Bool.false_and, if_neg Bool.false_ne_true]
  split
  · next h => exact absurd (congrArg List.head? h) harg
  · next h => exact absurd (congrArg List.head? h) harg
  · next h => exact absurd (congrArg List.head? h) harg
  · rfl

/-- Any number is a value of the switch for jobs. -/
theorem readAll_jobs {d : String} {n : Nat} (hd : d.toList.head? ≠ some '-')
    (hn : Text.readNumber? Text.mostWord d.toList = some n) :
    readAll renderGrammar ["--jobs", d] = .ok { values := [("jobs", d)] } := by
  have hread : readArguments renderGrammar { pending := some ("jobs", .number, none) } [d] =
      .ok ({ pending := some ("jobs", .number, some d) }, none) :=
    readArguments_value rfl hd
  have hcheck : ValueKind.number.check d = .ok () := by
    rw [ValueKind.check, hn]
    rfl
  show (readArguments renderGrammar { pending := some ("jobs", .number, none) } [d]).bind _ = _
  rw [hread]
  show (ValueKind.number.check d).map _ = _
  rw [hcheck]
  rfl

end CommandLine

open CommandLine

namespace Invocation

/-- Any number of jobs is accepted. -/
theorem ofArguments_of_readNumber? {d : String} {n : Nat} (hd : d.toList.head? ≠ some '-')
    (hn : Text.readNumber? Text.mostWord d.toList = some n) :
    ofArguments ["render", "--jobs", d] = .ok { request := .render { jobs := some n } } := by
  rw [← hn]
  show ((readAll renderGrammar ["--jobs", d]).map _).bind _ = _
  rw [readAll_jobs hd hn]
  rfl

/-- Numbers of jobs are accepted in the usual spelling, that of zero among them. -/
theorem ofArguments_jobs {n : Nat} (hn : n ≤ Text.mostWord) :
    ofArguments ["render", "--jobs", String.ofList (Nat.toDigits 10 n)] =
      .ok { request := .render { jobs := some n } } := by
  refine ofArguments_of_readNumber? ?_ ?_
  · rw [String.toList_ofList]
    intro hhyphen
    have hdigit : Char.isDigit '-' = true :=
      Nat.isDigit_of_mem_toDigits (by decide) (by decide) (List.mem_of_head? hhyphen)
    exact absurd hdigit (by decide)
  · rw [String.toList_ofList]
    exact Text.readNumber?_toDigits hn

end Invocation

/-! ### What reaches rendering -/

namespace Program

section

variable [PatternLibrary] [UrlParser] {i : Invocation}

/-- Nothing is rendered without a configuration. -/
theorem run_perform_of_error {e : ConfigError} (hi : i.request = .render o)
    (hload : Config.load (m := StateM FileTree) (i.configFile.map String.toList) t =
      (.error e, u)) :
    (perform i : Command (StateM FileTree) String).run t = (.error (.noConfig e), u) := by
  obtain ⟨request, verbose, configFile⟩ := i
  obtain rfl : request = .render o := hi
  exact Command.run_bind_of_error (Command.run_attempt hload)

/-- What is rendered with is the configuration under the settings of the command line. -/
theorem run_perform_of_ok (hi : i.request = .render o)
    (hload : Config.load (m := StateM FileTree) (i.configFile.map String.toList) t = (.ok c, u)) :
    (perform i : Command (StateM FileTree) String).run t =
      (do return (← Command.render (o.apply c)).printed :
        Command (StateM FileTree) String).run u := by
  obtain ⟨request, verbose, configFile⟩ := i
  obtain rfl : request = .render o := hi
  exact Command.run_bind_of_ok (Command.run_attempt hload)

/-- A valid configuration stays valid under the settings of a command line, exactly if these do not
ask for zero jobs.  What reaches rendering is a valid configuration under such settings, and any
number of jobs is accepted for them. -/
theorem validate_apply (o : Overrides) :
    (∀ c : Config, c.validate = .ok () →
      ((o.apply c).validate = .ok () ↔ o.jobs ≠ some 0) ∧
      ((o.apply c).jobs = some 0 ↔ o.jobs = some 0)) ∧
    (∀ i : Invocation, ∀ t : FileTree, i.request = .render o →
      (∃ e, (perform i : Command (StateM FileTree) String).run t = (.error (.noConfig e), t)) ∨
      ∃ c : Config, c.validate = .ok () ∧
        (perform i : Command (StateM FileTree) String).run t =
          (do return (← Command.render (o.apply c)).printed :
            Command (StateM FileTree) String).run t) ∧
    ∀ n ≤ Text.mostWord, o = { jobs := some n } →
      Invocation.ofArguments ["render", "--jobs", String.ofList (Nat.toDigits 10 n)] =
        .ok { request := .render o } := by
  refine ⟨fun c hc => ⟨?_, Overrides.jobs_apply_eq_zero_iff hc⟩, fun i t hi => ?_, ?_⟩
  · rw [Overrides.validate_apply_eq o hc]
    split <;> simp [*]
  · obtain ⟨r, hload, hvalid⟩ := Config.exists_load_eq t (i.configFile.map String.toList)
    cases r with
    | error e => exact .inl ⟨e, run_perform_of_error hi hload⟩
    | ok c => exact .inr ⟨c, hvalid c rfl, run_perform_of_ok hi hload⟩
  · rintro n hn rfl
    exact Invocation.ofArguments_jobs hn

end

/-- Four jobs for the usual configuration. -/
theorem validate_apply_fourJobs :
    ({} : Config).validate = .ok () ∧
      (Overrides.apply { jobs := some 4 } {}).validate = .ok () ∧
      Invocation.ofArguments ["render", "--jobs", "4"] =
        .ok { request := .render { jobs := some 4 } } := by
  obtain ⟨hvalid, -, haccepted⟩ := validate_apply { jobs := some 4 }
  exact ⟨Config.validate_default, (hvalid {} Config.validate_default).1.mpr (by decide),
    haccepted 4 (by decide) rfl⟩

/-- The usual configuration is given no jobs by the command line, which the check refuses. -/
theorem exists_validate_apply_ne :
    ∃ c : Config, ∃ o : Overrides, c.validate = .ok () ∧
      Invocation.ofArguments ["render", "-p", "0"] = .ok { request := .render o } ∧
      (o.apply c).jobs = some 0 ∧ (o.apply c).validate = .error .noJobs :=
  ⟨{}, { jobs := some 0 }, Config.validate_default, by rfl, rfl, rfl⟩

end Program

end WikiPress
