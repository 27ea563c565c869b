import Mathlib.Data.List.Forall2
import WikiPress.Files.Script
import WikiPress.Proofs.Files.Operation

/-!
# What scripts leave behind

While several scripts share a tree, each of them finds more in it than it has put there.  What is
said about a script must therefore hold whatever the others add.  `Script.Safe` says so for an
invariant of the tree that all scripts keep, and for changes that take nothing away.

## Main definitions

* `Script.Safe` : in a tree that grows, a script keeps the invariant, takes nothing away, and ends
  with a postcondition.

## Main results

* `Script.Safe.bind` : scripts one after the other.
* `Script.Safe.run` : a safe script that runs alone.
* `Script.isProper_run` : all trees that scripts make of a proper one are proper.
* `Pool.inevitably_of_safe` : safe scripts that share a tree come to an end in any order of their
  requests, and each postcondition holds in the tree at the end.
-/

namespace WikiPress

open FileTree

namespace Script

variable {α β : Type} {good : FileTree → Prop} {post post' : α → FileTree → Prop}
  {s : Script α} {t u : FileTree}

/-- From any tree that has what `t` has and satisfies the invariant `good`, a script answers to the
invariant, takes nothing away, and ends with a value for which `post` holds.  Between two requests
others may add to the tree. -/
def Safe (good : FileTree → Prop) (post : α → FileTree → Prop) : FileTree → Script α → Prop
  | t, done a => ∀ u, good u → Keeps t u → post a u
  | t, ask r next => ∀ u, good u → Keeps t u →
      good (r.perform u).2 ∧ Keeps u (r.perform u).2 ∧
        Safe good post (r.perform u).2 (next (r.perform u).1)

theorem Safe.keeps (h : Safe good post t s) (hkeeps : Keeps t u) : Safe good post u s := by
  cases s with
  | done a => exact fun v hv hkeeps' => h v hv (hkeeps.trans hkeeps')
  | ask r next => exact fun v hv hkeeps' => h v hv (hkeeps.trans hkeeps')

theorem Safe.imp (h : Safe good post t s)
    (himp : ∀ a u, good u → Keeps t u → post a u → post' a u) : Safe good post' t s := by
  induction s generalizing t with
  | done a => exact fun u hu hkeeps => himp a u hu hkeeps (h u hu hkeeps)
  | ask r next ih =>
    intro u hu hkeeps
    obtain ⟨hgood, hmore, hnext⟩ := h u hu hkeeps
    exact ⟨hgood, hmore, ih _ hnext fun a v hv hkeeps' =>
      himp a v hv (hkeeps.trans (hmore.trans hkeeps'))⟩

/-- What is safe in every tree that satisfies the invariant is safe. -/
theorem safe_of_forall (h : ∀ u, good u → Keeps t u → Safe good post u s) : Safe good post t s := by
  cases s with
  | done a => exact fun u hu hkeeps => h u hu hkeeps u hu (.refl u)
  | ask r next => exact fun u hu hkeeps => h u hu hkeeps u hu (.refl u)

theorem Safe.bind {f : α → Script β} {post : β → FileTree → Prop}
    (h : Safe good (fun a u => Safe good post u (f a)) t s) : Safe good post t (s >>= f) := by
  induction s generalizing t with
  | done a => exact safe_of_forall h
  | ask r next ih =>
    intro u hu hkeeps
    obtain ⟨hgood, hmore, hnext⟩ := h u hu hkeeps
    exact ⟨hgood, hmore, ih _ hnext⟩

theorem safe_pure {a : α} (h : ∀ u, good u → Keeps t u → post a u) :
    Safe good post t (pure a : Script α) := h

/-- A script that runs alone from a tree that satisfies the invariant. -/
theorem Safe.run (h : Safe good post t s) (ht : good t) :
    good (s.run t).2 ∧ Keeps t (s.run t).2 ∧ post (s.run t).1 (s.run t).2 := by
  induction s generalizing t with
  | done a => exact ⟨ht, .refl t, h t ht (.refl t)⟩
  | ask r next ih =>
    obtain ⟨hgood, hmore, hnext⟩ := h t ht (.refl t)
    obtain ⟨hend, hkeeps, hpost⟩ := ih _ hnext hgood
    exact ⟨hend, hmore.trans hkeeps, hpost⟩

/-! ### Runs of composed scripts -/

instance : LawfulMonad Script := by
  refine LawfulMonad.mk' Script (fun s => ?_) (fun _ _ => rfl) (fun s f g => ?_)
  · induction s with
    | done a => rfl
    | ask r next ih => exact congrArg (ask r) (funext ih)
  · induction s with
    | done a => rfl
    | ask r next ih => exact congrArg (ask r) (funext ih)

@[simp] theorem run_bind (s : Script α) (f : α → Script β) :
    (s >>= f).run = s.run >>= fun a => (f a).run := by
  induction s with
  | done a => rfl
  | ask r next ih => exact congrArg (r.perform >>= ·) (funext ih)

theorem run_ask (r : FileRequest) : (ask r done).run = r.perform := bind_pure r.perform

theorem run_readText (p : Path) :
    (FileStore.readText p : Script _).run = FileStore.readText (m := StateM FileTree) p := by
  simp only [FileStore.readText, run_bind]
  refine congrArg₂ _ (run_ask (.read p)) (funext fun r => ?_)
  split
  · rfl
  · split <;> rfl

theorem run_ensureDirectory (p : Path) :
    (FileStore.ensureDirectory p : Script _).run =
      FileStore.ensureDirectory (m := StateM FileTree) p := by
  simp only [FileStore.ensureDirectory, run_bind]
  refine congrArg₂ _ (run_ask (.makeDirectory p)) (funext fun r => ?_)
  split
  · rw [run_bind]
    refine congrArg₂ _ (run_ask (.kind? p)) (funext fun k => ?_)
    split <;> rfl
  · rfl

theorem run_makeEach (paths : List Path) :
    (FileStore.makeEach paths : Script _).run =
      FileStore.makeEach (m := StateM FileTree) paths := by
  induction paths with
  | nil => rfl
  | cons p around ih =>
    simp only [FileStore.makeEach, run_bind]
    refine congrArg₂ _ (run_ensureDirectory p) (funext fun r => ?_)
    split
    · rw [run_bind]
      refine congrArg₂ _ ih (funext fun r => ?_)
      split
      · exact run_ensureDirectory p
      · rfl
    · rfl

/-! ### Proper trees -/

theorem isProper_update {f : FileTree → Except FileError FileTree} (ht : t.IsProper)
    (h : ∀ u, f t = .ok u → u.IsProper) : (update f t).2.IsProper := by
  cases hf : f t with
  | error e => exact update_of_error hf ▸ ht
  | ok u => exact update_of_ok hf ▸ h u hf

theorem isProper_perform (r : FileRequest) (ht : t.IsProper) : (r.perform t).2.IsProper := by
  cases r with
  | write p bytes => exact isProper_update ht fun _ => ht.write
  | makeDirectory p => exact isProper_update ht fun _ => ht.makeDirectory
  | kind? p | read p | filesBelow p => exact ht

/-- Whatever a script does, a proper tree stays proper. -/
theorem isProper_run (s : Script α) (ht : t.IsProper) : (s.run t).2.IsProper := by
  induction s generalizing t with
  | done a => exact ht
  | ask r next ih => exact ih _ (isProper_perform r ht)

/-! ### Safe requests -/

/-- A script asks for something, and goes on with the answer. -/
theorem safe_ask_bind {r : FileRequest} {f : r.Answer → Script β} {post : β → FileTree → Prop}
    (h : ∀ u, good u → Keeps t u → good (r.perform u).2 ∧ Keeps u (r.perform u).2 ∧
      Safe good post (r.perform u).2 (f (r.perform u).1)) :
    Safe good post t (ask r done >>= f) := h

theorem safe_readText {p : Path} {text : String} (h : t.read p = .ok text.toUTF8) :
    Safe good (fun r _ => r = .ok text) t (FileStore.readText p) := by
  refine safe_ask_bind fun u hu hkeeps => ⟨hu, .refl u, ?_⟩
  have hread : ((FileRequest.read p).perform u).1 = .ok text.toUTF8 := hkeeps.read h
  have htext : String.fromUTF8? text.toUTF8 = some text := dif_pos text.isValidUTF8
  rw [hread]
  dsimp only
  rw [htext]
  exact safe_pure fun _ _ _ => rfl

theorem kind_of_leads {p : Path} {place : Place} (h : Leads t p place)
    (hdir : t.item? place = some empty) :
    (FileRequest.kind? p).perform t = (some FileKind.directory, t) := by
  obtain ⟨entries, hat⟩ := item?_eq_empty_iff.mp hdir
  show ((t.find p).toOption.map kind, t) = _
  rw [h.find hat (.inr hdir)]
  rfl

/-- A directory that is there already is not made. -/
theorem safe_ensureDirectory {p : Path} {place : Place} (h : Leads t p place)
    (hdir : t.item? place = some empty) :
    Safe good (fun r _ => r = .ok ()) t (FileStore.ensureDirectory p) := by
  refine safe_ask_bind fun u hu hkeeps => ?_
  have hdir' : u.item? place = some empty := hkeeps _ _ hdir
  obtain ⟨entries, hat⟩ := item?_eq_empty_iff.mp hdir'
  have hmake : (FileRequest.makeDirectory p).perform u = (.error .alreadyExists, u) := by
    have := makeDirectory_of_find ((h.keeps hkeeps).find hat (.inr hdir'))
    exact update_of_error (f := (·.makeDirectory p)) this
  rw [hmake]
  refine ⟨hu, .refl u, safe_ask_bind fun v hv hkeeps' => ?_⟩
  rw [kind_of_leads ((h.keeps hkeeps).keeps hkeeps') (hkeeps' _ _ hdir')]
  exact ⟨hv, .refl v, safe_pure fun _ _ _ => rfl⟩

/-- Nor are the directories around it. -/
theorem safe_makeDirectories {p : Path} {place : Place} (h : Leads t p place)
    (hdir : t.item? place = some empty) :
    Safe good (fun r _ => r = .ok ()) t (FileStore.makeDirectories p) := by
  rw [FileStore.makeDirectories]
  rcases p.selfAndParents_cases with hnil | ⟨around, hcons⟩
  · rw [hnil]
    exact safe_pure fun _ _ _ => rfl
  · rw [hcons]
    refine Safe.bind ((safe_ensureDirectory h hdir).imp ?_)
    rintro r u - - rfl
    exact safe_pure fun _ _ _ => rfl

end Script

/-! ### Scripts that share a tree -/

namespace Pool

variable {α ι : Type} {good : FileTree → Prop} {post : ι → α → FileTree → Prop}

/-- One script of a pool has got an answer. -/
inductive Answered : List (Script α) → List (Script α) → Prop where
  | intro (before after : List (Script α)) (r : FileRequest) (next : r.Answer → Script α)
    (answer : r.Answer) :
    Answered (before ++ next answer :: after) (before ++ .ask r next :: after)

theorem answered_cons {s : Script α} {rest scripts : List (Script α)}
    (h : Answered scripts (s :: rest)) :
    (∃ r next answer, s = .ask r next ∧ scripts = next answer :: rest) ∨
      ∃ others, scripts = s :: others ∧ Answered others rest := by
  generalize hscripts : s :: rest = all at h
  cases h with
  | intro before after r next answer =>
    cases before with
    | nil =>
      obtain ⟨rfl, rfl⟩ := List.cons.inj hscripts
      exact .inl ⟨r, next, answer, rfl, rfl⟩
    | cons s' before =>
      obtain ⟨rfl, rfl⟩ := List.cons.inj hscripts
      exact .inr ⟨_, rfl, ⟨before, after, r, next, answer⟩⟩

theorem acc_cons {rest : List (Script α)} (s : Script α) (h : Acc Answered rest) :
    Acc Answered (s :: rest) := by
  induction s generalizing rest with
  | done a =>
    induction h with
    | intro rest _ ih =>
      refine ⟨_, fun scripts hscripts => ?_⟩
      obtain ⟨r, next, answer, heq, -⟩ | ⟨others, rfl, hothers⟩ := answered_cons hscripts
      · exact absurd heq (by simp)
      · exact ih others hothers
  | ask r next ihs =>
    induction h with
    | intro rest hrest ih =>
      refine ⟨_, fun scripts hscripts => ?_⟩
      obtain ⟨r', next', answer, heq, rfl⟩ | ⟨others, rfl, hothers⟩ := answered_cons hscripts
      · obtain ⟨rfl, heq⟩ := Script.ask.inj heq
        exact eq_of_heq heq ▸ ihs answer ⟨rest, hrest⟩
      · exact ih others hothers

/-- The scripts of a pool do not go on for ever. -/
theorem acc_answered (scripts : List (Script α)) : Acc Answered scripts := by
  induction scripts with
  | nil =>
    refine ⟨_, fun scripts hscripts => ?_⟩
    generalize hnil : ([] : List (Script α)) = all at hscripts
    cases hscripts with
    | intro => exact absurd hnil (by simp)
  | cons s rest ih => exact acc_cons s ih

/-- A proper tree that scripts share stays proper. -/
theorem Step.isProper {pool next : Pool α} (h : Step pool next) (hproper : pool.tree.IsProper) :
    next.tree.IsProper := by
  cases h with
  | answer before after r next t => exact Script.isProper_perform r hproper

theorem exists_eq_map_done {scripts : List (Script α)} {t : FileTree}
    (h : ∀ next, ¬Step ⟨scripts, t⟩ next) : ∃ values : List α, scripts = values.map .done := by
  have hdone : ∀ s ∈ scripts, ∃ a, s = .done a := by
    intro s hs
    cases s with
    | done a => exact ⟨a, rfl⟩
    | ask r next =>
      obtain ⟨before, after, rfl⟩ := List.append_of_mem hs
      exact absurd (.answer before after r next t) (h _)
  clear h
  induction scripts with
  | nil => exact ⟨[], rfl⟩
  | cons s scripts ih =>
    rw [List.forall_mem_cons] at hdone
    obtain ⟨⟨a, rfl⟩, hrest⟩ := hdone
    obtain ⟨values, rfl⟩ := ih hrest
    exact ⟨a :: values, rfl⟩

/-- One script of a list is exchanged, and something else is known of all the others. -/
theorem forall₂_exchange {R : ι → Script α → Prop} {jobs : List ι}
    {before after : List (Script α)} {s : Script α}
    (h : List.Forall₂ R jobs (before ++ s :: after)) :
    ∃ job, R job s ∧ ∀ S : ι → Script α → Prop, (∀ job s, R job s → S job s) →
      ∀ s', S job s' → List.Forall₂ S jobs (before ++ s' :: after) := by
  induction before generalizing jobs with
  | nil =>
    obtain ⟨job, rest, hjob, hrest, rfl⟩ := List.forall₂_cons_right_iff.mp h
    exact ⟨job, hjob, fun S himp s' hs' => .cons hs' (hrest.imp himp)⟩
  | cons s₀ before ih =>
    obtain ⟨job₀, rest, hjob₀, hrest, rfl⟩ := List.forall₂_cons_right_iff.mp h
    obtain ⟨job, hjob, hexchange⟩ := ih hrest
    exact ⟨job, hjob, fun S himp s' hs' => .cons (himp _ _ hjob₀) (hexchange S himp s' hs')⟩

/-- Safe scripts that share a tree come to an end in any order of their requests, and there their
postconditions hold. -/
theorem inevitably_of_safe {jobs : List ι} {scripts : List (Script α)} {t : FileTree}
    {result : Pool α → Prop}
    (hscripts : List.Forall₂ (fun job s => Script.Safe good (post job) t s) jobs scripts)
    (ht : good t)
    (hresult : ∀ values u, good u → Keeps t u →
      List.Forall₂ (fun job a => post job a u) jobs values → result ⟨values.map .done, u⟩) :
    Inevitably result ⟨scripts, t⟩ := by
  induction acc_answered scripts generalizing t with
  | intro scripts _ ih =>
    refine ⟨fun next hstep => ?_, fun hstopped => ?_⟩
    · cases hstep with
      | answer before after r next =>
        obtain ⟨job, hjob, hexchange⟩ := forall₂_exchange hscripts
        obtain ⟨hgood, hkeeps, hnext⟩ := hjob t ht (.refl t)
        have hothers := hexchange _ (fun job s hs => hs.keeps hkeeps) _ hnext
        exact ih _ ⟨before, after, r, next, _⟩ hothers hgood
          fun values u hu hmore => hresult values u hu (hkeeps.trans hmore)
    · obtain ⟨values, rfl⟩ := exists_eq_map_done hstopped
      rw [List.forall₂_map_right_iff] at hscripts
      exact hresult values t ht (.refl t) (hscripts.imp fun job a h => h t ht (.refl t))

end Pool

end WikiPress
