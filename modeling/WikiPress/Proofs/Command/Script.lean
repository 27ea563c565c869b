import WikiPress.Command.Render
import WikiPress.Proofs.Files.Script

/-!
# Commands as scripts

A command works on any store of files.  On a tree it does one step after the other, up to the first
one that fails.  A command is a script as well, and the script does the same when it runs alone as
the command does on a tree.

## Main definitions

* `Command.alone` : a command whose script runs alone.

## Main results

* `Command.run_bind_of_ok`, `Command.run_bind_of_error` : what comes behind a step of a command.
* `Command.alone_bind`, `Command.alone_mapM`, `Command.alone_renderFile` : what a script that runs
  alone does is what the command does.
* `Command.safe_bind`, `Command.safe_attempt`, `Command.safe_mapM` : commands made of others succeed
  if each of these does.
-/

namespace WikiPress.Command

open FileTree Script

variable {α β ε : Type} {good : FileTree → Prop} {t u : FileTree}

/-! ### Commands on a tree -/

section

variable {x : Command (StateM FileTree) α} {f : α → Command (StateM FileTree) β} {e : CommandError}
  {a : α} {wrap : ε → CommandError} {step : StateM FileTree (Except ε α)}

/-- A command that succeeds is followed by the rest. -/
theorem run_bind_of_ok (h : x.run t = (.ok a, u)) : (x >>= f).run t = (f a).run u := by
  rw [ExceptT.run_bind]
  show (x.run >>= _) t = _
  simp only [Bind.bind, StateT.bind, h]

/-- A command that fails is followed by nothing, and what it did stays. -/
theorem run_bind_of_error (h : x.run t = (.error e, u)) : (x >>= f).run t = (.error e, u) := by
  rw [ExceptT.run_bind]
  show (x.run >>= _) t = _
  simp only [Bind.bind, StateT.bind, h]
  rfl

/-- An operation of the store is a command that succeeds. -/
theorem run_liftM {x : StateM FileTree α} (h : x t = (a, u)) :
    (liftM x : Command (StateM FileTree) α).run t = (.ok a, u) := by
  show (ExceptT.lift x).run t = _
  simp only [ExceptT.run_lift, Functor.map, StateT.map, h]
  rfl

theorem run_attempt {r : Except ε α} (h : step t = (r, u)) :
    (attempt wrap step).run t = (r.mapError wrap, u) := by
  simp only [attempt, ExceptT.run_mk, Bind.bind, StateT.bind, h]
  rfl

end

/-! ### Commands that succeed -/

section

variable {post : Except CommandError β → FileTree → Prop}

/-- A command succeeds, and then the rest of it does. -/
theorem safe_bind {x : Command Script α} {f : α → Command Script β}
    (h : Safe good (fun r u => ∃ a, r = .ok a ∧ Safe good post u (f a).run) t x.run) :
    Safe good post t (x >>= f).run := by
  refine Safe.bind (h.imp fun r u _ _ hr => ?_)
  obtain ⟨a, rfl, hrest⟩ := hr
  exact hrest

/-- A step of a command succeeds, and then the rest of the command does. -/
theorem safe_attempt {wrap : ε → CommandError} {step : Script (Except ε α)}
    {f : α → Command Script β}
    (h : Safe good (fun r u => ∃ a, r = .ok a ∧ Safe good post u (f a).run) t step) :
    Safe good post t (attempt wrap step >>= f).run := by
  refine safe_bind (Safe.bind (h.imp fun r u _ _ hr => ?_))
  obtain ⟨a, rfl, hrest⟩ := hr
  exact safe_pure fun v _ hkeeps => ⟨a, rfl, hrest.keeps hkeeps⟩

end

/-- A command for each of some values succeeds if it does for each of them. -/
theorem safe_mapM {f : α → Command Script β} {g : α → β} {Q : α → FileTree → Prop} {as : List α}
    (hQ : ∀ a u v, Keeps u v → Q a u → Q a v)
    (h : ∀ a ∈ as, ∀ u, Safe good (fun r v => r = .ok (g a) ∧ Q a v) u (f a).run) :
    Safe good (fun r v => r = .ok (as.map g) ∧ ∀ a ∈ as, Q a v) t (as.mapM f).run := by
  induction as generalizing t with
  | nil => exact safe_pure fun u _ _ => ⟨rfl, by simp⟩
  | cons a as ih =>
    rw [List.forall_mem_cons] at h
    rw [List.mapM_cons]
    refine safe_bind ((h.1 t).imp ?_)
    rintro r u - - ⟨rfl, hfirst⟩
    refine ⟨g a, rfl, safe_bind ((ih h.2).imp ?_)⟩
    rintro r v - huv ⟨rfl, hrest⟩
    refine ⟨as.map g, rfl, safe_pure fun w _ hvw => ⟨rfl, ?_⟩⟩
    rw [List.forall_mem_cons]
    exact ⟨hQ a u w (huv.trans hvw) hfirst, fun b hb => hQ b v w hvw (hrest b hb)⟩

/-! ### Commands that run alone -/

/-- A command whose script runs alone. -/
def alone (x : Command Script α) : Command (StateM FileTree) α := ExceptT.mk (Script.run x.run)

theorem alone_bind (x : Command Script α) (f : α → Command Script β) :
    alone (x >>= f) = alone x >>= fun a => alone (f a) := by
  refine (Script.run_bind _ _).trans ?_
  show _ = Script.run x.run >>= ExceptT.bindCont fun a => alone (f a)
  refine congrArg (Script.run x.run >>= ·) (funext fun r => ?_)
  cases r <;> rfl

theorem alone_attempt (wrap : ε → CommandError) (step : Script (Except ε α)) :
    alone (attempt wrap step) = attempt wrap step.run := Script.run_bind _ _

theorem alone_mapM (f : α → Command Script β) (as : List α) :
    alone (as.mapM f) = as.mapM fun a => alone (f a) := by
  induction as with
  | nil => rfl
  | cons a as ih =>
    rw [List.mapM_cons, List.mapM_cons, alone_bind]
    refine congrArg _ (funext fun b => ?_)
    rw [alone_bind, ih]
    rfl

theorem alone_renderFile (p : Processor) (outputDir file relative : Path) :
    alone (renderFile p outputDir file relative) = renderFile p outputDir file relative := by
  have hwrite (target : Path) (html : String) :
      Script.run (FileStore.writeText (m := Script) target html) =
        FileStore.writeText (m := StateM FileTree) target html := Script.run_ask (.write target _)
  unfold renderFile
  rw [alone_bind, alone_attempt, Script.run_readText]
  refine congrArg _ (funext fun source => ?_)
  dsimp only
  split
  · rw [alone_bind, alone_attempt, hwrite]
    rfl
  · rw [alone_bind, alone_attempt, FileStore.makeDirectories, Script.run_makeEach]
    refine congrArg _ (funext fun _ => ?_)
    rw [alone_bind, alone_attempt, hwrite]
    rfl

end WikiPress.Command
