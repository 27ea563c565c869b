import WikiPress.Files.Tree

/-!
# Scripts on a store of files

A script is a program on a store of files, written out as its requests to the store.  It can be run
alone on a tree, and several scripts can share a tree.  Then their requests are answered one by one
in any order, and a script sees what the others have done between two of its requests.

## Main definitions

* `FileRequest`, `FileRequest.perform` : the requests to a store, and their answers from a tree.
* `Script`, `Script.run` : programs on a store, and what they do when they run alone.
* `Pool`, `Pool.Step` : scripts that share a tree, and the answer to one of their requests.
* `Pool.Inevitably` : what holds in the end, whatever the order of the requests.
-/

namespace WikiPress

/-- A request to a store of files. -/
inductive FileRequest where
  | kind? (p : Path)
  | read (p : Path)
  | write (p : Path) (bytes : ByteArray)
  | makeDirectory (p : Path)
  | filesBelow (p : Path)

/-- What a request is answered with. -/
def FileRequest.Answer : FileRequest → Type
  | kind? _ => Option FileKind
  | read _ => Except FileError ByteArray
  | write _ _ => Except FileError Unit
  | makeDirectory _ => Except FileError Unit
  | filesBelow _ => List Path

/-- The answer of a tree to a request, and the tree behind it. -/
def FileRequest.perform : (r : FileRequest) → StateM FileTree r.Answer
  | kind? p => FileStore.kind? (m := StateM FileTree) p
  | read p => FileStore.read (m := StateM FileTree) p
  | write p bytes => FileStore.write (m := StateM FileTree) p bytes
  | makeDirectory p => FileStore.makeDirectory (m := StateM FileTree) p
  | filesBelow p => FileStore.filesBelow (m := StateM FileTree) p

/-- A program on a store of files: it is done, or it goes on with the answer to a request. -/
inductive Script (α : Type) : Type where
  | done (value : α)
  | ask (r : FileRequest) (next : r.Answer → Script α)

namespace Script

variable {α β : Type}

/-- A script, and then another one that depends on what came out. -/
def bind : Script α → (α → Script β) → Script β
  | done a, f => f a
  | ask r next, f => ask r fun answer => (next answer).bind f

instance : Monad Script where
  pure := done
  bind := bind

instance : FileStore Script where
  kind? p := ask (.kind? p) done
  read p := ask (.read p) done
  write p bytes := ask (.write p bytes) done
  makeDirectory p := ask (.makeDirectory p) done
  filesBelow p := ask (.filesBelow p) done

/-- What a script does when it runs alone. -/
def run : Script α → StateM FileTree α
  | done a => pure a
  | ask r next => r.perform >>= fun answer => (next answer).run

end Script

/-- Scripts that run at the same time, and the tree that they share. -/
structure Pool (α : Type) where
  scripts : List (Script α)
  tree : FileTree

namespace Pool

variable {α : Type}

/-- A request of one of the scripts is answered. -/
inductive Step : Pool α → Pool α → Prop where
  | answer (before after : List (Script α)) (r : FileRequest) (next : r.Answer → Script α)
    (t : FileTree) :
    Step ⟨before ++ .ask r next :: after, t⟩
      ⟨before ++ next (r.perform t).1 :: after, (r.perform t).2⟩

/-- Whatever the order of the requests, the scripts come to an end, and `good` holds there. -/
inductive Inevitably (good : Pool α → Prop) : Pool α → Prop where
  | intro {pool : Pool α} (step : ∀ next, Step pool next → Inevitably good next)
    (stopped : (∀ next, ¬Step pool next) → good pool) : Inevitably good pool

end Pool

end WikiPress
