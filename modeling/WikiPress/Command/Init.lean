import WikiPress.Command.Basic

/-!
# New configurations

The command `init` writes the template of a configuration into a new file.

## Main definitions

* `Command.init`
-/

namespace WikiPress.Command

variable {m : Type → Type} [Monad m] [FileStore m]

/-- Makes the directory of a file, unless it is there. -/
def makeParent (p : Path) : Command m Unit := do
  match p.parent? with
  | none => return
  | some parent =>
    if parent.isEmpty then return
    else if ← (FileStore.exists? parent : m Bool) then return
    else attempt (.noDirectory parent) (FileStore.makeDirectories (m := m) parent)

/-- Writes the template of a format into a file.  A file that is there is replaced only by
`force`. -/
def init (output : Path) (format : String) (force : Bool) : Command m Unit := do
  if !force && (← (FileStore.exists? output : m Bool)) then throw (.alreadyExists output)
  makeParent output
  attempt (.noTemplate output) (Config.writeTemplate (m := m) format output)

end WikiPress.Command
