import WikiPress.Json.Basic

/-!
# Tables of TOML documents

A TOML document is written as a list of headers and of keys with values, and stands for one table.
A table is written only once: by a header, by dotted keys, or in braces.  It remembers how it came
about, because that decides which later lines may still add to it.

## Main definitions

* `Toml`, `Toml.Origin`, `Toml.Entries` : values and tables.
* `Toml.alterTable` : the table at the end of a path changed, with the tables on the way made.
* `Toml.Expression`, `Toml.addAll?` : the lines of a document, and the table that they make.
* `Toml.toJson` : a value in JSON.
-/

namespace WikiPress

/-- How a table came about. -/
inductive Toml.Origin where
  /-- By a header of its own; so does the table of the whole document. -/
  | header
  /-- By the header of a table inside it. -/
  | implied
  /-- By a dotted key. -/
  | dotted
  /-- By braces. -/
  | braces
  deriving DecidableEq, Repr, Inhabited

/-- A value of a TOML document. -/
inductive Toml where
  | text (s : String)
  | number (n : Json.Number)
  /-- An infinite number, or none at all. -/
  | notFinite
  | bool (b : Bool)
  /-- A date, a time, or both. -/
  | date (s : String)
  /-- A list; a list that `grows` has tables that are written under headers of their own. -/
  | list (grows : Bool) (values : List Toml)
  | table (origin : Toml.Origin) (entries : List (String × Toml))
  deriving Repr, Inhabited

namespace Toml

/-- The entries of a table in the order in which they were written, with each key once. -/
abbrev Entries := List (String × Toml)

/-! ### Changing tables -/

/-- The entries with the value of a key changed, or with a new value at the end; there are none if
`f` refuses the value. -/
def alter (key : String) (f : Option Toml → Option Toml) : Entries → Option Entries
  | [] => (f none).map fun v => [(key, v)]
  | (k, v) :: rest =>
    if k = key then (f (some v)).map fun v => (k, v) :: rest
    else (alter key f rest).map ((k, v) :: ·)

/-- Whether a path on which new tables are `made` may lead through a table.  A table in braces is
closed, and a dotted key adds only to tables that have no header. -/
def mayEnter (made origin : Origin) : Bool :=
  match made, origin with
  | _, .braces => false
  | .dotted, .header => false
  | _, _ => true

/-- The entries with those of the table at the end of a path changed.  Tables that are missing on
the way are made, and of a growing list the last table is entered. -/
def alterTable (made : Origin) (f : Origin → Entries → Option Entries) :
    List String → Origin → Entries → Option Entries
  | [], origin, entries => f origin entries
  | key :: path, _, entries =>
    entries |> alter key fun
      | none => (alterTable made f path made []).map (.table made)
      | some (.table origin inner) =>
        if mayEnter made origin then
          (alterTable made f path origin inner).map (.table origin)
        else none
      | some (.list true values) =>
        match values.getLast? with
        | some (.table origin inner) =>
          (alterTable made f path origin inner).map fun inner =>
            .list true (values.dropLast ++ [.table origin inner])
        | _ => none
      | some _ => none

/-- A key with the keys of the tables around it. -/
structure Key where
  parents : List String := []
  name : String
  deriving DecidableEq, Repr, Inhabited

/-- The entries of a table with a value under a dotted key.  The key must be new, and only dotted
keys add to a table that was made by them. -/
def put? (key : Key) (value : Toml) (origin : Origin) (entries : Entries) : Option Entries :=
  alterTable .dotted (fun origin entries =>
    if (origin = .dotted) = (key.parents = []) then none
    else entries |> alter key.name fun
      | none => some value
      | some _ => none) key.parents origin entries

/-! ### Documents -/

/-- A line of a document. -/
inductive Expression where
  /-- The header of a table. -/
  | table (key : Key)
  /-- The header of a further table of a list. -/
  | element (key : Key)
  /-- A key with its value. -/
  | pair (key : Key) (value : Toml)
  deriving Repr, Inhabited

/-- The table of a header; only a table that was implied so far may get one. -/
def openTable : Option Toml → Option Toml
  | none => some (.table .header [])
  | some (.table .implied entries) => some (.table .header entries)
  | some _ => none

/-- The list of a header with a new table at its end. -/
def openElement : Option Toml → Option Toml
  | none => some (.list true [.table .header []])
  | some (.list true values) => some (.list true (values ++ [.table .header []]))
  | some _ => none

/-- The table of a document so far, and the path of the last header. -/
structure Progress where
  root : Entries := []
  path : List String := []
  deriving Repr, Inhabited

/-- The document with the value of a header changed. -/
def Progress.underHeader (p : Progress) (key : Key) (f : Option Toml → Option Toml) :
    Option Progress :=
  (alterTable .implied (fun _ entries => alter key.name f entries) key.parents .header p.root).map
    fun root => ⟨root, key.parents ++ [key.name]⟩

/-- The document with one more line, if the line may stand there. -/
def Progress.add? (p : Progress) : Expression → Option Progress
  | .table key => p.underHeader key openTable
  | .element key => p.underHeader key openElement
  | .pair key value =>
    (alterTable .implied (put? key value) p.path .header p.root).map fun root => { p with root }

/-- The table that the lines of a document make. -/
def addAll? (lines : List Expression) : Option Entries :=
  (lines.foldlM Progress.add? {}).map (·.root)

/-! ### JSON -/

mutual

/-- A value in JSON.  A number that is not finite is `null`, and a date is an object of its own. -/
def toJson : Toml → Json
  | .text s => .text s
  | .number n => .number n
  | .notFinite => .null
  | .bool b => .bool b
  | .date s => .object [("date", .text s)]
  | .list _ values => .list (listToJson values)
  | .table _ entries => .object (entriesToJson entries)

/-- Values in JSON. -/
def listToJson : List Toml → List Json
  | [] => []
  | v :: rest => toJson v :: listToJson rest

/-- Entries as the members of an object. -/
def entriesToJson : List (String × Toml) → List (String × Json)
  | [] => []
  | (k, v) :: rest => (k, toJson v) :: entriesToJson rest

end

end Toml

end WikiPress
