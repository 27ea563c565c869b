import WikiPress.Json.Basic

/-!
# Records in JSON

A record is written as an object with a member for each field.  It may be read from an object, in
which a field may have a second spelling but not be there twice and other members do not count, or
from a list with the values of its fields in order, the last of which may be missing.

## Main definitions

* `Json.Field` : a field with its spellings.
* `Json.fields?` : the values of the fields of a record.
* `Json.bool?`, `Json.text?`, `Json.nat?`, `Json.texts?`, `Json.nullable?` : values of fields.
* `Json.orElse` : a value for a missing field.
-/

namespace WikiPress.Json

/-- A field of a record with its spellings. -/
structure Field where
  name : String
  otherName : Option String := none
  deriving DecidableEq, Repr, Inhabited

/-- The value of a field among the members of an object, if the field is not there twice. -/
def Field.value? (f : Field) (members : List (String × Json)) : Option (Option Json) :=
  match findMember? f.name members, f.otherName.bind fun other => findMember? other members with
  | some _, some _ => none
  | some v, none => some (some v)
  | none, other => some other

/-- Values for all fields of which only the first are given. -/
def padTo (n : Nat) (values : List Json) : List (Option Json) :=
  values.map some ++ List.replicate (n - values.length) none

/-- The values of the fields of a record. -/
def fields? (fields : List Field) : Json → Option (List (Option Json))
  | .object members => fields.mapM fun f => f.value? members
  | .list values =>
    if values.length ≤ fields.length then some (padTo fields.length values) else none
  | _ => none

/-! ### Values -/

/-- A truth value. -/
def bool? : Json → Option Bool
  | .bool b => some b
  | _ => none

/-- A text. -/
def text? : Json → Option String
  | .text s => some s
  | _ => none

/-- A natural number that is at most `most`. -/
def nat? (most : Nat) : Json → Option Nat
  | .number (.integer (.ofNat n)) => if n ≤ most then some n else none
  | _ => none

/-- A list of texts. -/
def texts? : Json → Option (List String)
  | .list values => values.mapM text?
  | _ => none

/-- A value that may be `null`. -/
def nullable? {α : Type} (read : Json → Option α) : Json → Option (Option α)
  | .null => some none
  | v => (read v).map some

/-- The value of a field, or another value if the field is missing. -/
def orElse {α : Type} (default : α) (read : Json → Option α) : Option Json → Option α
  | none => some default
  | some v => read v

/-- The value of a field that must be there. -/
def required {α : Type} (read : Json → Option α) (value : Option Json) : Option α :=
  value.bind read

end WikiPress.Json
