/-!
# JSON values

The members of an object stand in the order in which they were written, and each key stands once.

## Main definitions

* `Json.Number`, `Json`
* `Json.member?` : the value of a member of an object.
* `Json.ofMembers` : the object of a list of members, in which the last value of a key counts.
-/

namespace WikiPress

/-- A number as it is written: an integer of at most sixty-four bits, or a decimal. -/
inductive Json.Number where
  | integer (n : Int)
  /-- The digits, taken as one number, times a power of ten. -/
  | decimal (negative : Bool) (digits : Nat) (exponent : Int)
  deriving DecidableEq, Repr, Inhabited

/-- A JSON value. -/
inductive Json where
  | null
  | bool (b : Bool)
  | number (n : Json.Number)
  | text (s : String)
  | list (values : List Json)
  | object (members : List (String × Json))
  deriving Repr, Inhabited

namespace Json

/-- The value of a key among members. -/
def findMember? (key : String) : List (String × Json) → Option Json
  | [] => none
  | (k, v) :: rest => if k = key then some v else findMember? key rest

/-- The members with the value of a key changed in place, or added at the end. -/
def putMember (key : String) (value : Json) : List (String × Json) → List (String × Json)
  | [] => [(key, value)]
  | (k, v) :: rest => if k = key then (k, value) :: rest else (k, v) :: putMember key value rest

/-- The object of a list of members, in which the last value of a key counts. -/
def ofMembers (members : List (String × Json)) : Json :=
  .object (members.foldl (fun seen m => putMember m.1 m.2 seen) [])

/-- The value of a member, if the value is an object that has it. -/
def member? (key : String) : Json → Option Json
  | .object members => findMember? key members
  | _ => none

/-- Whether a value is an object. -/
def isObject : Json → Bool
  | .object _ => true
  | _ => false

/-- Whether a value is a list. -/
def isList : Json → Bool
  | .list _ => true
  | _ => false

/-- An integer. -/
def ofInt (n : Int) : Json := .number (.integer n)

/-- A natural number. -/
def ofNat (n : Nat) : Json := ofInt n

/-- A text, and `null` for none. -/
def textOrNull : Option String → Json
  | some s => .text s
  | none => .null

end Json

end WikiPress
