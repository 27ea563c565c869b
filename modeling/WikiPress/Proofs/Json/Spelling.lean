import Mathlib.Data.List.Find
import Mathlib.Data.List.Nodup
import Mathlib.Data.List.Pairwise
import Mathlib.Data.Option.Basic
import WikiPress.Proofs.Json.Record

/-!
# Records with other spellings of their keys

Some fields of a record have two spellings.  An object may use either of them for each field, as
long as it does not use both for the same one; it is then read as the same record.

What a field finds in such an object is the first member under any of its spellings, and this is
what another spelling of a key does not change.

## Main definitions

* `Json.SpeltOnce` : no field stands under both of its spellings.
* `Json.Respelled` : an object and the same one with other spellings.
* `Json.Field.lookup` : the value of a field under either of its spellings.

## Main results

* `Json.fields?_of_speltOnce` : the values of a record whose fields are spelt once.
* `Json.fields?_object_eq_none_or` : a record that can be read has the values that are there.
* `Json.rel_lookup` : under other spellings, related values are found.
* `Json.lookup_eq` : other spellings alone change no value.
-/

namespace WikiPress.Json

variable {fields : List Field} {inner : String → Json → Json → Prop} {key : String}
  {members members' : List (String × Json)} {f : Field}

/-- No field stands among the members under both of its spellings. -/
def SpeltOnce (fields : List Field) (members : List (String × Json)) : Prop :=
  ∀ f ∈ fields, ∀ other, f.otherName = some other →
    ¬(f.name ∈ members.map Prod.fst ∧ other ∈ members.map Prod.fst)

/-- A member keeps its key, with a value that stands in the inner relation of the key, or it gets
another spelling of its field and keeps its value. -/
inductive MemberRespelled (fields : List Field) (inner : String → Json → Json → Prop) :
    String × Json → String × Json → Prop
  | kept {key : String} {v v' : Json} : inner key v v' →
      MemberRespelled fields inner (key, v) (key, v')
  | renamed {f : Field} {key key' : String} {v : Json} : f ∈ fields → key ∈ f.spellings →
      key' ∈ f.spellings → MemberRespelled fields inner (key, v) (key', v)

/-- The second value is the first one, or both are objects, and the second one has other spellings
for some fields of the first one.  In neither of them a field stands under both of its spellings. -/
inductive Respelled (fields : List Field) (inner : String → Json → Json → Prop) : Json → Json → Prop
  | refl (j : Json) : Respelled fields inner j j
  | object {members members' : List (String × Json)} : SpeltOnce fields members →
      SpeltOnce fields members' → List.Forall₂ (MemberRespelled fields inner) members members' →
      Respelled fields inner (.object members) (.object members')

/-! ### Values of fields -/

/-- The value of a field under its first spelling, or else under the second one. -/
def Field.lookup (f : Field) (members : List (String × Json)) : Option Json :=
  (findMember? f.name members).or (f.otherName.bind fun other => findMember? other members)

theorem findMember?_eq_find (key : String) (members : List (String × Json)) :
    findMember? key members = (members.find? fun m => m.1 = key).map Prod.snd := by
  induction members with
  | nil => rfl
  | cons m members ih =>
    rw [findMember?, List.find?_cons]
    split
    · next h => simp [h]
    · next h => simp [h, ih]

theorem findMember?_eq_none_iff : findMember? key members = none ↔ key ∉ members.map Prod.fst := by
  rw [findMember?_eq_find, Option.map_eq_none_iff, List.find?_eq_none, List.mem_map]
  simp only [decide_eq_true_eq, not_exists, not_and]

/-- A field that is spelt once is not there twice. -/
theorem SpeltOnce.value? (h : SpeltOnce fields members) (hf : f ∈ fields) :
    f.value? members = some (f.lookup members) := by
  rw [Field.value?, Field.lookup]
  cases hspelt : f.otherName with
  | none => cases findMember? f.name members <;> rfl
  | some other =>
    have hnot := h f hf other hspelt
    rw [not_and_or, ← findMember?_eq_none_iff, ← findMember?_eq_none_iff] at hnot
    rcases hnot with hnone | hnone
    · rw [hnone]
      cases hother : findMember? other members <;> simp [hother]
    · rw [Option.bind_some, hnone]
      cases findMember? f.name members <;> rfl

/-- A field that is not there twice has the value that is there. -/
theorem Field.eq_lookup_of_value? {v : Option Json} (h : f.value? members = some v) :
    v = f.lookup members := by
  rw [Field.value?] at h
  rw [Field.lookup]
  generalize findMember? f.name members = named,
    (f.otherName.bind fun other => findMember? other members) = other at h ⊢
  match named, other with
  | none, _ => exact (Option.some.inj h).symm
  | some _, none => exact (Option.some.inj h).symm
  | some _, some _ => exact absurd h (Option.some_ne_none v).symm

/-- A record that can be read has the values that are there. -/
theorem fields?_object_eq_none_or (fields : List Field) (members : List (String × Json)) :
    fields? fields (.object members) = none ∨
      fields? fields (.object members) = some (fields.map fun f => f.lookup members) := by
  refine or_iff_not_imp_left.mpr fun hsome => ?_
  obtain ⟨values, hvalues⟩ := Option.ne_none_iff_exists'.mp hsome
  rw [hvalues, Option.some.injEq]
  clear hsome
  rw [fields?] at hvalues
  induction fields generalizing values with
  | nil => exact (Option.some.inj hvalues).symm
  | cons f fields ih =>
    simp only [List.mapM_cons, Option.bind_eq_bind, Option.bind_eq_some_iff] at hvalues
    obtain ⟨v, hv, rest, hrest, heq⟩ := hvalues
    rw [List.map_cons, ← Field.eq_lookup_of_value? hv, ← ih rest hrest]
    exact (Option.some.inj heq).symm

/-- The values of a record whose fields are spelt once. -/
theorem fields?_of_speltOnce (h : SpeltOnce fields members) :
    fields? fields (.object members) = some (fields.map fun f => f.lookup members) := by
  have hvalues : ∀ gs ⊆ fields, (gs.mapM fun f => f.value? members) =
      some (gs.map fun f => f.lookup members) := by
    intro gs hgs
    induction gs with
    | nil => rfl
    | cons g gs ih =>
      rw [List.cons_subset] at hgs
      simp [List.mapM_cons, h.value? hgs.1, ih hgs.2]
  exact hvalues fields (List.Subset.refl fields)

/-- The value of a field is that of the first member under any of its spellings. -/
theorem SpeltOnce.lookup_eq_find (h : SpeltOnce fields members) (hf : f ∈ fields) :
    f.lookup members = (members.find? fun m => m.1 ∈ f.spellings).map Prod.snd := by
  -- Where one spelling is missing, the members under any spelling are those under the other one.
  have hspelt : ∀ {key missing : String}, missing ∉ members.map Prod.fst →
      (∀ k, k ∈ f.spellings ↔ k = key ∨ k = missing) →
      findMember? key members = (members.find? fun m => m.1 ∈ f.spellings).map Prod.snd := by
    intro key missing hmissing hspellings
    rw [findMember?_eq_find]
    refine congrArg (Option.map Prod.snd) (List.find?_congr fun m hm => ?_)
    have hne : m.1 ≠ missing := fun heq => hmissing (heq ▸ List.mem_map_of_mem hm)
    simp [hspellings, hne]
  rw [Field.lookup]
  cases hother : f.otherName with
  | none =>
    rw [Option.bind_none, Option.or_none, findMember?_eq_find]
    simp [Field.spellings, hother]
  | some other =>
    have hmem : ∀ k, k ∈ f.spellings ↔ k = f.name ∨ k = other := by
      simp [Field.spellings, hother]
    rw [Option.bind_some]
    by_cases hname : f.name ∈ members.map Prod.fst
    · have hnot : other ∉ members.map Prod.fst := fun h' => h f hf other hother ⟨hname, h'⟩
      rw [findMember?_eq_none_iff.mpr hnot, Option.or_none]
      exact hspelt hnot hmem
    · rw [findMember?_eq_none_iff.mpr hname, Option.none_or]
      exact hspelt hname fun k => (hmem k).trans or_comm

/-! ### Other spellings -/

/-- A spelling is that of one field only. -/
theorem eq_of_mem_spellings {g : Field} (hnodup : (fields.flatMap Field.spellings).Nodup)
    (hf : f ∈ fields) (hg : g ∈ fields) (hkey : key ∈ f.spellings) (hkey' : key ∈ g.spellings) :
    f = g := by
  by_contra hne
  have : Std.Symm (Function.onFun List.Disjoint Field.spellings) := ⟨fun _ _ h _ hg hf => h hf hg⟩
  exact (List.nodup_flatMap.mp hnodup).2.forall hf hg hne hkey hkey'

/-- A member and its other spelling are under the spellings of the same fields. -/
theorem MemberRespelled.mem_spellings_iff {m m' : String × Json}
    (h : MemberRespelled fields inner m m') (hnodup : (fields.flatMap Field.spellings).Nodup)
    (hf : f ∈ fields) : m.1 ∈ f.spellings ↔ m'.1 ∈ f.spellings := by
  cases h with
  | kept => rfl
  | @renamed g key key' v hg hkey hkey' =>
    constructor
    · intro h
      exact eq_of_mem_spellings hnodup hf hg h hkey ▸ hkey'
    · intro h
      exact eq_of_mem_spellings hnodup hf hg h hkey' ▸ hkey

/-- Under other spellings, the value of a field is the same or stands in the inner relation. -/
theorem rel_lookup {R : Json → Json → Prop} (hrefl : ∀ v, R v v)
    (hinner : ∀ key ∈ f.spellings, ∀ v v', inner key v v' → R v v')
    (hnodup : (fields.flatMap Field.spellings).Nodup) (hf : f ∈ fields)
    (honce : SpeltOnce fields members) (honce' : SpeltOnce fields members')
    (h : List.Forall₂ (MemberRespelled fields inner) members members') :
    Option.Rel R (f.lookup members) (f.lookup members') := by
  rw [honce.lookup_eq_find hf, honce'.lookup_eq_find hf]
  clear honce honce'
  induction h with
  | nil => exact .none
  | @cons m m' members members' hm _ ih =>
    have hiff := hm.mem_spellings_iff hnodup hf
    rw [List.find?_cons, List.find?_cons]
    by_cases hkey : m.1 ∈ f.spellings
    · rw [decide_eq_true hkey, decide_eq_true (hiff.mp hkey)]
      cases hm with
      | kept hv => exact .some (hinner _ hkey _ _ hv)
      | renamed => exact .some (hrefl _)
    · rw [decide_eq_false hkey, decide_eq_false fun h => hkey (hiff.mpr h)]
      exact ih

/-- Other spellings alone change no value. -/
theorem lookup_eq (hinner : ∀ key ∈ f.spellings, ∀ v v', inner key v v' → v = v')
    (hnodup : (fields.flatMap Field.spellings).Nodup) (hf : f ∈ fields)
    (honce : SpeltOnce fields members) (honce' : SpeltOnce fields members')
    (h : List.Forall₂ (MemberRespelled fields inner) members members') :
    f.lookup members' = f.lookup members := by
  have hrel := rel_lookup (fun _ => rfl) hinner hnodup hf honce honce' h
  generalize f.lookup members = o, f.lookup members' = o' at hrel
  cases hrel with
  | some heq => rw [heq]
  | none => rfl

end WikiPress.Json
