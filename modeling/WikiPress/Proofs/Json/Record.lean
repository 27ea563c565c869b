import Mathlib.Data.List.Forall2
import WikiPress.Json.Record

/-!
# Records are read as they were written

A record written as an object has its fields in order, each under its first spelling.  Read back,
every field has the value that was written, if no spelling is that of two fields: then no field is
missing and none is there twice.

## Main definitions

* `Json.Field.spellings` : the spellings of a field.

## Main results

* `Json.fields?_object` : the values of a written record.
* `Json.texts?_eq_some_iff` : only lists of texts are read as texts.
* `Json.texts?_list`, `Json.nullable?_textOrNull`, `Json.nat?_ofNat` : values of fields read as they
  were written.
-/

namespace WikiPress.Json

/-- The spellings of a field. -/
def Field.spellings (f : Field) : List String := f.name :: f.otherName.toList

section Members

variable {key : String} {before after : List (String × Json)}

theorem findMember?_append_of_notMem (h : key ∉ before.map Prod.fst) :
    findMember? key (before ++ after) = findMember? key after := by
  induction before with
  | nil => rfl
  | cons m before ih =>
    rw [List.map_cons, List.mem_cons, not_or] at h
    rw [List.cons_append, findMember?, if_neg (Ne.symm h.1), ih h.2]

theorem findMember?_of_notMem (h : key ∉ before.map Prod.fst) : findMember? key before = none := by
  rw [← List.append_nil before, findMember?_append_of_notMem h, findMember?]

/-- A field that is there under its first spelling only. -/
theorem Field.value?_append_cons {f : Field} {v : Json} (hname : f.name ∉ before.map Prod.fst)
    (hother : ∀ other, f.otherName = some other →
      other ∉ (before ++ (f.name, v) :: after).map Prod.fst) :
    f.value? (before ++ (f.name, v) :: after) = some (some v) := by
  have hfound : findMember? f.name (before ++ (f.name, v) :: after) = some v := by
    rw [findMember?_append_of_notMem hname, findMember?, if_pos rfl]
  unfold Field.value?
  rw [hfound]
  cases hspelled : f.otherName with
  | none => rfl
  | some other => rw [Option.bind_some, findMember?_of_notMem (hother other hspelled)]

end Members

/-- The keys of a record are spellings of its fields. -/
theorem keys_zip_subset (fields : List Field) (values : List Json) :
    ((fields.map Field.name).zip values).map Prod.fst ⊆ fields.flatMap Field.spellings := by
  intro key hkey
  obtain ⟨⟨k, v⟩, hmem, rfl⟩ := List.mem_map.mp hkey
  obtain ⟨f, hf, rfl⟩ := List.mem_map.mp (List.of_mem_zip hmem).1
  exact List.mem_flatMap.mpr ⟨f, hf, List.mem_cons_self ..⟩

/-- The fields of a record, behind other members, have the values that were written. -/
theorem forall₂_value?_zip {fields : List Field} {values : List Json}
    (hnodup : (fields.flatMap Field.spellings).Nodup) (hlength : values.length = fields.length)
    {before : List (String × Json)}
    (hbefore : ∀ key ∈ fields.flatMap Field.spellings, key ∉ before.map Prod.fst) :
    List.Forall₂ (fun f v => f.value? (before ++ (fields.map Field.name).zip values) = some v)
      fields (values.map some) := by
  induction fields generalizing values before with
  | nil =>
    obtain rfl := List.eq_nil_of_length_eq_zero hlength
    exact .nil
  | cons f fields ih =>
    obtain ⟨v, values, rfl⟩ := List.exists_cons_of_length_eq_add_one hlength
    rw [List.flatMap_cons, List.nodup_append] at hnodup
    obtain ⟨hf, hfields, hdisjoint⟩ := hnodup
    simp only [List.flatMap_cons, List.mem_append] at hbefore
    refine .cons (Field.value?_append_cons ?_ fun other hother => ?_) ?_
    · exact hbefore f.name (.inl (List.mem_cons_self ..))
    · have hspelling : other ∈ f.spellings := by simp [Field.spellings, hother]
      have hne : other ≠ f.name := by
        rintro rfl
        simp [Field.spellings, hother] at hf
      rw [List.map_append, List.map_cons, List.mem_append, List.mem_cons, not_or, not_or]
      exact ⟨hbefore other (.inl hspelling), hne, fun hmem =>
        hdisjoint other hspelling other (keys_zip_subset fields values hmem) rfl⟩
    · have hbefore' : ∀ key ∈ fields.flatMap Field.spellings,
          key ∉ (before ++ [(f.name, v)]).map Prod.fst := by
        intro key hkey
        rw [List.map_append, List.map_singleton, List.mem_append, List.mem_singleton, not_or]
        exact ⟨hbefore key (.inr hkey), fun heq =>
          hdisjoint f.name (List.mem_cons_self ..) key hkey heq.symm⟩
      have := ih hfields (Nat.succ_inj.mp hlength) hbefore'
      rwa [List.append_assoc] at this

theorem mapM_of_forall₂ {fields : List Field} {values : List (Option Json)}
    {members : List (String × Json)}
    (h : List.Forall₂ (fun f v => f.value? members = some v) fields values) :
    (fields.mapM fun f => f.value? members) = some values := by
  induction h with
  | nil => rfl
  | cons hf _ ih => simp [List.mapM_cons, hf, ih]

/-- A record written as an object has the values that were written. -/
theorem fields?_object {fields : List Field} (values : List Json)
    (hnodup : (fields.flatMap Field.spellings).Nodup) (hlength : values.length = fields.length) :
    fields? fields (.object ((fields.map Field.name).zip values)) = some (values.map some) :=
  mapM_of_forall₂ (@forall₂_value?_zip _ _ hnodup hlength [] fun _ _ => List.not_mem_nil)

/-! ### Values -/

theorem texts?_list (texts : List String) : texts? (.list (texts.map .text)) = some texts := by
  induction texts with
  | nil => rfl
  | cons s texts ih =>
    rw [texts?] at ih ⊢
    simp [List.mapM_cons, text?, ih]

theorem texts?_eq_some_iff {values : List Json} {texts : List String} :
    texts? (.list values) = some texts ↔ values = texts.map .text := by
  refine ⟨fun h => ?_, fun h => h ▸ texts?_list texts⟩
  rw [texts?] at h
  induction values generalizing texts with
  | nil => rw [← Option.some.inj h]; rfl
  | cons v values ih =>
    simp only [List.mapM_cons, Option.bind_eq_bind, Option.bind_eq_some_iff] at h
    obtain ⟨s, hs, rest, hrest, heq⟩ := h
    obtain rfl : s :: rest = texts := Option.some.inj heq
    cases v with
    | text _ => rw [List.map_cons, ih hrest, Option.some.inj hs]
    | _ => exact absurd hs (by simp [text?])

theorem nullable?_textOrNull (s : Option String) : nullable? text? (textOrNull s) = some s := by
  cases s <;> rfl

theorem nat?_ofNat {most n : Nat} (h : n ≤ most) : nat? most (ofNat n) = some n := by
  show nat? most (.number (.integer (.ofNat n))) = some n
  rw [nat?, if_pos h]

end WikiPress.Json
