import WikiPress.Proofs.LinkPolicy.Local

/-!
# The policy applied again

A link that the policy has treated has its final address, but not always its final marks.  If the
root is on the web, a link to a page of the wiki gets an address on the web, and is marked only when
the policy sees that address.  So the policy changes such a link a second time, unless it has those
marks by itself.  All other links are the same after the second time as after the first, and from
the second time on nothing changes for any link.

## Main results

* `Token.setAttribute_eq_self_iff` : an attribute that is set to the value that it has.
* `LinkPolicy.apply_eq_self_iff` : the links that the policy leaves as they are.
* `LinkPolicy.apply_apply_eq_iff` : the links that the policy leaves as they are the second time.
* `LinkPolicy.exists_apply_apply_ne` : a link that it changes the second time.
-/

namespace WikiPress

open Text

/-! ### Attributes that are set to the value that they have -/

namespace Token

theorem updateAttribute_eq_self {key value : String} {as : List (String × String)}
    (h : findAttribute? key as = some value) : updateAttribute key value as = as := by
  induction as with
  | nil => exact nomatch h
  | cons a as ih =>
    obtain ⟨k, v⟩ := a
    rw [findAttribute?] at h
    rw [updateAttribute]
    split at h
    · next hkey => rw [if_pos hkey, Option.some.inj h]
    · next hkey => rw [if_neg hkey, ih h]

theorem setAttribute_eq_self_iff {t : Token} {key value : String} :
    t.setAttribute key value = t ↔ t.attribute? key = some value := by
  constructor
  · intro h
    rw [← h]
    exact LinkPolicy.attribute?_setAttribute_self key value t
  · intro h
    cases t
    rw [setAttribute, updateAttribute_eq_self h]

end Token

theorem Url.IsSpelledOut.append {href : List Char} (h : Url.IsSpelledOut href)
    (more : List Char) : Url.IsSpelledOut (href ++ more) := by
  obtain ⟨scheme, rest, rfl, hscheme⟩ := h
  exact ⟨scheme, rest ++ more, by simp, hscheme⟩

/-! ### Links that are left as they are -/

section Marks

variable {o : WikiOptions} {t u : Token} {href value : String}

theorem WikiOptions.Marks.congr [UrlParser] (h : o.Marks t href)
    (heq : ∀ key ≠ "href", u.attribute? key = t.attribute? key) : o.Marks u href where
  followed hallows := (heq "rel" (by decide)).trans (h.followed hallows)
  unfollowed hallows := (heq "rel" (by decide)).trans (h.unfollowed hallows)
  window hwindow := (heq "target" (by decide)).trans (h.window hwindow)

/-- A link to the web is left as it is if it has its marks already. -/
theorem WikiOptions.Marks.applyWeb_eq [UrlParser] (h : o.Marks t href) :
    o.linkPolicy.applyWeb href.toList t = t := by
  have hrel : t.attribute? "rel" =
      some (if o.linkPolicy.allows href.toList then LinkPolicy.followed
        else LinkPolicy.unfollowed) := by
    split
    · next hallows => exact h.followed ((allows_linkPolicy_iff o href).mp hallows)
    · next hallows => exact h.unfollowed (mt (allows_linkPolicy_iff o href).mpr hallows)
  unfold LinkPolicy.applyWeb
  rw [Token.setAttribute_eq_self_iff.mpr hrel]
  split
  · next hwindow => exact Token.setAttribute_eq_self_iff.mpr (h.window hwindow)
  · rfl

end Marks

namespace LinkPolicy

variable {o : WikiOptions} {p : LinkPolicy} {t : Token} {root : List Char}
  {value target : String}

/-- The links that the policy leaves as they are: those to the web have their marks, and the others
have no place under the base address but their own. -/
theorem apply_eq_self_iff [UrlParser] :
    o.linkPolicy.apply t = t ↔ ∀ value, t.attribute? "href" = some value → value.toList ≠ [] →
      (isWeb value.toList = true → o.Marks t value) ∧
        (o.linkPolicy.prefixed? value.toList).getD value.toList = value.toList := by
  constructor
  · intro h value hvalue hne
    constructor
    · intro hweb
      have hmarks := (WikiOptions.marks_apply_of_isWeb (o := o) hvalue hweb).2
      rwa [h] at hmarks
    · exact getD_prefixed?_of_attribute?_apply (by rw [h]; exact hvalue) hne
  · intro h
    by_cases hempty : ∀ value, t.attribute? "href" = some value → value.toList = []
    · exact apply_eq_self_of_forall_eq_nil hempty
    · simp only [not_forall] at hempty
      obtain ⟨value, hvalue, hne⟩ := hempty
      obtain ⟨hmarks, hplace⟩ := h value hvalue hne
      by_cases hweb : isWeb value.toList = true
      · rw [apply_of_isWeb hvalue hweb]
        exact (hmarks hweb).applyWeb_eq
      · rw [apply_of_isWeb_eq_false hvalue hne (Bool.not_eq_true _ ▸ hweb)]
        cases htarget : o.linkPolicy.prefixed? value.toList with
        | none => rfl
        | some target =>
          rw [htarget, Option.getD_some] at hplace
          refine Token.setAttribute_eq_self_iff.mpr ?_
          rw [hplace, String.ofList_toList, hvalue]

/-- The second time it is only a link to the web without its marks that the policy changes. -/
theorem apply_apply_eq_iff_marks [UrlParser] :
    o.linkPolicy.apply (o.linkPolicy.apply t) = o.linkPolicy.apply t ↔
      ∀ target, (o.linkPolicy.apply t).attribute? "href" = some target →
        isWeb target.toList = true → o.Marks (o.linkPolicy.apply t) target := by
  rw [apply_eq_self_iff]
  constructor
  · intro h target htarget hweb
    exact (h target htarget fun hempty => by rw [hempty] at hweb; exact nomatch hweb).1 hweb
  · intro h target htarget hne
    exact ⟨h target htarget, getD_prefixed?_of_attribute?_apply htarget hne⟩

/-! ### Links to pages of the wiki -/

/-- The policy sets nothing but the address of a link to a page of the wiki. -/
theorem attribute?_apply_of_isLocal [UrlParser] (hvalue : t.attribute? "href" = some value)
    (hlocal : IsLocal value.toList) {key : String} (hkey : key ≠ "href") :
    (p.apply t).attribute? key = t.attribute? key := by
  rw [apply_of_isWeb_eq_false hvalue hlocal.ne_nil hlocal.isWeb_eq_false]
  split
  · exact attribute?_setAttribute_of_ne hkey _ t
  · rfl

/-- A page of the wiki gets an address on the web exactly if the root is on the web. -/
theorem isWeb_attribute?_apply_iff [UrlParser] (hroot : IsRoot root p.baseUrl)
    (hvalue : t.attribute? "href" = some value) (hlocal : IsLocal value.toList)
    (htarget : (p.apply t).attribute? "href" = some target) :
    isWeb target.toList = true ↔ Url.IsSpelledOut root := by
  constructor
  · intro hweb
    rw [attribute?_href_apply hvalue hlocal.ne_nil, Option.some.injEq] at htarget
    rw [← htarget, String.toList_ofList] at hweb
    cases hprefixed : p.prefixed? value.toList with
    | none =>
      rw [hprefixed, Option.getD_none, hlocal.isWeb_eq_false] at hweb
      exact nomatch hweb
    | some joined =>
      rw [hprefixed, Option.getD_some, prefixed?_eq_some hprefixed, isRoot_iff.mp hroot] at hweb
      have hrootWeb := isWeb_append_of_isWeb_join hroot.getLast?_ne
        (head?_dropWhile_slash_ne value.toList) hweb []
      rw [List.append_nil] at hrootWeb
      exact isWeb_iff.mp hrootWeb
  · intro hspelled
    have hscheme := namesScheme_of_isWeb (isWeb_iff.mpr hspelled)
    have hne : root ≠ [] := fun hempty => by
      obtain ⟨scheme, rest, heq, -⟩ := hspelled
      simp [heq] at hempty
    -- Below such a root every address has the scheme of the root.
    have hbelow : ¬(root ≠ [] ∧ IsBelow root value.toList) := by
      rintro ⟨-, heq | ⟨more, heq⟩⟩
      · exact hlocal.not_namesScheme (heq ▸ hscheme)
      · exact hlocal.not_namesScheme (heq ▸ (hscheme.append _).append _)
    rw [attribute?_href_apply_of_not_isBelow (hroot.baseUrl_ne hne) hroot hvalue hlocal hbelow,
      Option.some.injEq] at htarget
    rw [← htarget, String.toList_ofList]
    exact isWeb_iff.mpr (hspelled.append _)

/-- A link that does not lead to a page of the wiki is settled after the first time. -/
theorem marks_apply_of_not_isLocal [UrlParser]
    (hlocal : ∀ value, t.attribute? "href" = some value → ¬IsLocal value.toList)
    (htarget : (o.linkPolicy.apply t).attribute? "href" = some target)
    (hweb : isWeb target.toList = true) : o.Marks (o.linkPolicy.apply t) target := by
  have hvalue : t.attribute? "href" = some target := by
    by_cases hempty : ∀ value, t.attribute? "href" = some value → value.toList = []
    · rwa [apply_eq_self_of_forall_eq_nil hempty] at htarget
    · simp only [not_forall] at hempty
      obtain ⟨value, hvalue, hne⟩ := hempty
      rw [attribute?_href_apply hvalue hne,
        prefixed?_eq_none_of_not_isLocal hne (hlocal value hvalue), Option.getD_none,
        String.ofList_toList] at htarget
      rwa [htarget] at hvalue
  exact (WikiOptions.marks_apply_of_isWeb hvalue hweb).2

/-- **The policy is settled after the second time, and mostly after the first.**  Applying the
policy to a link again changes nothing, unless the root is on the web and the link leads to a page
of the wiki: then nothing changes exactly if the link has the marks of its new address by itself.
Applying the policy a third time never changes anything. -/
theorem apply_apply_eq_iff [UrlParser] (hroot : IsRoot root o.baseUrl) (t : Token) :
    (o.linkPolicy.apply (o.linkPolicy.apply t) = o.linkPolicy.apply t ↔
      ∀ value target : String, t.attribute? "href" = some value → IsLocal value.toList →
        Url.IsSpelledOut root → (o.linkPolicy.apply t).attribute? "href" = some target →
        o.Marks t target) ∧
    o.linkPolicy.apply (o.linkPolicy.apply (o.linkPolicy.apply t)) =
      o.linkPolicy.apply (o.linkPolicy.apply t) := by
  have hrootPolicy : IsRoot root o.linkPolicy.baseUrl := hroot
  constructor
  · rw [apply_apply_eq_iff_marks]
    constructor
    · intro h value target hvalue hlocal hspelled htarget
      have hweb := (isWeb_attribute?_apply_iff hrootPolicy hvalue hlocal htarget).mpr hspelled
      exact (h target htarget hweb).congr fun key hkey =>
        (attribute?_apply_of_isLocal hvalue hlocal hkey).symm
    · intro h target htarget hweb
      by_cases hlocal : ∀ value, t.attribute? "href" = some value → ¬IsLocal value.toList
      · exact marks_apply_of_not_isLocal hlocal htarget hweb
      · simp only [not_forall, not_not] at hlocal
        obtain ⟨value, hvalue, hlocal⟩ := hlocal
        have hspelled := (isWeb_attribute?_apply_iff hrootPolicy hvalue hlocal htarget).mp hweb
        exact (h value target hvalue hlocal hspelled htarget).congr fun key hkey =>
          attribute?_apply_of_isLocal hvalue hlocal hkey
  · rw [apply_apply_eq_iff_marks]
    intro target htarget hweb
    rw [attribute?_href_apply_apply] at htarget
    exact (WikiOptions.marks_apply_of_isWeb htarget hweb).2

/-- The root is on the web, and a link to a page of the wiki has the marks of its new address. -/
theorem apply_apply_eq_of_marked :
    let o : WikiOptions := { baseUrl := "https://w.org/", openNewWindow := false }
    let t : Token :=
      { kind := .linkOpen, tag := "a", nesting := 1,
        attributes := [("rel", "external nofollow noopener noreferrer"), ("href", "page")] }
    IsRoot "https://w.org".toList o.baseUrl ∧
      (o.linkPolicy.apply t).attribute? "href" = some "https://w.org/page" ∧
      o.linkPolicy.apply (o.linkPolicy.apply t) = o.linkPolicy.apply t := by
  intro o t
  have hroot : IsRoot "https://w.org".toList o.baseUrl :=
    ⟨⟨['/'], by decide, List.forall_mem_singleton.mpr rfl⟩, by decide⟩
  refine ⟨hroot, by decide +kernel, (apply_apply_eq_iff hroot t).1.mpr fun _ target _ _ _ _ => ?_⟩
  have hnone : ¬o.Allows target := fun ⟨_, _, _, hdomain, _⟩ => List.not_mem_nil hdomain
  exact ⟨fun hallows => absurd hallows hnone, fun _ => rfl, fun hwindow => nomatch hwindow⟩

/-- A link to a page of a wiki on the web is marked the second time, as if it led elsewhere. -/
theorem exists_apply_apply_ne :
    let o : WikiOptions := { baseUrl := "https://w.org" }
    let t : Token :=
      { kind := .linkOpen, tag := "a", nesting := 1, attributes := [("href", "page")] }
    (t.attributes.map Prod.fst).Nodup ∧
      (o.linkPolicy.apply t).attributes = [("href", "https://w.org/page")] ∧
      (o.linkPolicy.apply (o.linkPolicy.apply t)).attributes =
        [("href", "https://w.org/page"), ("rel", "external nofollow noopener noreferrer"),
          ("target", "_blank")] := by
  decide +kernel

end LinkPolicy

end WikiPress
