import Mathlib.Data.List.Basic
import WikiPress.Processor
import WikiPress.Proofs.Text.Blank

/-!
# What the policy does to a link

The policy sets attributes of the tokens that open links, and nothing else.  Attributes that are
there stay in their places, and only the address, `rel` and `target` get other values; the latter
two are added behind the others if they are missing.

A link that leads to the web before the policy is applied says afterwards how it is to be followed.
A relative link is put under the base address, and then leads to the web only if the base address
does.

## Main definitions

* `LinkPolicy.Reworked` : attributes before and after the policy is applied.
* `WikiOptions.Allows`, `WikiOptions.Marks` : what a link says of how it is to be followed.

## Main results

* `LinkPolicy.apply_cases` : all that the policy can do to a token.
* `LinkPolicy.reworked_apply` : what it does to the attributes.
* `WikiOptions.marks_apply` : links to the web are marked, if the base address is not on the web.
-/

namespace WikiPress

open Text

/-! ### Setting an attribute -/

namespace Token

theorem keys_updateAttribute (key value : String) (as : List (String × String)) :
    (updateAttribute key value as).map Prod.fst =
      if key ∈ as.map Prod.fst then as.map Prod.fst else as.map Prod.fst ++ [key] := by
  induction as with
  | nil => simp [updateAttribute]
  | cons a as ih =>
    obtain ⟨k, v⟩ := a
    by_cases hk : k = key
    · simp [updateAttribute, hk]
    · have hne : key ≠ k := Ne.symm hk
      simp only [updateAttribute, if_neg hk, List.map_cons, ih, List.mem_cons, hne, false_or]
      split <;> rfl

/-- Attributes that a token has once stay so when one of them is set. -/
theorem nodup_keys_updateAttribute {as : List (String × String)} (h : (as.map Prod.fst).Nodup)
    (key value : String) : ((updateAttribute key value as).map Prod.fst).Nodup := by
  rw [keys_updateAttribute]
  split
  · exact h
  · next hkey =>
    rw [List.nodup_append]
    refine ⟨h, List.nodup_cons.mpr ⟨List.not_mem_nil, List.nodup_nil⟩, ?_⟩
    rintro k hk k' hk' rfl
    exact hkey (List.mem_singleton.mp hk' ▸ hk)

end Token

namespace LinkPolicy

variable {p : LinkPolicy} {t : Token} {as bs : List (String × String)} {key : String}

/-! ### Attributes before and after -/

/-- Whether the policy changes the value of an attribute. -/
def IsChanged (key : String) : Prop := key = "href" ∨ key = "rel" ∨ key = "target"

/-- Whether the policy adds an attribute. -/
def IsAdded (key : String) : Prop := key = "rel" ∨ key = "target"

/-- Attributes before and after the policy is applied. -/
inductive Reworked : List (String × String) → List (String × String) → Prop
  | added {bs : List (String × String)} : (∀ b ∈ bs, IsAdded b.1) → Reworked [] bs
  | kept {a : String × String} {as bs : List (String × String)} : Reworked as bs →
      Reworked (a :: as) (a :: bs)
  | changed {key v w : String} {as bs : List (String × String)} : IsChanged key →
      Reworked as bs → Reworked ((key, v) :: as) ((key, w) :: bs)

theorem Reworked.refl (as : List (String × String)) : Reworked as as := by
  induction as with
  | nil => exact .added (by simp)
  | cons a as ih => exact .kept ih

theorem forall_mem_updateAttribute {P : String → Prop} (hkey : P key) (value : String)
    (h : ∀ a ∈ as, P a.1) : ∀ a ∈ Token.updateAttribute key value as, P a.1 := by
  rw [← List.forall_mem_map (f := Prod.fst), Token.keys_updateAttribute]
  rw [← List.forall_mem_map (f := Prod.fst)] at h
  split
  · exact h
  · exact List.forall_mem_append.mpr ⟨h, List.forall_mem_singleton.mpr hkey⟩

/-- Setting one of the attributes that may be added. -/
theorem Reworked.update (h : Reworked as bs) (hkey : IsAdded key) (value : String) :
    Reworked as (Token.updateAttribute key value bs) := by
  induction h with
  | added hbs => exact .added (forall_mem_updateAttribute hkey value hbs)
  | @kept a as bs h ih =>
    obtain ⟨k, v⟩ := a
    rw [Token.updateAttribute]
    split
    · next heq => exact .changed (.inr (heq ▸ hkey)) h
    · exact .kept ih
  | changed hchanged h ih =>
    rw [Token.updateAttribute]
    split
    · exact .changed hchanged h
    · exact .changed hchanged ih

/-- Changing an address that is there. -/
theorem reworked_updateHref {href : String} (h : Token.findAttribute? "href" as = some href)
    (value : String) : Reworked as (Token.updateAttribute "href" value as) := by
  induction as with
  | nil => exact nomatch h
  | cons a as ih =>
    obtain ⟨k, v⟩ := a
    rw [Token.findAttribute?] at h
    rw [Token.updateAttribute]
    split at h
    · next heq =>
      rw [if_pos heq]
      exact .changed (.inl heq) (.refl as)
    · next hne =>
      rw [if_neg hne]
      exact .kept (ih h)

/-! ### One token -/

/-- All that the policy can do to a token: nothing, if there is no address that leads to the web;
to mark a link to the web; to put another link under the base address. -/
theorem apply_cases [UrlParser] (p : LinkPolicy) (t : Token) :
    (p.apply t = t ∧ ∀ href, t.attribute? "href" = some href → isWeb href.toList = false) ∨
      (∃ href, t.attribute? "href" = some href ∧ isWeb href.toList = true ∧
        p.apply t = p.applyWeb href.toList t) ∨
      ∃ href target, t.attribute? "href" = some href ∧ isWeb href.toList = false ∧
        p.prefixed? href.toList = some target ∧
        p.apply t = t.setAttribute "href" (String.ofList target) := by
  unfold apply
  split
  · next hnone => exact .inl ⟨rfl, by simp [hnone]⟩
  · next href hsome =>
    have hhref : ∀ href', t.attribute? "href" = some href' → href' = href := fun href' h =>
      Option.some.inj (h.symm.trans hsome)
    dsimp only
    split
    · next hempty =>
      refine .inl ⟨rfl, fun href' h => ?_⟩
      rw [hhref href' h, List.isEmpty_iff.mp hempty]
      rfl
    · split
      · next hweb => exact .inr (.inl ⟨href, hsome, hweb, rfl⟩)
      · next hweb =>
        rw [Bool.not_eq_true] at hweb
        split
        · next target htarget => exact .inr (.inr ⟨href, target, hsome, hweb, htarget, rfl⟩)
        · exact .inl ⟨rfl, fun href' h => hhref href' h ▸ hweb⟩

theorem applyWeb_eq [UrlParser] (p : LinkPolicy) (href : List Char) (t : Token) :
    p.applyWeb href t =
      { t with
        attributes :=
          let as := Token.updateAttribute "rel" (if p.allows href then followed else unfollowed)
            t.attributes
          if p.newWindow then Token.updateAttribute "target" "_blank" as else as } := by
  unfold applyWeb
  dsimp only
  split <;> rfl

theorem attribute?_setAttribute_of_ne {key other : String} (h : other ≠ key) (value : String)
    (t : Token) : (t.setAttribute key value).attribute? other = t.attribute? other :=
  Token.findAttribute?_updateAttribute_of_ne value t.attributes h

theorem attribute?_setAttribute_self (key value : String) (t : Token) :
    (t.setAttribute key value).attribute? key = some value :=
  Token.findAttribute?_updateAttribute_self key value t.attributes

theorem attribute?_applyWeb_rel [UrlParser] (p : LinkPolicy) (href : List Char) (t : Token) :
    (p.applyWeb href t).attribute? "rel" =
      some (if p.allows href then followed else unfollowed) := by
  unfold applyWeb
  dsimp only
  split
  · rw [attribute?_setAttribute_of_ne (by decide), attribute?_setAttribute_self]
  · rw [attribute?_setAttribute_self]

theorem attribute?_applyWeb_target [UrlParser] (h : p.newWindow = true) (href : List Char)
    (t : Token) :
    (p.applyWeb href t).attribute? "target" = some "_blank" := by
  unfold applyWeb
  dsimp only
  rw [if_pos h, attribute?_setAttribute_self]

theorem attribute?_applyWeb_href [UrlParser] (p : LinkPolicy) (href : List Char) (t : Token) :
    (p.applyWeb href t).attribute? "href" = t.attribute? "href" := by
  unfold applyWeb
  dsimp only
  split
  · rw [attribute?_setAttribute_of_ne (by decide), attribute?_setAttribute_of_ne (by decide)]
  · rw [attribute?_setAttribute_of_ne (by decide)]

/-- The policy sets attributes and nothing else. -/
theorem reworked_apply [UrlParser] (p : LinkPolicy) (t : Token) :
    ∃ as, p.apply t = { t with attributes := as } ∧ Reworked t.attributes as ∧
      ((t.attributes.map Prod.fst).Nodup → (as.map Prod.fst).Nodup) := by
  obtain ⟨h, _⟩ | ⟨href, hhref, _, h⟩ | ⟨href, target, hhref, _, _, h⟩ := apply_cases p t
  · refine ⟨t.attributes, ?_, .refl _, id⟩
    rw [h]
    cases t
    rfl
  · rw [h, applyWeb_eq]
    refine ⟨_, rfl, ?_, fun hnodup => ?_⟩
    · have hrel := (Reworked.refl t.attributes).update (.inl rfl)
        (if p.allows href.toList then followed else unfollowed)
      dsimp only
      split
      · exact hrel.update (.inr rfl) _
      · exact hrel
    · have hrel := Token.nodup_keys_updateAttribute hnodup "rel"
        (if p.allows href.toList then followed else unfollowed)
      dsimp only
      split
      · exact Token.nodup_keys_updateAttribute hrel _ _
      · exact hrel
  · exact ⟨_, h, reworked_updateHref hhref _, fun hnodup =>
      Token.nodup_keys_updateAttribute hnodup _ _⟩

/-! ### Relative links -/

theorem dropIgnoringCase?_eq_some {start s rest : List Char}
    (h : Ascii.dropIgnoringCase? start s = some rest) :
    ∃ u, s = u ++ rest ∧ Ascii.lowerText u = Ascii.lowerText start := by
  induction start generalizing s with
  | nil => exact ⟨[], Option.some.inj h, rfl⟩
  | cons a start ih =>
    cases s with
    | nil => exact nomatch h
    | cons c s =>
      rw [Ascii.dropIgnoringCase?] at h
      split at h
      · next hc =>
        obtain ⟨u, rfl, hu⟩ := ih h
        exact ⟨c :: u, rfl, congrArg₂ List.cons hc.symm hu⟩
      · exact nomatch h

theorem startsWithIgnoringCase_append {start u v : List Char}
    (h : Ascii.lowerText u = Ascii.lowerText start) :
    Ascii.startsWithIgnoringCase start (u ++ v) = true := by
  induction start generalizing u with
  | nil => rfl
  | cons a start ih =>
    cases u with
    | nil => exact nomatch h
    | cons c u =>
      obtain ⟨hc, hu⟩ := List.cons.inj h
      have := ih hu
      rw [Ascii.startsWithIgnoringCase] at this ⊢
      rw [List.cons_append, Ascii.dropIgnoringCase?, if_pos (Eq.symm hc)]
      exact this

theorem startsWithIgnoringCase_iff {start s : List Char} :
    Ascii.startsWithIgnoringCase start s = true ↔
      ∃ u v, s = u ++ v ∧ Ascii.lowerText u = Ascii.lowerText start := by
  constructor
  · intro h
    obtain ⟨rest, hrest⟩ := Option.isSome_iff_exists.mp h
    obtain ⟨u, hs, hu⟩ := dropIgnoringCase?_eq_some hrest
    exact ⟨u, rest, hs, hu⟩
  · rintro ⟨u, v, rfl, hu⟩
    exact startsWithIgnoringCase_append hu

/-- Only an upper-case letter is another character in lower case, and then it is a letter. -/
theorem eq_of_lower_eq {c d : Char} (hd : d.isLower = false) (h : Ascii.lower c = d) : c = d := by
  unfold Ascii.lower Char.toLower at h
  unfold Char.isLower at hd
  split at h
  · next hupper =>
    have hval := congrArg (fun c : Char => c.val.toNat) h
    simp [UInt32.le_iff_toNat_le] at hval hupper hd
    omega
  · exact h

theorem eq_slash_of_lower_eq {c : Char} (h : Ascii.lower c = '/') : c = '/' :=
  eq_of_lower_eq (by decide) h

/-- Two slashes behind a scheme, the first of which is at hand. -/
theorem append_slash_cases {scheme u v : List Char} (hscheme : '/' ∉ scheme)
    (h : u ++ '/' :: v = scheme ++ ['/', '/']) :
    v = ['/'] ∨ u = scheme ++ ['/'] := by
  obtain ⟨w, hw, hv⟩ | ⟨w, rfl, hv⟩ := List.append_eq_append_iff.mp h
  · cases w with
    | nil => exact .inl (List.cons.inj hv).2
    | cons c w =>
      rw [List.cons_append, List.cons.injEq] at hv
      exact absurd (by rw [hw, ← hv.1]; simp) hscheme
  · cases w with
    | nil => exact .inl (List.cons.inj hv).2.symm
    | cons c w =>
      cases w with
      | nil => exact .inr (by rw [(List.cons.inj hv).1])
      | cons d w => simp at hv

/-- A text that begins with a scheme and two slashes, and in which only one slash stands behind its
first part, has the scheme and the slashes in that part. -/
theorem startsWithIgnoringCase_of_append {scheme base rest : List Char} (hscheme : '/' ∉ scheme)
    (hlower : Ascii.lowerText (scheme ++ ['/', '/']) = scheme ++ ['/', '/'])
    (hbase : base.getLast? ≠ some '/') (hrest : rest.head? ≠ some '/')
    (h : Ascii.startsWithIgnoringCase (scheme ++ ['/', '/']) (base ++ '/' :: rest) = true)
    (more : List Char) :
    Ascii.startsWithIgnoringCase (scheme ++ ['/', '/']) (base ++ more) = true := by
  rw [startsWithIgnoringCase_iff] at h ⊢
  obtain ⟨u, v, heq, hu⟩ := h
  obtain ⟨w, rfl, hw⟩ | ⟨w, rfl, hw⟩ := List.append_eq_append_iff.mp heq
  · cases w with
    | nil => exact ⟨base, more, rfl, by simpa using hu⟩
    | cons c w =>
      -- The scheme goes on behind the first part, which ends with a slash or is followed by two.
      obtain ⟨rfl, rfl⟩ := List.cons.inj hw
      rw [hlower, Ascii.lowerText, List.map_append, List.map_cons,
        show Ascii.lower '/' = '/' by decide] at hu
      rcases append_slash_cases hscheme hu with hslash | hslash
      · cases w with
        | nil => exact nomatch hslash
        | cons d w =>
          have hd := eq_slash_of_lower_eq (List.cons.inj hslash).1
          exact absurd (congrArg some hd) hrest
      · have hlast := congrArg List.getLast? hslash
        rw [List.getLast?_map, List.getLast?_concat, Option.map_eq_some_iff] at hlast
        obtain ⟨d, hd, hslash⟩ := hlast
        exact absurd (eq_slash_of_lower_eq hslash ▸ hd) hbase
  · exact ⟨u, w ++ more, by rw [List.append_assoc], hu⟩

theorem getLast?_dropEndWhile_ne {p : Char → Bool} {c : Char} (hc : p c = true) (s : List Char) :
    (dropEndWhile p s).getLast? ≠ some c := by
  rw [dropEndWhile, List.getLast?_reverse]
  intro h
  have := List.head?_dropWhile_not p s.reverse
  rw [h] at this
  simp [hc] at this

theorem prefixed?_eq_some {href target : List Char} (h : p.prefixed? href = some target) :
    target = p.base ++ '/' :: href.dropWhile (· = '/') := by
  unfold prefixed? at h
  split at h
  · exact nomatch h
  · split at h
    · exact nomatch h
    · exact (Option.some.inj h).symm

/-- Whether two parts that are joined by one slash lead to the web is seen from the first part. -/
theorem isWeb_append_of_isWeb_join {base rest : List Char} (hbase : base.getLast? ≠ some '/')
    (hrest : rest.head? ≠ some '/') (h : isWeb (base ++ '/' :: rest) = true) (more : List Char) :
    isWeb (base ++ more) = true := by
  rw [isWeb, Bool.or_eq_true] at h ⊢
  refine h.imp (fun h => ?_) fun h => ?_
  · exact startsWithIgnoringCase_of_append (show '/' ∉ "http:".toList by decide) (by decide) hbase
      hrest h more
  · exact startsWithIgnoringCase_of_append (show '/' ∉ "https:".toList by decide) (by decide) hbase
      hrest h more

theorem head?_dropWhile_slash_ne (href : List Char) :
    (href.dropWhile (· = '/')).head? ≠ some '/' := by
  intro h
  have := eq_false_of_mem_head?_dropWhile (p := (· = '/')) (Option.mem_def.mpr h)
  simp at this

/-- A link under an address that is not on the web is not on the web either. -/
theorem isWeb_of_isWeb_prefixed? {href target : List Char} (h : p.prefixed? href = some target)
    (hweb : isWeb target = true) : isWeb p.baseUrl.toList = true := by
  obtain rfl := prefixed?_eq_some h
  obtain ⟨slashes, heq⟩ := prefix_dropEndWhile (· = '/') p.baseUrl.toList
  rw [heq]
  exact isWeb_append_of_isWeb_join (getLast?_dropEndWhile_ne (by simp) _)
    (head?_dropWhile_slash_ne href) hweb slashes

end LinkPolicy

/-! ### Marks -/

namespace WikiOptions

/-- Whether the host of an address is one of the hosts that options allow, up to blanks around these
and the case of letters. -/
def Allows [UrlParser] (o : WikiOptions) (href : String) : Prop :=
  ∃ host ∈ (UrlParser.parse? href.toList).bind (·.host?),
    ∃ domain ∈ o.allowedExternalDomains,
      Ascii.lowerText host = Ascii.lowerText (trim domain.toList)

/-- Whether a link to the web says how it is to be followed. -/
structure Marks [UrlParser] (o : WikiOptions) (t : Token) (href : String) : Prop where
  followed : o.Allows href → t.attribute? "rel" = some "external noopener noreferrer"
  unfollowed : ¬o.Allows href →
    t.attribute? "rel" = some "external nofollow noopener noreferrer"
  window : o.openNewWindow = true → t.attribute? "target" = some "_blank"

theorem allows_linkPolicy_iff [UrlParser] (o : WikiOptions) (href : String) :
    o.linkPolicy.allows href.toList = true ↔ o.Allows href := by
  simp only [LinkPolicy.allows, linkPolicy, Allows, Option.any_eq_true, Option.mem_def,
    List.contains_iff_mem, List.mem_map, LinkPolicy.normalizeHost, String.ofList_inj]
  simp only [eq_comm (a := Ascii.lowerText (trim _))]

variable {o : WikiOptions} {t : Token} {href : String}

/-- A link to the web keeps its address and is marked. -/
theorem marks_apply_of_isWeb [UrlParser] (hhref : t.attribute? "href" = some href)
    (hweb : LinkPolicy.isWeb href.toList = true) :
    (o.linkPolicy.apply t).attribute? "href" = some href ∧ o.Marks (o.linkPolicy.apply t) href := by
  obtain ⟨_, hnone⟩ | ⟨href', hhref', _, h⟩ | ⟨href', _, hhref', hnone, _⟩ :=
    LinkPolicy.apply_cases o.linkPolicy t
  · exact absurd (hnone href hhref) (by simp [hweb])
  · obtain rfl : href' = href := Option.some.inj (hhref'.symm.trans hhref)
    rw [h]
    refine ⟨(LinkPolicy.attribute?_applyWeb_href _ _ t).trans hhref, ⟨fun hallows => ?_,
      fun hallows => ?_, fun hwindow => LinkPolicy.attribute?_applyWeb_target hwindow _ t⟩⟩
    · rw [LinkPolicy.attribute?_applyWeb_rel, if_pos ((allows_linkPolicy_iff o href').mpr hallows)]
      rfl
    · rw [LinkPolicy.attribute?_applyWeb_rel,
        if_neg (mt (allows_linkPolicy_iff o href').mp hallows)]
      rfl
  · obtain rfl : href' = href := Option.some.inj (hhref'.symm.trans hhref)
    exact absurd hnone (by simp [hweb])

/-- If the base address is not on the web, all links that lead to the web afterwards are marked. -/
theorem marks_apply [UrlParser] (hbase : LinkPolicy.isWeb o.baseUrl.toList = false)
    (hhref : (o.linkPolicy.apply t).attribute? "href" = some href)
    (hweb : LinkPolicy.isWeb href.toList = true) : o.Marks (o.linkPolicy.apply t) href := by
  obtain ⟨h, hnone⟩ | ⟨href', hhref', hweb', _⟩ | ⟨_, target, _, _, htarget, h⟩ :=
    LinkPolicy.apply_cases o.linkPolicy t
  · exact absurd (hnone href (h ▸ hhref)) (by simp [hweb])
  · have hmarks := marks_apply_of_isWeb (o := o) hhref' hweb'
    obtain rfl : href' = href := Option.some.inj (hmarks.1.symm.trans hhref)
    exact hmarks.2
  · -- The address is one under the base address.
    rw [h, Token.attribute?, Token.setAttribute, Token.findAttribute?_updateAttribute_self,
      Option.some.injEq] at hhref
    rw [← hhref, String.toList_ofList] at hweb
    have := LinkPolicy.isWeb_of_isWeb_prefixed? htarget hweb
    exact absurd this (by simp [linkPolicy, hbase])

end WikiOptions

end WikiPress
