import WikiPress.Proofs.LinkPolicy.Spelling

/-!
# Addresses of the wiki

An address that begins neither with a scheme nor with two slashes names no host, so it is an address
of the wiki.  If there is a base address, the policy puts such an address behind the root, which is
the base address without the slashes at its end, with one slash between the two.  Only an address
that is the root or below it already stays as it is.

This is asked of the whole address and not of its path.  So an address whose path is the root, and
which has a query or a fragment behind it, is put below the root once more.

## Main definitions

* `LinkPolicy.IsRoot` : the base address without the slashes at its end.
* `LinkPolicy.IsLocal` : addresses without a host.
* `LinkPolicy.Joins` : an address behind the root, with one slash between them.
* `LinkPolicy.path` : an address without its query and its fragment.

## Main results

* `LinkPolicy.attribute?_href_apply` : the address of a link after the policy is applied.
* `LinkPolicy.getD_prefixed?` : an address that has been put under the base address stays there.
* `LinkPolicy.joins_apply` : addresses of the wiki are joined with the root.
* `LinkPolicy.attribute?_apply_eq_iff_of_isBelow_path` : addresses whose path is under the root.
-/

namespace WikiPress

open Text

namespace LinkPolicy

variable {p : LinkPolicy} {t : Token} {root href rest : List Char} {value : String}

/-! ### Roots and addresses without a host -/

/-- The base address without the slashes at its end. -/
structure IsRoot (root : List Char) (baseUrl : String) : Prop where
  exists_slashes : ∃ slashes, baseUrl.toList = root ++ slashes ∧ ∀ c ∈ slashes, c = '/'
  getLast?_ne : root.getLast? ≠ some '/'

/-- An address that names no host and no scheme, and is not empty. -/
structure IsLocal (href : List Char) : Prop where
  ne_nil : href ≠ []
  not_slashes : ¬['/', '/'] <+: href
  not_namesScheme : ¬NamesScheme href

/-- An address without the slashes at its start, behind the root and one slash.  No other slash
stands beside that one. -/
def Joins (root href target : List Char) : Prop :=
  ∃ slashes rest, href = slashes ++ rest ∧ (∀ c ∈ slashes, c = '/') ∧
    target = root ++ '/' :: rest ∧ root.getLast? ≠ some '/' ∧ rest.head? ≠ some '/'

/-- Every base address has one root, and the policy puts addresses behind it. -/
theorem isRoot_iff : IsRoot root p.baseUrl ↔ p.base = root := by
  constructor
  · rintro ⟨⟨slashes, heq, hslashes⟩, hlast⟩
    have hall : ∀ c ∈ slashes.reverse, decide (c = '/') = true := fun c hc =>
      decide_eq_true (hslashes c (List.mem_reverse.mp hc))
    have hhead : ∀ c ∈ root.reverse.head?, decide (c = '/') = false := by
      intro c hc
      rw [List.head?_reverse] at hc
      exact decide_eq_false fun hslash => hlast (hslash ▸ hc)
    rw [base, heq, dropEndWhile, List.reverse_append, List.dropWhile_append_of_pos hall,
      dropWhile_eq_self_of_head? hhead, List.reverse_reverse]
  · rintro rfl
    refine ⟨⟨(p.baseUrl.toList.reverse.takeWhile (· = '/')).reverse, ?_, fun c hc => ?_⟩,
      getLast?_dropEndWhile_ne (by decide) _⟩
    · rw [base, dropEndWhile, ← List.reverse_append, List.takeWhile_append_dropWhile,
        List.reverse_reverse]
    · exact of_decide_eq_true (List.mem_takeWhile_imp (p := fun c => decide (c = '/'))
        (List.mem_reverse.mp hc))

/-- With a root there is a base address. -/
theorem IsRoot.baseUrl_ne (h : IsRoot root p.baseUrl) (hne : root ≠ []) : p.baseUrl ≠ "" := by
  obtain ⟨slashes, heq, -⟩ := h.exists_slashes
  intro hempty
  rw [hempty] at heq
  exact hne (List.append_eq_nil_iff.mp heq.symm).1

theorem startsWith_iff {start s : List Char} : startsWith start s = true ↔ start <+: s := by
  rw [startsWith, Option.isSome_iff_exists]
  exact exists_congr fun rest => dropText?_eq_some.trans eq_comm

theorem isAlpha_of_lower_eq {c d : Char} (hd : Ascii.isAlpha d = true) (h : Ascii.lower c = d) :
    Ascii.isAlpha c = true := by
  unfold Ascii.lower Char.toLower at h
  split at h
  · next hupper =>
    have hc : c.isUpper = true := decide_eq_true hupper
    exact Bool.or_eq_true_iff.mpr (.inl hc)
  · exact h ▸ hd

theorem isScheme_of_isWebScheme {scheme : List Char} (h : Url.IsWebScheme scheme) :
    IsScheme scheme := by
  have hall : ∀ c ∈ scheme, Ascii.isAlpha c = true := by
    intro c hc
    have hmem : Ascii.lower c ∈ "http".toList ++ "https".toList := by
      rw [List.mem_append]
      have hlower : Ascii.lower c ∈ Ascii.lowerText scheme := List.mem_map_of_mem hc
      rcases h with heq | heq
      · exact .inl (heq ▸ hlower)
      · exact .inr (heq ▸ hlower)
    have hletters : ∀ d ∈ "http".toList ++ "https".toList, Ascii.isAlpha d = true :=
      List.all_iff_forall_prop.mp (by decide)
    exact isAlpha_of_lower_eq (hletters _ hmem) rfl
  cases scheme with
  | nil => exact h.elim (fun h => nomatch h) fun h => nomatch h
  | cons c rest =>
    rw [List.forall_mem_cons] at hall
    refine ⟨hall.1, fun d hd => .inl ?_⟩
    rw [Ascii.isAlphanumeric, Char.isAlphanum, ← Ascii.isAlpha, hall.2 d hd, Bool.true_or]

/-- An address on the web has a scheme. -/
theorem namesScheme_of_isWeb (h : isWeb href = true) : NamesScheme href := by
  obtain ⟨scheme, rest, rfl, hscheme⟩ := isWeb_iff.mp h
  exact ⟨scheme, '/' :: '/' :: rest, rfl, isScheme_of_isWebScheme hscheme⟩

theorem IsLocal.isWeb_eq_false (h : IsLocal href) : isWeb href = false :=
  Bool.eq_false_iff.mpr fun hweb => h.not_namesScheme (namesScheme_of_isWeb hweb)

theorem NamesScheme.append (h : NamesScheme root) (rest : List Char) :
    NamesScheme (root ++ rest) := by
  obtain ⟨scheme, tail, rfl, hscheme⟩ := h
  exact ⟨scheme, tail ++ rest, by simp, hscheme⟩

/-! ### What becomes of an address -/

theorem prefixed?_eq_none_of_not_isLocal (hne : href ≠ []) (h : ¬IsLocal href) :
    p.prefixed? href = none := by
  rw [prefixed?_eq_none_iff, startsWith_iff]
  by_contra hother
  simp only [not_or] at hother
  exact h ⟨hne, hother.2.1, hother.2.2.1⟩

/-- An address of the wiki is left alone if it is the root or below it. -/
theorem prefixed?_eq_none_of_isBelow (hroot : IsRoot root p.baseUrl) (hne : root ≠ [])
    (hbelow : IsBelow root href) : p.prefixed? href = none :=
  prefixed?_eq_none_iff.mpr (.inr (.inr (.inr (by rw [isRoot_iff.mp hroot]; exact ⟨hne, hbelow⟩))))

/-- Any other address of the wiki is put behind the root. -/
theorem prefixed?_of_not_isBelow (hbase : p.baseUrl ≠ "") (hroot : IsRoot root p.baseUrl)
    (hlocal : IsLocal href) (hbelow : ¬(root ≠ [] ∧ IsBelow root href)) :
    p.prefixed? href = some (root ++ '/' :: href.dropWhile (· = '/')) := by
  cases htarget : p.prefixed? href with
  | none =>
    rw [prefixed?_eq_none_iff, startsWith_iff, isRoot_iff.mp hroot] at htarget
    obtain h | h | h | h := htarget
    · exact absurd h hbase
    · exact absurd h hlocal.not_slashes
    · exact absurd h hlocal.not_namesScheme
    · exact absurd h hbelow
  | some target => rw [prefixed?_eq_some htarget, isRoot_iff.mp hroot]

theorem apply_of_isWeb [UrlParser] (hvalue : t.attribute? "href" = some value)
    (hweb : isWeb value.toList = true) : p.apply t = p.applyWeb value.toList t := by
  have hne : value.toList ≠ [] := fun hempty => by rw [hempty] at hweb; exact nomatch hweb
  simp [apply, hvalue, hne, hweb]

/-- An address of a link is changed only if it can be put under the base address, whether the link
leads to the web or not. -/
theorem attribute?_href_apply [UrlParser] (hvalue : t.attribute? "href" = some value)
    (hne : value.toList ≠ []) :
    (p.apply t).attribute? "href" =
      some (String.ofList ((p.prefixed? value.toList).getD value.toList)) := by
  by_cases hweb : isWeb value.toList = true
  · have hnone : p.prefixed? value.toList = none :=
      prefixed?_eq_none_iff.mpr (.inr (.inr (.inl (namesScheme_of_isWeb hweb))))
    rw [apply_of_isWeb hvalue hweb, attribute?_applyWeb_href, hvalue, hnone, Option.getD_none,
      String.ofList_toList]
  · rw [apply_of_isWeb_eq_false hvalue hne (Bool.not_eq_true _ ▸ hweb)]
    cases p.prefixed? value.toList with
    | none => rw [Option.getD_none, String.ofList_toList, hvalue]
    | some target => exact attribute?_setAttribute_self _ _ _

/-- An address that is the root or below it stays as it is. -/
theorem attribute?_href_apply_of_isBelow [UrlParser] (hroot : IsRoot root p.baseUrl)
    (hne : root ≠ []) (hvalue : t.attribute? "href" = some value)
    (hbelow : IsBelow root value.toList) :
    (p.apply t).attribute? "href" = some value := by
  have hbegin : root <+: value.toList := by
    rcases hbelow with heq | hbegin
    · exact heq ▸ List.prefix_rfl
    · exact (List.prefix_append root ['/']).trans hbegin
  rw [attribute?_href_apply hvalue (hbegin.ne_nil hne),
    prefixed?_eq_none_of_isBelow hroot hne hbelow, Option.getD_none, String.ofList_toList]

/-- Any other address of the wiki becomes the root, one slash and the address behind its slashes. -/
theorem attribute?_href_apply_of_not_isBelow [UrlParser] (hbase : p.baseUrl ≠ "")
    (hroot : IsRoot root p.baseUrl) (hvalue : t.attribute? "href" = some value)
    (hlocal : IsLocal value.toList) (hbelow : ¬(root ≠ [] ∧ IsBelow root value.toList)) :
    (p.apply t).attribute? "href" =
      some (String.ofList (root ++ '/' :: value.toList.dropWhile (· = '/'))) := by
  rw [attribute?_href_apply hvalue hlocal.ne_nil,
    prefixed?_of_not_isBelow hbase hroot hlocal hbelow, Option.getD_some]

/-- An address that has been put under the base address stays there. -/
theorem getD_prefixed? {target : List Char} (h : p.prefixed? href = some target) :
    (p.prefixed? target).getD target = target := by
  obtain rfl := prefixed?_eq_some h
  by_cases hbase : p.base = []
  · -- There are slashes only in front of the address, and one of them is left.
    cases hagain : p.prefixed? (p.base ++ '/' :: href.dropWhile (· = '/')) with
    | none => rfl
    | some again =>
      have hrest : (href.dropWhile (· = '/')).dropWhile (· = '/') = href.dropWhile (· = '/') :=
        dropWhile_eq_self_of_head? fun _ hc => eq_false_of_mem_head?_dropWhile hc
      rw [Option.getD_some, prefixed?_eq_some hagain, hbase, List.nil_append, List.nil_append,
        List.dropWhile_cons_of_pos (by simp), hrest]
  · have hbelow := isBelow_append p.base (href.dropWhile (· = '/'))
    rw [prefixed?_eq_none_iff.mpr (.inr (.inr (.inr ⟨hbase, hbelow⟩))), Option.getD_none]

/-- Without an address a link stays as it is. -/
theorem apply_eq_self_of_forall_eq_nil [UrlParser]
    (h : ∀ value, t.attribute? "href" = some value → value.toList = []) : p.apply t = t := by
  cases hvalue : t.attribute? "href" with
  | none => simp [apply, hvalue]
  | some value => simp [apply, hvalue, h value hvalue]

/-- The address that the policy gives a link is not put under the base address again. -/
theorem getD_prefixed?_of_attribute?_apply [UrlParser]
    (hvalue : (p.apply t).attribute? "href" = some value) (hne : value.toList ≠ []) :
    (p.prefixed? value.toList).getD value.toList = value.toList := by
  by_cases hempty : ∀ before, t.attribute? "href" = some before → before.toList = []
  · rw [apply_eq_self_of_forall_eq_nil hempty] at hvalue
    exact absurd (hempty value hvalue) hne
  · simp only [not_forall] at hempty
    obtain ⟨before, hbefore, hbeforeNe⟩ := hempty
    rw [attribute?_href_apply hbefore hbeforeNe, Option.some.injEq] at hvalue
    rw [← hvalue, String.toList_ofList]
    cases htarget : p.prefixed? before.toList with
    | none => rw [Option.getD_none, htarget, Option.getD_none]
    | some target => exact getD_prefixed? htarget

/-- The policy gives a link its final address at once. -/
theorem attribute?_href_apply_apply [UrlParser] (p : LinkPolicy) (t : Token) :
    (p.apply (p.apply t)).attribute? "href" = (p.apply t).attribute? "href" := by
  by_cases hempty : ∀ value, (p.apply t).attribute? "href" = some value → value.toList = []
  · rw [apply_eq_self_of_forall_eq_nil hempty]
  · simp only [not_forall] at hempty
    obtain ⟨value, hvalue, hne⟩ := hempty
    rw [attribute?_href_apply hvalue hne, getD_prefixed?_of_attribute?_apply hvalue hne,
      String.ofList_toList, hvalue]

/-! ### Joining with the root -/

theorem joins_dropWhile (hroot : root.getLast? ≠ some '/') (href : List Char) :
    Joins root href (root ++ '/' :: href.dropWhile (· = '/')) :=
  ⟨href.takeWhile (· = '/'), href.dropWhile (· = '/'), List.takeWhile_append_dropWhile.symm,
    fun _ hc => of_decide_eq_true (List.mem_takeWhile_imp (p := fun c => decide (c = '/')) hc),
    rfl, hroot, head?_dropWhile_slash_ne href⟩

/-- **Addresses of the wiki are joined with the root.**  Let there be a base address, and let a link
have an address without a host.  If the address is the root or below it, it stays as it is.
Otherwise it becomes the root, one slash, and the address without the slashes at its start.  In both
cases it stays the same from then on.  Addresses that differ behind the slashes at their start do
not become the same, unless one of them stays as it is. -/
theorem joins_apply [UrlParser] (hbase : p.baseUrl ≠ "") (hroot : IsRoot root p.baseUrl)
    (hvalue : t.attribute? "href" = some value) (hlocal : IsLocal value.toList) :
    ∃ target : String, (p.apply t).attribute? "href" = some target ∧
      (root ≠ [] ∧ IsBelow root value.toList ∧ target = value ∨
        ¬(root ≠ [] ∧ IsBelow root value.toList) ∧ Joins root value.toList target.toList) ∧
      (p.prefixed? target.toList).getD target.toList = target.toList ∧
      (p.apply (p.apply t)).attribute? "href" = some target ∧
      ∀ (u : Token) (other : String), u.attribute? "href" = some other → IsLocal other.toList →
        ¬(root ≠ [] ∧ IsBelow root value.toList) → ¬(root ≠ [] ∧ IsBelow root other.toList) →
        value.toList.dropWhile (· = '/') ≠ other.toList.dropWhile (· = '/') →
        (p.apply u).attribute? "href" ≠ some target := by
  by_cases hbelow : root ≠ [] ∧ IsBelow root value.toList
  · have hkept := attribute?_href_apply_of_isBelow hroot hbelow.1 hvalue hbelow.2
    exact ⟨value, hkept, .inl ⟨hbelow.1, hbelow.2, rfl⟩,
      getD_prefixed?_of_attribute?_apply hkept hlocal.ne_nil,
      (attribute?_href_apply_apply p t).trans hkept, fun _ _ _ _ hnot => absurd hbelow hnot⟩
  · have htarget := attribute?_href_apply_of_not_isBelow hbase hroot hvalue hlocal hbelow
    refine ⟨_, htarget, .inr ⟨hbelow, ?_⟩, getD_prefixed?_of_attribute?_apply htarget (by simp),
      (attribute?_href_apply_apply p t).trans htarget, ?_⟩
    · rw [String.toList_ofList]
      exact joins_dropWhile hroot.getLast?_ne value.toList
    · intro u other hother hlocal' _ hbelow' hne
      rw [attribute?_href_apply_of_not_isBelow hbase hroot hother hlocal' hbelow', ne_eq,
        Option.some.injEq, String.ofList_inj, List.append_cancel_left_eq, List.cons.injEq]
      exact fun heq => hne heq.2.symm

/-- Slashes around the place where the two are joined become one, and `/wikipedia` is not below
`/wiki`. -/
theorem joins_apply_sibling :
    let p : LinkPolicy := { baseUrl := "/wiki//" }
    let t : Token := { kind := .linkOpen, tag := "a", attributes := [("href", "/wikipedia")] }
    p.baseUrl ≠ "" ∧ IsRoot "/wiki".toList p.baseUrl ∧ t.attribute? "href" = some "/wikipedia" ∧
      IsLocal "/wikipedia".toList ∧
      ∃ target : String, (p.apply t).attribute? "href" = some target ∧
        Joins "/wiki".toList "/wikipedia".toList target.toList ∧
        (p.apply (p.apply t)).attribute? "href" = some target := by
  intro p t
  have hbase : p.baseUrl ≠ "" := by decide
  have hroot : IsRoot "/wiki".toList p.baseUrl := ⟨⟨"//".toList, by decide, by simp⟩, by decide⟩
  have hlocal : IsLocal "/wikipedia".toList :=
    ⟨by decide, by decide, by rw [← hasScheme_iff]; decide⟩
  have hbelow : ¬IsBelow "/wiki".toList "/wikipedia".toList := by
    rw [← isUnder_iff]
    decide
  obtain ⟨target, hhref, hjoins, -, hagain, -⟩ :=
    joins_apply (t := t) hbase hroot rfl hlocal
  exact ⟨hbase, hroot, rfl, hlocal, target, hhref,
    (hjoins.resolve_left fun h => hbelow h.2.1).2, hagain⟩

/-! ### Addresses whose path is under the root -/

/-- The part of an address in front of its query and its fragment. -/
def path (href : List Char) : List Char := href.takeWhile fun c => c ≠ '?' && c ≠ '#'

/-- Behind the path stands nothing, or a query or fragment with its mark. -/
theorem eq_path_or_exists (href : List Char) :
    href = path href ∨ ∃ c rest, href = path href ++ c :: rest ∧ (c = '?' ∨ c = '#') := by
  have heq : path href ++ href.dropWhile (fun c => c ≠ '?' && c ≠ '#') = href :=
    List.takeWhile_append_dropWhile
  cases hrest : href.dropWhile (fun c => c ≠ '?' && c ≠ '#') with
  | nil => exact .inl (by rw [hrest, List.append_nil] at heq; exact heq.symm)
  | cons c rest =>
    refine .inr ⟨c, rest, by rw [← hrest]; exact heq.symm, ?_⟩
    have hc := eq_false_of_mem_head?_dropWhile (p := fun c => c ≠ '?' && c ≠ '#') (s := href)
      (c := c) (by rw [hrest]; rfl)
    simpa [imp_iff_not_or] using hc

theorem not_isSchemeChar {c : Char} (hc : c = '?' ∨ c = '#') :
    ¬IsSchemeChar c ∧ Ascii.isAlpha c = false ∧ c ≠ ':' ∧ c ≠ '/' := by
  unfold IsSchemeChar
  rcases hc with rfl | rfl <;> decide

theorem IsScheme.isSchemeChar {scheme : List Char} (h : IsScheme scheme) {c : Char}
    (hc : c ∈ scheme) : Ascii.isAlpha c = true ∨ IsSchemeChar c := by
  cases scheme with
  | nil => exact h.elim
  | cons d rest => exact (List.mem_cons.mp hc).imp (by rintro rfl; exact h.1) (h.2 c)

/-- The mark of a query or a fragment ends a scheme. -/
theorem namesScheme_append_iff {c : Char} (hc : c = '?' ∨ c = '#') :
    NamesScheme (root ++ c :: rest) ↔ NamesScheme root := by
  obtain ⟨hschemeChar, halpha, hcolon, -⟩ := not_isSchemeChar hc
  refine ⟨?_, fun h => h.append _⟩
  rintro ⟨scheme, tail, heq, hscheme⟩
  obtain ⟨w, rfl, hw⟩ | ⟨w, rfl, hw⟩ := List.append_eq_append_iff.mp heq
  · -- The scheme reaches over the mark.
    cases w with
    | nil => exact absurd (List.cons.inj hw).1 hcolon
    | cons d w =>
      obtain ⟨rfl, -⟩ := List.cons.inj hw
      rcases hscheme.isSchemeChar (c := c) (by simp) with h | h
      · rw [halpha] at h
        exact nomatch h
      · exact absurd h hschemeChar
  · cases w with
    | nil => exact absurd (List.cons.inj hw).1.symm hcolon
    | cons d w =>
      obtain ⟨rfl, -⟩ := List.cons.inj hw
      exact ⟨scheme, w, rfl, hscheme⟩

/-- With a query or a fragment behind it the root names a host exactly if it does so by itself. -/
theorem isLocal_append_iff (hlast : root.getLast? ≠ some '/') (hne : root ≠ []) {c : Char}
    (hc : c = '?' ∨ c = '#') : IsLocal (root ++ c :: rest) ↔ IsLocal root := by
  have hslashes : ['/', '/'] <+: root ++ c :: rest ↔ ['/', '/'] <+: root := by
    match root with
    | [] => exact absurd rfl hne
    | [a] =>
      have ha : '/' ≠ a := fun heq => hlast (by rw [← heq]; rfl)
      simp [ha]
    | a :: b :: root => simp
  constructor
  · intro h
    exact ⟨hne, hslashes.not.mp h.not_slashes, (namesScheme_append_iff hc).not.mp h.not_namesScheme⟩
  · intro h
    exact ⟨by simp, hslashes.not.mpr h.not_slashes,
      (namesScheme_append_iff hc).not.mpr h.not_namesScheme⟩

/-- The root with a query or a fragment behind it is put below the root. -/
theorem attribute?_href_apply_of_mark [UrlParser] (hroot : IsRoot root p.baseUrl)
    (hlocal : IsLocal root) (hvalue : t.attribute? "href" = some value) {mark : Char}
    (hmark : mark = '?' ∨ mark = '#') (heq : value.toList = root ++ mark :: rest) :
    (p.apply t).attribute? "href" =
      some (String.ofList (root ++ '/' :: (root.dropWhile (· = '/') ++ mark :: rest))) := by
  have hslash : mark ≠ '/' := (not_isSchemeChar hmark).2.2.2
  have hbelow : ¬IsBelow root value.toList := by
    rw [heq]
    rintro (h | ⟨tail, h⟩)
    · simp at h
    · simp [hslash.symm] at h
  have hvalueLocal : IsLocal value.toList :=
    heq ▸ (isLocal_append_iff hroot.getLast?_ne hlocal.ne_nil hmark).mpr hlocal
  have hdrop : (root ++ mark :: rest).dropWhile (· = '/') =
      root.dropWhile (· = '/') ++ mark :: rest := by
    rw [List.dropWhile_append]
    split
    · next hempty => simp [List.isEmpty_iff.mp hempty, hslash]
    · rfl
  rw [attribute?_href_apply_of_not_isBelow (hroot.baseUrl_ne hlocal.ne_nil) hroot hvalue hvalueLocal
    fun h => hbelow h.2, heq, hdrop]

/-- **An address whose path is under the root stays as it is, unless the path is the root itself
and a query or a fragment stands behind it.**  Let a link have an address whose path is the root or
below it.  The policy keeps the address exactly if it is the root, has a path that goes on below the
root, or if the root has a scheme or a host of its own.  Otherwise the whole address is put below
the root once more. -/
theorem attribute?_apply_eq_iff_of_isBelow_path [UrlParser] (hroot : IsRoot root p.baseUrl)
    (hne : root ≠ []) (hvalue : t.attribute? "href" = some value)
    (hbelow : IsBelow root (path value.toList)) :
    ((p.apply t).attribute? "href" = some value ↔
      value.toList = root ∨ path value.toList ≠ root ∨ ¬IsLocal root) ∧
    (value.toList ≠ root → path value.toList = root → IsLocal root →
      ∃ mark rest, (mark = '?' ∨ mark = '#') ∧ value.toList = root ++ mark :: rest ∧
        (p.apply t).attribute? "href" =
          some (String.ofList (root ++ '/' :: (root.dropWhile (· = '/') ++ mark :: rest)))) := by
  rcases hbelow with hpath | hbegin
  · rcases eq_path_or_exists value.toList with heq | ⟨mark, rest, heq, hmark⟩
    · have hroot' : value.toList = root := heq.trans hpath
      have hkept := attribute?_href_apply_of_isBelow hroot hne hvalue (.inl hroot')
      exact ⟨iff_of_true hkept (.inl hroot'), fun hother => absurd hroot' hother⟩
    · rw [hpath] at heq
      have hother : value.toList ≠ root := by simp [heq]
      have hlocal : IsLocal (root ++ mark :: rest) ↔ IsLocal root :=
        isLocal_append_iff hroot.getLast?_ne hne hmark
      rw [← heq] at hlocal
      by_cases hrootLocal : IsLocal root
      · have htwice := attribute?_href_apply_of_mark hroot hrootLocal hvalue hmark heq
        refine ⟨iff_of_false (fun hkept => ?_) ?_, fun _ _ _ => ⟨mark, rest, hmark, heq, htwice⟩⟩
        · have htext := congrArg String.toList (Option.some.inj (hkept.symm.trans htwice))
          rw [heq, String.toList_ofList, List.append_cancel_left_eq, List.cons.injEq] at htext
          exact (not_isSchemeChar hmark).2.2.2 htext.1
        · simp [hother, hpath, hrootLocal]
      · have hkept := attribute?_href_apply (p := p) hvalue (by simp [heq])
        rw [prefixed?_eq_none_of_not_isLocal (by simp [heq]) (hlocal.not.mpr hrootLocal),
          Option.getD_none, String.ofList_toList] at hkept
        exact ⟨iff_of_true hkept (.inr (.inr hrootLocal)), fun _ _ h => absurd h hrootLocal⟩
  · have hlonger : path value.toList ≠ root := by
      intro heq
      have hlength := hbegin.length_le
      rw [heq, List.length_append, List.length_singleton] at hlength
      omega
    have hkept := attribute?_href_apply_of_isBelow hroot hne hvalue
      (.inr (hbegin.trans (List.takeWhile_prefix _)))
    exact ⟨iff_of_true hkept (.inr (.inl hlonger)), fun _ heq => absurd heq hlonger⟩

/-- Behind a path below the root a query and a fragment do no harm, also if they name the root. -/
theorem attribute?_apply_pageWithQuery :
    let p : LinkPolicy := { baseUrl := "/wiki/" }
    let t : Token :=
      { kind := .linkOpen, tag := "a", attributes := [("href", "/wiki/page?from=/wiki#top")] }
    IsRoot "/wiki".toList p.baseUrl ∧ "/wiki".toList ≠ [] ∧
      t.attribute? "href" = some "/wiki/page?from=/wiki#top" ∧
      IsBelow "/wiki".toList (path "/wiki/page?from=/wiki#top".toList) ∧
      (p.apply t).attribute? "href" = some "/wiki/page?from=/wiki#top" := by
  intro p t
  have hroot : IsRoot "/wiki".toList p.baseUrl :=
    ⟨⟨['/'], by decide, List.forall_mem_singleton.mpr rfl⟩, by decide⟩
  have hbelow : IsBelow "/wiki".toList (path "/wiki/page?from=/wiki#top".toList) :=
    .inr ⟨"page".toList, by decide⟩
  refine ⟨hroot, by decide, rfl, hbelow, ?_⟩
  refine (attribute?_apply_eq_iff_of_isBelow_path (t := t) hroot (by decide) rfl hbelow).1.mpr ?_
  exact .inr (.inl (by decide))

/-- The root with a fragment and the root with a query are put below the root. -/
theorem exists_root_twice :
    let p : LinkPolicy := { baseUrl := "/wiki" }
    let link (href : String) : Token :=
      { kind := .linkOpen, tag := "a", nesting := 1, attributes := [("href", href)] }
    IsRoot "/wiki".toList p.baseUrl ∧
      path "/wiki#section".toList = "/wiki".toList ∧
      (p.apply (link "/wiki#section")).attribute? "href" = some "/wiki/wiki#section" ∧
      path "/wiki?query".toList = "/wiki".toList ∧
      (p.apply (link "/wiki?query")).attribute? "href" = some "/wiki/wiki?query" := by
  intro p link
  exact ⟨⟨⟨[], by decide, by simp⟩, by decide⟩, by decide, by decide +kernel, by decide,
    by decide +kernel⟩

end LinkPolicy

end WikiPress
