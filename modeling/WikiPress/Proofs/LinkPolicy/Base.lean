import WikiPress.Proofs.LinkPolicy.Link
import WikiPress.Proofs.Wikilink
import WikiPress.Url.Web

/-!
# Addresses under the base address

The policy puts an address under the base address unless it begins with two slashes or with a scheme
or is under the base address already.  The target of a wikilink becomes a slug, which has no slashes
but may have colons.  So wikilinks are put under the base address, with one exception: a slug that
begins with what could be a scheme is taken for an address of its own and left as it is.

## Main definitions

* `LinkPolicy.IsBelow` : an address that is the base or below it.
* `LinkPolicy.IsScheme`, `LinkPolicy.NamesScheme` : schemes, and addresses that begin with one.

## Main results

* `LinkPolicy.prefixed?_eq_none_iff` : the addresses that are left as they are.
* `LinkPolicy.attribute?_apply_of_notMem` : what becomes of an address without slashes.
* `Wikilink.isBelow_apply_iff` : the wikilinks that lead to an address under the base.
-/

namespace WikiPress

open Text

namespace LinkPolicy

variable {p : LinkPolicy} {t : Token} {root href : List Char}

/-! ### Addresses -/

/-- An address that is the base or below it. -/
def IsBelow (root href : List Char) : Prop := href = root ∨ root ++ ['/'] <+: href

/-- The characters that may follow the first letter of a scheme. -/
def IsSchemeChar (c : Char) : Prop :=
  Ascii.isAlphanumeric c = true ∨ c = '+' ∨ c = '.' ∨ c = '-'

/-- A scheme: a letter, and letters, digits, plus signs, points and hyphens behind it. -/
def IsScheme : List Char → Prop
  | [] => False
  | c :: rest => Ascii.isAlpha c = true ∧ ∀ d ∈ rest, IsSchemeChar d

/-- An address that begins with a scheme and a colon. -/
def NamesScheme (href : List Char) : Prop :=
  ∃ scheme rest, href = scheme ++ ':' :: rest ∧ IsScheme scheme

theorem isUnder_iff : isUnder root href = true ↔ IsBelow root href := by
  unfold isUnder IsBelow
  split
  · next rest hrest =>
    obtain rfl := dropText?_eq_some.mp hrest
    cases rest with
    | nil => simp
    | cons c rest => simp [eq_comm]
  · next hnone =>
    simp only [Bool.false_eq_true, false_iff, not_or]
    constructor
    · rintro rfl
      rw [dropText?_eq_some.mpr (List.append_nil href).symm] at hnone
      exact nomatch hnone
    · rintro ⟨rest, rfl⟩
      rw [dropText?_eq_some.mpr (List.append_assoc root ['/'] rest)] at hnone
      exact nomatch hnone

/-- The characters of a class go up to a character that is not of the class, and no further. -/
theorem head?_dropWhile_eq_some_iff {q : Char → Bool} {c : Char} (hc : q c = false)
    (s : List Char) :
    (s.dropWhile q).head? = some c ↔
      ∃ before rest, s = before ++ c :: rest ∧ ∀ d ∈ before, q d = true := by
  constructor
  · intro h
    obtain ⟨rest, hrest⟩ := List.head?_eq_some_iff.mp h
    exact ⟨s.takeWhile q, rest, by rw [← hrest, List.takeWhile_append_dropWhile],
      fun d hd => List.mem_takeWhile_imp hd⟩
  · rintro ⟨before, rest, rfl, hbefore⟩
    rw [List.dropWhile_append_of_pos hbefore, List.dropWhile_cons, hc]
    rfl

theorem hasScheme_iff : hasScheme href = true ↔ NamesScheme href := by
  unfold hasScheme NamesScheme
  split
  · next c rest =>
    rw [Bool.and_eq_true, decide_eq_true_eq, head?_dropWhile_eq_some_iff (by decide)]
    constructor
    · rintro ⟨hc, before, after, rfl, hbefore⟩
      exact ⟨c :: before, after, rfl, hc, fun d hd => by
        simpa [IsSchemeChar, or_assoc] using hbefore d hd⟩
    · rintro ⟨scheme, after, heq, hscheme⟩
      cases scheme with
      | nil => exact hscheme.elim
      | cons d before =>
        obtain ⟨rfl, rfl⟩ := List.cons.inj heq
        exact ⟨hscheme.1, before, after, rfl, fun d hd => by
          simpa [IsSchemeChar, or_assoc] using hscheme.2 d hd⟩
  · simp

/-- The addresses that are left as they are. -/
theorem prefixed?_eq_none_iff :
    p.prefixed? href = none ↔
      p.baseUrl = "" ∨ startsWith ['/', '/'] href = true ∨ NamesScheme href ∨
        p.base ≠ [] ∧ IsBelow p.base href := by
  rw [← hasScheme_iff, ← isUnder_iff]
  unfold prefixed?
  split
  · next h =>
    simp only [String.isEmpty_iff, Bool.or_eq_true] at h
    tauto
  · next h =>
    simp only [String.isEmpty_iff, Bool.or_eq_true, not_or] at h
    split
    · next hunder => simp_all
    · next hunder => simp_all

/-! ### Addresses without slashes -/

theorem startsWithIgnoringCase_of_notMem {start : List Char} (hstart : '/' ∈ start)
    (h : '/' ∉ href) : Ascii.startsWithIgnoringCase start href = false := by
  rw [Bool.eq_false_iff, ne_eq, startsWithIgnoringCase_iff]
  rintro ⟨u, v, rfl, hu⟩
  have hslash : '/' ∈ Ascii.lowerText u := hu ▸ List.mem_map.mpr ⟨'/', hstart, by decide⟩
  obtain ⟨c, hc, hlower⟩ := List.mem_map.mp hslash
  obtain rfl := eq_slash_of_lower_eq hlower
  exact h (List.mem_append_left v hc)

theorem isWeb_of_notMem (h : '/' ∉ href) : isWeb href = false := by
  rw [isWeb, startsWithIgnoringCase_of_notMem (by decide) h,
    startsWithIgnoringCase_of_notMem (by decide) h]
  rfl

theorem startsWith_slashes_of_notMem (h : '/' ∉ href) : startsWith ['/', '/'] href = false := by
  rw [startsWith, Option.isSome_eq_false_iff, Option.isNone_iff_eq_none,
    Option.eq_none_iff_forall_ne_some]
  rintro rest hrest
  rw [dropText?_eq_some.mp hrest] at h
  exact h (List.mem_cons_self ..)

theorem dropWhile_slash_of_notMem (h : '/' ∉ href) : href.dropWhile (· = '/') = href := by
  cases href with
  | nil => rfl
  | cons c rest =>
    have hc : c ≠ '/' := fun heq => h (heq ▸ List.mem_cons_self ..)
    rw [List.dropWhile_cons, if_neg (by simpa using hc)]

theorem base_ne_nil_iff : p.base ≠ [] ↔ ∃ c ∈ p.baseUrl.toList, c ≠ '/' := by
  unfold base dropEndWhile
  simp

theorem apply_of_isWeb_eq_false [UrlParser] {value : String}
    (hvalue : t.attribute? "href" = some value) (hne : value.toList ≠ [])
    (hweb : isWeb value.toList = false) :
    p.apply t = match p.prefixed? value.toList with
      | some target => t.setAttribute "href" (String.ofList target)
      | none => t := by
  cases hprefixed : p.prefixed? value.toList with
  | some target => simp [apply, hvalue, hne, hweb, hprefixed]
  | none => simp [apply, hvalue, hne, hweb, hprefixed]

theorem isBelow_append (root rest : List Char) : IsBelow root (root ++ '/' :: rest) :=
  .inr ⟨rest, by simp⟩

/-- What becomes of an address without slashes: it is left as it is if it begins with a scheme or
lies under the base, and is put behind the base and a slash otherwise. -/
theorem attribute?_apply_of_notMem [UrlParser] (hbase : p.base ≠ []) {value : String}
    (hvalue : t.attribute? "href" = some value) (hne : value.toList ≠ [])
    (hslash : '/' ∉ value.toList) :
    (NamesScheme value.toList ∨ IsBelow p.base value.toList) ∧ p.apply t = t ∨
      (¬NamesScheme value.toList ∧ ¬IsBelow p.base value.toList) ∧
        (p.apply t).attribute? "href" = some (String.ofList (p.base ++ '/' :: value.toList)) := by
  have hbaseUrl : p.baseUrl ≠ "" := by
    intro hempty
    obtain ⟨c, hc, -⟩ := base_ne_nil_iff.mp hbase
    rw [hempty] at hc
    exact List.not_mem_nil hc
  have hkept := @prefixed?_eq_none_iff p value.toList
  simp only [hbaseUrl, startsWith_slashes_of_notMem hslash, hbase, Bool.false_eq_true, false_or,
    ne_eq, not_false_eq_true, true_and] at hkept
  rw [apply_of_isWeb_eq_false hvalue hne (isWeb_of_notMem hslash)]
  cases htarget : p.prefixed? value.toList with
  | none => exact .inl ⟨hkept.mp htarget, rfl⟩
  | some target =>
    refine .inr ⟨not_or.mp fun h => ?_, ?_⟩
    · exact nomatch htarget.symm.trans (hkept.mpr h)
    · obtain rfl := prefixed?_eq_some htarget
      rw [dropWhile_slash_of_notMem hslash]
      exact attribute?_setAttribute_self _ _ _

/-- An address without slashes is under the base afterwards exactly if it does not begin with a
scheme or was there before. -/
theorem exists_isBelow_iff_of_notMem [UrlParser] (hbase : p.base ≠ []) {value : String}
    (hvalue : t.attribute? "href" = some value) (hne : value.toList ≠ [])
    (hslash : '/' ∉ value.toList) :
    ∃ target : String, (p.apply t).attribute? "href" = some target ∧
      (IsBelow p.base target.toList ↔
        ¬NamesScheme value.toList ∨ IsBelow p.base value.toList) ∧
      (NamesScheme value.toList → target = value) := by
  obtain ⟨hkept, heq⟩ | ⟨⟨hscheme, -⟩, heq⟩ := attribute?_apply_of_notMem hbase hvalue hne hslash
  · refine ⟨value, (congrArg (·.attribute? "href") heq).trans hvalue, ?_, fun _ => rfl⟩
    exact ⟨.inr, fun h => h.elim hkept.resolve_left id⟩
  · refine ⟨_, heq, ?_, fun h => absurd h hscheme⟩
    rw [String.toList_ofList]
    exact iff_of_true (isBelow_append _ _) (.inl hscheme)

end LinkPolicy

/-! ### Wikilinks -/

/-- A slug by the usual options, in lower case, has no slashes. -/
theorem Slugger.slash_notMem_slug (text : List Char) : '/' ∉ lowercase.slug text := by
  intro hslash
  have hreplacement : ∀ c ∈ lowercase.options.replacement.toList, c.toNat < 128 :=
    List.forall_mem_singleton.mpr (by decide)
  obtain ⟨d, hd, hlower⟩ := exists_isMadeOf_of_mem_slug (s := lowercase) rfl hreplacement hslash
  obtain rfl : d = '/' := hlower.elim Eq.symm fun h => LinkPolicy.eq_slash_of_lower_eq h.symm
  exact absurd hd (by unfold IsMadeOf; decide)

namespace Wikilink

open LinkPolicy

/-- **Wikilinks are put under the base address, unless their slug could begin with a scheme.**  Let
the base address have a character that is no slash, and let a wikilink be claimed at any place.  Its
first token links to the slug of its target.  If the slug is not empty, the address after the policy
is applied is under the base exactly if the slug does not begin with a scheme or was under the base
before.  A slug that begins with a scheme stays as it is. -/
theorem isBelow_apply_iff [UrlParser] {p : LinkPolicy} (hbase : ∃ c ∈ p.baseUrl.toList, c ≠ '/')
    {place : Place} {a : Attempt} (hclaim : (rule .lowercase).claim? place = some a) :
    ∃ inner after link label close,
      place.rest = '[' :: '[' :: (inner ++ ']' :: ']' :: after) ∧
      a.tokens = [link, label, close] ∧ link.kind = .linkOpen ∧
      ∃ slug : String, slug = String.ofList (Slugger.lowercase.slug (parts inner).1) ∧
        link.attribute? "href" = some slug ∧
        (slug.toList ≠ [] →
          ∃ href : String, (p.apply link).attribute? "href" = some href ∧
            (IsBelow p.base href.toList ↔
              ¬NamesScheme slug.toList ∨ IsBelow p.base slug.toList) ∧
            (NamesScheme slug.toList → href = slug)) := by
  obtain ⟨inner, after, hrest, rfl⟩ := eq_of_claim?_rule hclaim
  refine ⟨inner, after, _, _, _, hrest, rfl, rfl, _, rfl, rfl, fun hne => ?_⟩
  refine exists_isBelow_iff_of_notMem (base_ne_nil_iff.mpr hbase) rfl hne ?_
  rw [String.toList_ofList]
  exact Slugger.slash_notMem_slug _

/-- A wikilink whose slug `1:-start` has a colon, but no scheme in front of it. -/
theorem isBelow_apply_numbered :
    let p : LinkPolicy := { baseUrl := "/wiki/" }
    let place : Place := { text := "[[1: Start|x]]".toList, startsLine := true, endsLine := true }
    (∃ c ∈ p.baseUrl.toList, c ≠ '/') ∧
      (rule .lowercase).claim? place = some ⟨true, tokens .lowercase "1: Start|x".toList, 14⟩ ∧
      ∃ link label close,
        tokens .lowercase "1: Start|x".toList = [link, label, close] ∧
        link.attribute? "href" = some "1:-start" ∧
        ∃ href : String, (p.apply link).attribute? "href" = some href ∧
          IsBelow p.base href.toList := by
  intro p place
  have hbase : ∃ c ∈ p.baseUrl.toList, c ≠ '/' := ⟨'w', by decide, by decide⟩
  have hclaim : (rule .lowercase).claim? place =
      some ⟨true, tokens .lowercase "1: Start|x".toList, 14⟩ := rfl
  obtain ⟨_, _, link, label, close, _, htokens, _, slug, _, hslug, h⟩ :=
    isBelow_apply_iff hbase hclaim
  have hlink : link.attribute? "href" = some "1:-start" := by
    rw [← (List.cons.inj htokens).1]
    decide +kernel
  obtain rfl : slug = "1:-start" := Option.some.inj (hslug.symm.trans hlink)
  obtain ⟨href, hhref, hbelow, _⟩ := h (by decide)
  refine ⟨hbase, hclaim, link, label, close, htokens, hlink, href, hhref, hbelow.mpr (.inl ?_)⟩
  rw [← hasScheme_iff]
  decide +kernel

/-- A wikilink that a policy leaves outside the base address. -/
theorem exists_not_isBelow_apply :
    let p : LinkPolicy := { baseUrl := "/wiki" }
    let place : Place :=
      { text := "[[Help:Contents]]".toList, startsLine := true, endsLine := true }
    ∃ a link label close, (rule .lowercase).claim? place = some a ∧
      a.tokens = [link, label, close] ∧ link.attribute? "href" = some "help:contents" ∧
      (p.apply link).attribute? "href" = some "help:contents" ∧
      ¬IsBelow p.base "help:contents".toList := by
  intro p place
  refine ⟨⟨true, tokens .lowercase "Help:Contents".toList, 17⟩, _, _, _, rfl, rfl, ?_, ?_, ?_⟩
  · decide +kernel
  · decide +kernel
  · rw [← isUnder_iff]
    decide +kernel

end Wikilink

end WikiPress
