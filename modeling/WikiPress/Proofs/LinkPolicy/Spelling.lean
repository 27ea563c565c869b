import Mathlib.Data.Bool.AllAny
import WikiPress.Proofs.LinkPolicy.Base

/-!
# The spellings of web addresses

A web address can be spelled in many ways: control characters and blanks around it do not count, tabs
and line ends nowhere in it, and any number of slashes or backslashes may stand behind the scheme.
The policy looks for one of these ways only.  An address that is spelled out, with its scheme at the
very start and two slashes behind the colon, is marked by its host; any other one is left alone.

## Main definitions

* `Url.IsWebScheme` : the two schemes of web addresses.
* `Url.IsSpelledOut` : addresses that begin with such a scheme, a colon and two slashes.

## Main results

* `LinkPolicy.isWeb_iff` : the policy looks for addresses that are spelled out.
* `UrlParser.readsSchemes` : the library that the program runs with reads schemes as it should.
* `WikiOptions.attribute?_rel_apply` : which web addresses are marked, and how.
* `WikiOptions.exists_unmarked_spelling` : a web address that is not marked.
-/

namespace WikiPress

open Text

namespace Url

/-- The two schemes of web addresses, in upper or lower case. -/
def IsWebScheme (scheme : List Char) : Prop :=
  Ascii.lowerText scheme = "http".toList ∨ Ascii.lowerText scheme = "https".toList

/-- An address that begins with the scheme of web addresses, a colon and two slashes. -/
def IsSpelledOut (href : List Char) : Prop :=
  ∃ scheme rest, href = scheme ++ ':' :: '/' :: '/' :: rest ∧ IsWebScheme scheme

end Url

namespace LinkPolicy

variable {u v w scheme : List Char}

theorem lowerText_append (u v : List Char) :
    Ascii.lowerText (u ++ v) = Ascii.lowerText u ++ Ascii.lowerText v := List.map_append

/-- Characters that are no letters are the same in lower case. -/
theorem eq_of_lowerText_eq (hv : ∀ c ∈ v, c.isLower = false) (h : Ascii.lowerText u = v) :
    u = v := by
  induction v generalizing u with
  | nil => exact List.map_eq_nil_iff.mp h
  | cons d v ih =>
    obtain ⟨c, u, rfl, hc, hu⟩ := List.map_eq_cons_iff.mp h
    rw [List.forall_mem_cons] at hv
    rw [eq_of_lower_eq hv.1 hc, ih hv.2 hu]

theorem exists_of_lowerText_eq_append (hv : ∀ c ∈ v, c.isLower = false)
    (h : Ascii.lowerText u = w ++ v) : ∃ scheme, u = scheme ++ v ∧ Ascii.lowerText scheme = w := by
  obtain ⟨scheme, tail, rfl, hscheme, htail⟩ := List.map_eq_append_iff.mp h
  exact ⟨scheme, by rw [eq_of_lowerText_eq hv htail], hscheme⟩

/-- The policy looks for addresses that are spelled out. -/
theorem isWeb_iff {href : List Char} : isWeb href = true ↔ Url.IsSpelledOut href := by
  have hslashes : ∀ c ∈ "://".toList, c.isLower = false := List.all_iff_forall_prop.mp (by decide)
  rw [isWeb, Bool.or_eq_true, startsWithIgnoringCase_iff, startsWithIgnoringCase_iff]
  constructor
  · rintro (⟨u, rest, rfl, hu⟩ | ⟨u, rest, rfl, hu⟩)
    · obtain ⟨scheme, rfl, hscheme⟩ :=
        exists_of_lowerText_eq_append (w := "http".toList) hslashes (hu.trans (by decide))
      exact ⟨scheme, rest, by simp, .inl hscheme⟩
    · obtain ⟨scheme, rfl, hscheme⟩ :=
        exists_of_lowerText_eq_append (w := "https".toList) hslashes (hu.trans (by decide))
      exact ⟨scheme, rest, by simp, .inr hscheme⟩
  · rintro ⟨scheme, rest, rfl, hscheme | hscheme⟩
    · refine .inl ⟨scheme ++ "://".toList, rest, by simp, ?_⟩
      rw [lowerText_append, hscheme]
      decide
    · refine .inr ⟨scheme ++ "://".toList, rest, by simp, ?_⟩
      rw [lowerText_append, hscheme]
      decide

end LinkPolicy

/-! ### Other spellings -/

namespace Url

open LinkPolicy

variable {href scheme rest s : List Char} {url : Url}

theorem exists_of_dropScheme? (hlower : Ascii.lowerText scheme = scheme)
    (h : dropScheme? scheme s = some rest) :
    ∃ spelled after, s = spelled ++ ':' :: after ∧ Ascii.lowerText spelled = scheme := by
  have hcolon : ∀ c ∈ [':'], c.isLower = false := List.all_iff_forall_prop.mp (by decide)
  obtain ⟨after, hafter, -⟩ := Option.map_eq_some_iff.mp h
  obtain ⟨u, rfl, hu⟩ := dropIgnoringCase?_eq_some hafter
  have hwhole : Ascii.lowerText (scheme ++ [':']) = scheme ++ [':'] := by
    rw [lowerText_append, hlower]
    rfl
  obtain ⟨spelled, rfl, hspelled⟩ := exists_of_lowerText_eq_append hcolon (hu.trans hwhole)
  exact ⟨spelled, after, by simp, hspelled⟩

theorem exists_scheme_of_parseWeb? (h : parseWeb? href = some url) :
    ∃ scheme rest, cleaned href = scheme ++ ':' :: rest ∧ Ascii.lowerText scheme = url.scheme := by
  obtain ⟨⟨found, rest⟩, hsplit, hurl⟩ := Option.bind_eq_some_iff.mp h
  obtain ⟨scheme, hscheme, hfound⟩ := List.exists_of_findSome?_eq_some hsplit
  obtain ⟨_, hdrop, heq⟩ := Option.map_eq_some_iff.mp hfound
  obtain ⟨rfl, rfl⟩ := Prod.mk.inj heq
  have hlower : Ascii.lowerText scheme = scheme := by
    simp only [List.mem_cons, List.not_mem_nil, or_false] at hscheme
    rcases hscheme with rfl | rfl <;> decide
  obtain ⟨spelled, after, hcleaned, hspelled⟩ := exists_of_dropScheme? hlower hdrop
  refine ⟨spelled, after, hcleaned, hspelled.trans ?_⟩
  dsimp only at hurl
  split at hurl
  · obtain ⟨host, -, rfl⟩ := Option.map_eq_some_iff.mp hurl
    rfl
  · exact nomatch hurl

/-- An address that begins with no control character or blank and has no tabs and line ends is read
as it is, up to its end. -/
theorem exists_eq_cleaned_append (hhead : ∀ c ∈ href.head?, isOuter c = false)
    (hignored : ∀ c ∈ href, isIgnored c = false) : ∃ tail, href = cleaned href ++ tail := by
  have hfilter : cleaned href = trimWith isOuter href := by
    refine List.filter_eq_self.mpr fun c hc => ?_
    have hmem : c ∈ href := (List.dropWhile_sublist _).subset (dropEndWhile_subset _ _ hc)
    simp [hignored c hmem]
  obtain ⟨tail, htail⟩ := prefix_dropEndWhile isOuter href
  refine ⟨tail, ?_⟩
  rw [hfilter, trimWith, dropWhile_eq_self_of_head? hhead]
  exact htail

/-- A web address that is not spelled out begins with a control character or a blank, has tabs or
line ends, or has not two slashes behind the colon. -/
theorem spelling_of_not_isSpelledOut [UrlParser] (hreads : UrlParser.ReadsSchemes)
    (hurl : UrlParser.parse? href = some url)
    (hweb : url.scheme = "http".toList ∨ url.scheme = "https".toList)
    (hnot : ¬IsSpelledOut href) :
    (∃ c ∈ href.head?, isOuter c = true) ∨ (∃ c ∈ href, isIgnored c = true) ∨
      ∃ scheme rest, href = scheme ++ ':' :: rest ∧ IsWebScheme scheme ∧ ¬['/', '/'] <+: rest := by
  by_contra hother
  simp only [not_or, not_exists, not_and, Bool.not_eq_true] at hother
  obtain ⟨hhead, hignored, hslashes⟩ := hother
  obtain ⟨tail, htail⟩ := exists_eq_cleaned_append hhead hignored
  obtain ⟨scheme, rest, hcleaned, hscheme⟩ := hreads.exists_scheme hurl
  rw [← hscheme] at hweb
  have hhref : href = scheme ++ ':' :: (rest ++ tail) := by
    rw [htail, hcleaned]
    simp
  refine hslashes scheme (rest ++ tail) hhref hweb fun ⟨more, hmore⟩ => ?_
  exact hnot ⟨scheme, more, by rw [hhref, ← hmore]; rfl, hweb⟩

end Url

/-- The library that the program runs with reads schemes as it should. -/
theorem UrlParser.readsSchemes : UrlParser.ReadsSchemes := ⟨Url.exists_scheme_of_parseWeb?⟩

/-! ### Marks -/

namespace WikiOptions

variable {o : WikiOptions} {t : Token} {href : String} {url : Url}

/-- Without a base address, an address that is not spelled out is left alone. -/
theorem apply_eq_self_of_not_isSpelledOut [UrlParser] (hbase : o.baseUrl = "")
    (hhref : t.attribute? "href" = some href) (hnot : ¬Url.IsSpelledOut href.toList) :
    o.linkPolicy.apply t = t := by
  obtain ⟨h, -⟩ | ⟨href', hhref', hweb, -⟩ | ⟨_, target, _, _, htarget, -⟩ :=
    LinkPolicy.apply_cases o.linkPolicy t
  · exact h
  · obtain rfl : href' = href := Option.some.inj (hhref'.symm.trans hhref)
    exact absurd (LinkPolicy.isWeb_iff.mp hweb) hnot
  · rw [LinkPolicy.prefixed?_eq_none_iff.mpr (.inl hbase)] at htarget
    exact nomatch htarget

/-- **The policy marks web addresses that are spelled out, and no others.**  Let there be no base
address, and let a link have an address that is read as one of the web.  If the address begins with
the scheme, a colon and two slashes, the link is marked by its host.  Otherwise the link is left as
it is, and the address begins with a control character or a blank, has tabs or line ends, or has not
two slashes behind the colon. -/
theorem attribute?_rel_apply [UrlParser] (hreads : UrlParser.ReadsSchemes) (hbase : o.baseUrl = "")
    (hhref : t.attribute? "href" = some href) (hurl : UrlParser.parse? href.toList = some url)
    (hweb : url.scheme = "http".toList ∨ url.scheme = "https".toList) :
    (Url.IsSpelledOut href.toList →
      ((∃ host ∈ url.host?, ∃ domain ∈ o.allowedExternalDomains,
          Ascii.lowerText host = Ascii.lowerText (trim domain.toList)) →
        (o.linkPolicy.apply t).attribute? "rel" = some "external noopener noreferrer") ∧
      ((¬∃ host ∈ url.host?, ∃ domain ∈ o.allowedExternalDomains,
          Ascii.lowerText host = Ascii.lowerText (trim domain.toList)) →
        (o.linkPolicy.apply t).attribute? "rel" =
          some "external nofollow noopener noreferrer")) ∧
    (¬Url.IsSpelledOut href.toList →
      o.linkPolicy.apply t = t ∧
      ((∃ c ∈ href.toList.head?, Url.isOuter c = true) ∨
        (∃ c ∈ href.toList, Url.isIgnored c = true) ∨
        ∃ scheme rest, href.toList = scheme ++ ':' :: rest ∧ Url.IsWebScheme scheme ∧
          ¬['/', '/'] <+: rest)) := by
  have hallows : o.Allows href ↔ ∃ host ∈ url.host?, ∃ domain ∈ o.allowedExternalDomains,
      Ascii.lowerText host = Ascii.lowerText (trim domain.toList) := by
    rw [Allows, hurl, Option.bind_some]
  refine ⟨fun hspelled => ?_, fun hnot => ?_⟩
  · have hmarks := (marks_apply_of_isWeb (o := o) hhref (LinkPolicy.isWeb_iff.mpr hspelled)).2
    rw [← hallows]
    exact ⟨hmarks.followed, hmarks.unfollowed⟩
  · exact ⟨apply_eq_self_of_not_isSpelledOut hbase hhref hnot,
      Url.spelling_of_not_isSpelledOut hreads hurl hweb hnot⟩

/-- Three slashes, upper case and a port do not matter; the host is allowed. -/
theorem attribute?_rel_apply_threeSlashes :
    let o : WikiOptions := { allowedExternalDomains := [" Example.org "] }
    let t : Token :=
      { kind := .linkOpen, tag := "a", nesting := 1,
        attributes := [("href", "HTTPS:///me@EXAMPLE.org:443/x")] }
    UrlParser.ReadsSchemes ∧ o.baseUrl = "" ∧
      t.attribute? "href" = some "HTTPS:///me@EXAMPLE.org:443/x" ∧
      UrlParser.parse? "HTTPS:///me@EXAMPLE.org:443/x".toList =
        some ⟨"https".toList, some "example.org".toList⟩ ∧
      (o.linkPolicy.apply t).attribute? "rel" = some "external noopener noreferrer" := by
  intro o t
  have hurl : UrlParser.parse? "HTTPS:///me@EXAMPLE.org:443/x".toList =
      some ⟨"https".toList, some "example.org".toList⟩ := by decide +kernel
  have hmarks := attribute?_rel_apply (o := o) (t := t) UrlParser.readsSchemes rfl rfl hurl
    (.inr rfl)
  refine ⟨UrlParser.readsSchemes, rfl, rfl, hurl, (hmarks.1 ?_).1 ?_⟩
  · exact ⟨"HTTPS".toList, "/me@EXAMPLE.org:443/x".toList, by decide +kernel, .inr (by decide)⟩
  · exact ⟨"example.org".toList, rfl, " Example.org ", by decide, by decide⟩

/-- A web address without slashes, one with backslashes and one behind a blank: none of the links is
marked, although their host is not allowed. -/
theorem exists_unmarked_spelling :
    let o : WikiOptions := {}
    let link (href : String) : Token :=
      { kind := .linkOpen, tag := "a", nesting := 1, attributes := [("href", href)] }
    let evil : Url := ⟨"https".toList, some "evil.org".toList⟩
    o.baseUrl = "" ∧
      UrlParser.parse? "https:evil.org".toList = some evil ∧
      (o.linkPolicy.apply (link "https:evil.org")).attribute? "rel" = none ∧
      UrlParser.parse? "https:\\\\evil.org".toList = some evil ∧
      (o.linkPolicy.apply (link "https:\\\\evil.org")).attribute? "rel" = none ∧
      UrlParser.parse? " https://evil.org".toList = some evil ∧
      (o.linkPolicy.apply (link " https://evil.org")).attribute? "rel" = none := by
  decide +kernel

end WikiOptions

end WikiPress
