import WikiPress.Config.Basic
import WikiPress.Pattern.Reader
import WikiPress.Proofs.Json.Spelling
import WikiPress.Url.Web

/-!
# Keys of configurations in either spelling

Some keys of a configuration may be written in two ways, at three depths of the document.  The check
of the shape of a document looks for a list of hosts under both spellings by itself, before the
document is read as a record.  Both must find the same list whichever spellings a document uses.

## Main definitions

* `Config.Respelled` : a document and the same one with other spellings of some keys.
* `Config.checkedHosts?` : the value that the check of the shape takes for the hosts.
* `DistinctOf` : the distinct entries of a list, in their order.

## Main results

* `TocOptions.ofJson?_of_respelled`, `WikiOptions.ofJson?_of_respelled`,
  `MarkdownOptions.ofJson?_of_respelled`, `Config.ofJson?_of_respelled` : other spellings are read as
  the same record.
* `Config.checkShape_of_respelled`, `Config.checkedHosts?_of_respelled` : other spellings have the
  same shape, and the same value is taken for the hosts.
* `Config.checkShape_eq_ok_iff` : the shape is right if and only if that value is a list.
* `Config.ofDocument_eq_and_distinctOf_checkedHosts?` : other spellings give the same configuration
  or the same error, and the hosts of a configuration are the distinct ones that were checked.
-/

namespace WikiPress

variable {j j' v v' : Json}

/-! ### Other spellings -/

/-- The values of one key stand in a relation, and those of all other keys are the same. -/
def Json.Below (key : String) (R : Json → Json → Prop) (k : String) (v v' : Json) : Prop :=
  v = v' ∨ k = key ∧ R v v'

/-- Options for tables of contents with other spellings of some keys. -/
def TocOptions.Respelled : Json → Json → Prop := Json.Respelled fields fun _ v v' => v = v'

/-- Options of a wiki with other spellings of some keys, also in the options for tables of
contents. -/
def WikiOptions.Respelled : Json → Json → Prop :=
  Json.Respelled fields (Json.Below "toc" TocOptions.Respelled)

/-- Options of a processor with other spellings of some keys, also in the options of the wiki. -/
def MarkdownOptions.Respelled : Json → Json → Prop :=
  Json.Respelled fields (Json.Below "wiki" WikiOptions.Respelled)

/-- A document with other spellings of some keys in the options of the processor.  No object of
either document has a key under both spellings, if the two documents differ in it. -/
def Config.Respelled : Json → Json → Prop :=
  Json.Respelled fields (Json.Below "markdown" MarkdownOptions.Respelled)

/-! ### Records -/

theorem Json.orElse_of_rel {α : Type} {R : Json → Json → Prop} {read : Json → Option α}
    (hread : ∀ v v', R v v' → read v' = read v) {o o' : Option Json} (h : Option.Rel R o o')
    (usual : α) : Json.orElse usual read o' = Json.orElse usual read o := by
  cases h with
  | some hv => exact hread _ _ hv
  | none => rfl

theorem TocOptions.ofJson?_of_respelled (h : Respelled j j') : ofJson? j' = ofJson? j := by
  cases h with
  | refl => rfl
  | object honce honce' hmembers =>
    have hlookup := fun f hf =>
      Json.lookup_eq (f := f) (fun _ _ _ _ heq => heq) (by decide) hf honce honce' hmembers
    rw [ofJson?, ofJson?, Json.fields?_of_speltOnce honce, Json.fields?_of_speltOnce honce',
      List.map_congr_left hlookup]

/-- With other spellings, a field below which no key has two spellings keeps its value, and one
below which they have keeps it up to their spelling. -/
theorem Json.lookup_below {fields : List Field} {key : String} {R : Json → Json → Prop}
    {members members' : List (String × Json)} (hnodup : (fields.flatMap Field.spellings).Nodup)
    (hrefl : ∀ v, R v v) (honce : SpeltOnce fields members) (honce' : SpeltOnce fields members')
    (h : List.Forall₂ (MemberRespelled fields (Below key R)) members members') :
    (∀ f ∈ fields, key ∉ f.spellings → f.lookup members' = f.lookup members) ∧
      ∀ f ∈ fields, Option.Rel R (f.lookup members) (f.lookup members') := by
  refine ⟨fun f hf hkey => ?_, fun f hf => ?_⟩
  · refine lookup_eq ?_ hnodup hf honce honce' h
    rintro k hk v v' (heq | ⟨rfl, -⟩)
    · exact heq
    · exact absurd hk hkey
  · refine rel_lookup hrefl ?_ hnodup hf honce honce' h
    rintro k - v v' (rfl | ⟨-, hv⟩)
    · exact hrefl v
    · exact hv

theorem WikiOptions.ofJson?_of_respelled (h : Respelled j j') : ofJson? j' = ofJson? j := by
  cases h with
  | refl => rfl
  | object honce honce' hmembers =>
    obtain ⟨hsame, hrel⟩ := Json.lookup_below (by decide) .refl honce honce' hmembers
    have htoc := Json.orElse_of_rel (fun v v' hv => TocOptions.ofJson?_of_respelled hv)
      (hrel ⟨"toc", none⟩ (by decide))
    rw [ofJson?, ofJson?, Json.fields?_of_speltOnce honce, Json.fields?_of_speltOnce honce']
    simp only [fields, List.map_cons, List.map_nil, htoc,
      hsame ⟨"base_url", some "baseUrl"⟩ (by decide) (by decide),
      hsame ⟨"allowed_external_domains", some "allowedExternalDomains"⟩ (by decide) (by decide),
      hsame ⟨"open_new_window", some "openNewWindow"⟩ (by decide) (by decide),
      hsame ⟨"wikilinks", none⟩ (by decide) (by decide)]

theorem MarkdownOptions.ofJson?_of_respelled (h : Respelled j j') : ofJson? j' = ofJson? j := by
  cases h with
  | refl => rfl
  | object honce honce' hmembers =>
    obtain ⟨hsame, hrel⟩ := Json.lookup_below (by decide) .refl honce honce' hmembers
    have hwiki := Json.orElse_of_rel (fun v v' hv => WikiOptions.ofJson?_of_respelled hv)
      (hrel ⟨"wiki", none⟩ (by decide))
    rw [ofJson?, ofJson?, Json.fields?_of_speltOnce honce, Json.fields?_of_speltOnce honce']
    simp only [fields, List.map_cons, List.map_nil, hwiki,
      hsame ⟨"html", none⟩ (by decide) (by decide),
      hsame ⟨"xhtml_out", some "xhtmlOut"⟩ (by decide) (by decide),
      hsame ⟨"breaks", none⟩ (by decide) (by decide),
      hsame ⟨"lang_prefix", some "langPrefix"⟩ (by decide) (by decide),
      hsame ⟨"linkify", none⟩ (by decide) (by decide),
      hsame ⟨"typographer", none⟩ (by decide) (by decide),
      hsame ⟨"gfm", none⟩ (by decide) (by decide)]

namespace Config

theorem ofJson?_of_respelled (h : Respelled j j') : ofJson? j' = ofJson? j := by
  cases h with
  | refl => rfl
  | object honce honce' hmembers =>
    obtain ⟨hsame, hrel⟩ := Json.lookup_below (by decide) .refl honce honce' hmembers
    have hmarkdown := Json.orElse_of_rel (fun v v' hv => MarkdownOptions.ofJson?_of_respelled hv)
      (hrel ⟨"markdown", none⟩ (by decide))
    rw [ofJson?, ofJson?, Json.fields?_of_speltOnce honce, Json.fields?_of_speltOnce honce']
    simp only [fields, List.map_cons, List.map_nil, hmarkdown,
      hsame ⟨"input_dir", none⟩ (by decide) (by decide),
      hsame ⟨"output_dir", none⟩ (by decide) (by decide),
      hsame ⟨"jobs", none⟩ (by decide) (by decide)]

/-! ### The check of the shape -/

theorem allowedHosts?_of_respelled (h : WikiOptions.Respelled j j') :
    allowedHosts? j' = allowedHosts? j := by
  cases h with
  | refl => rfl
  | object honce honce' hmembers =>
    obtain ⟨hsame, -⟩ := Json.lookup_below (by decide) .refl honce honce' hmembers
    exact hsame ⟨"allowed_external_domains", some "allowedExternalDomains"⟩ (by decide) (by decide)

section Member

variable {fields inner : List Json.Field} {key : String} {R : String → Json → Json → Prop}

/-- Below a key that has one spelling only, there are values with other spellings. -/
theorem rel_member?_of_respelled (hnodup : (fields.flatMap Json.Field.spellings).Nodup)
    (hkey : ⟨key, none⟩ ∈ fields)
    (h : Json.Respelled fields (Json.Below key (Json.Respelled inner R)) j j') :
    Option.Rel (Json.Respelled inner R) (j.member? key) (j'.member? key) := by
  cases h with
  | refl =>
    cases j.member? key with
    | none => exact .none
    | some v => exact .some (.refl v)
  | object honce honce' hmembers =>
    have hlookup := (Json.lookup_below hnodup .refl honce honce' hmembers).2 _ hkey
    simpa only [Json.member?, Json.Field.lookup, Option.bind_none, Option.or_none] using hlookup

/-- Other spellings make no object of a value that is none. -/
theorem rel_object_of_respelled (hnodup : (fields.flatMap Json.Field.spellings).Nodup)
    (hkey : ⟨key, none⟩ ∈ fields)
    (h : Json.Respelled fields (Json.Below key (Json.Respelled inner R)) j j') :
    Option.Rel (Json.Respelled inner R) ((j.member? key).filter Json.isObject)
      ((j'.member? key).filter Json.isObject) := by
  have hrel := rel_member?_of_respelled hnodup hkey h
  generalize j.member? key = o, j'.member? key = o' at hrel
  cases hrel with
  | none => exact .none
  | some hv =>
    cases hv with
    | refl =>
      cases Option.filter Json.isObject _ with
      | none => exact .none
      | some v => exact .some (.refl v)
    | object honce honce' hmembers => exact .some (.object honce honce' hmembers)

end Member

theorem checkShape_of_respelled (h : Respelled j j') : checkShape j' = checkShape j := by
  have hmarkdown : Option.Rel MarkdownOptions.Respelled _ _ :=
    rel_object_of_respelled (by decide) (by decide) h
  unfold checkShape
  generalize (j.member? "markdown").filter Json.isObject = markdown,
    (j'.member? "markdown").filter Json.isObject = markdown' at hmarkdown
  cases hmarkdown with
  | none => rfl
  | @some m m' hm =>
    have hwiki := rel_object_of_respelled (by decide) (by decide) hm
    dsimp only
    generalize (m.member? "wiki").filter Json.isObject = wiki,
      (m'.member? "wiki").filter Json.isObject = wiki' at hwiki
    cases hwiki with
    | none => rfl
    | some hw => simp only [allowedHosts?_of_respelled hw]

/-- Other spellings give the same configuration or the same error. -/
theorem ofDocument_of_respelled [PatternLibrary] [UrlParser] (h : Respelled j j') :
    ofDocument j' = ofDocument j := by
  rw [ofDocument, ofDocument, checkShape_of_respelled h, ofJson?_of_respelled h]

/-! ### The hosts -/

/-- The value that the check of the shape takes for the allowed hosts. -/
def checkedHosts? (document : Json) : Option Json := do
  let markdown ← document.member? "markdown"
  let wiki ← markdown.member? "wiki"
  allowedHosts? wiki

theorem checkedHosts?_of_respelled (h : Respelled j j') : checkedHosts? j' = checkedHosts? j := by
  have hmarkdown : Option.Rel MarkdownOptions.Respelled _ _ :=
    rel_member?_of_respelled (by decide) (by decide) h
  unfold checkedHosts?
  generalize j.member? "markdown" = markdown, j'.member? "markdown" = markdown' at hmarkdown
  cases hmarkdown with
  | none => rfl
  | @some m m' hm =>
    have hwiki : Option.Rel WikiOptions.Respelled _ _ :=
      rel_member?_of_respelled (by decide) (by decide) hm
    simp only [Option.bind_eq_bind, Option.bind_some]
    generalize m.member? "wiki" = wiki, m'.member? "wiki" = wiki' at hwiki
    cases hwiki with
    | none => rfl
    | some hw => simp only [Option.bind_some, allowedHosts?_of_respelled hw]

/-- A document has the right shape if and only if a list is taken for its hosts. -/
theorem checkShape_eq_ok_iff :
    checkShape j = .ok () ↔ ∃ values, checkedHosts? j = some (.list values) := by
  -- What is no object has no members, and so there is nothing below it.
  have hmember : ∀ key (v : Json), v.isObject = false → v.member? key = none := by
    rintro key (_ | _) hv <;> first | rfl | exact absurd hv (by simp [Json.isObject])
  rw [checkShape, checkedHosts?]
  cases j.member? "markdown" with
  | none => simp
  | some markdown =>
    rw [Option.bind_eq_bind, Option.bind_some]
    cases hmarkdown : markdown.isObject with
    | false => simp [Option.filter_some_neg, hmarkdown, hmember _ _ hmarkdown]
    | true =>
      rw [Option.filter_some_pos hmarkdown]
      dsimp only
      cases markdown.member? "wiki" with
      | none => simp
      | some wiki =>
        rw [Option.bind_some]
        cases hwiki : wiki.isObject with
        | false => simp [Option.filter_some_neg, hwiki, allowedHosts?, hmember _ _ hwiki]
        | true =>
          rw [Option.filter_some_pos hwiki]
          dsimp only
          cases allowedHosts? wiki with
          | none => simp
          | some hosts => cases hosts <;> simp [Json.isList]

end Config

/-- The hosts of a wiki are those of the list that is taken for them. -/
theorem WikiOptions.eraseDups_of_ofJson? {wiki : Json} {o : WikiOptions} {values : List Json}
    (h : ofJson? wiki = some o) (hhosts : Config.allowedHosts? wiki = some (.list values)) :
    ∃ texts : List String, values = texts.map .text ∧
      o.allowedExternalDomains = texts.eraseDups := by
  cases wiki with
  | object members =>
    rw [ofJson?] at h
    rcases Json.fields?_object_eq_none_or fields members with hnone | hfound
    · rw [hnone] at h
      exact absurd h (by simp)
    · rw [hfound] at h
      simp only [fields, List.map_cons, List.map_nil, Option.bind_eq_bind,
        Option.bind_eq_some_iff] at h
      obtain ⟨_, -, texts, htexts, _, -, _, -, _, -, heq⟩ := h
      obtain rfl := Option.some.inj heq
      have hlookup : Json.Field.lookup
          ⟨"allowed_external_domains", some "allowedExternalDomains"⟩ members =
            some (.list values) := hhosts
      rw [hlookup, Json.orElse, Json.texts?_eq_some_iff] at htexts
      exact ⟨texts, htexts, rfl⟩
  | _ => exact absurd hhosts (by simp [Config.allowedHosts?, Json.member?])

/-- The options of the wiki are read from the member for them. -/
theorem MarkdownOptions.ofJson?_wiki {markdown wiki : Json} {o : MarkdownOptions}
    (h : ofJson? markdown = some o) (hwiki : markdown.member? "wiki" = some wiki) :
    WikiOptions.ofJson? wiki = some o.wiki := by
  cases markdown with
  | object members =>
    rw [ofJson?] at h
    rcases Json.fields?_object_eq_none_or fields members with hnone | hfound
    · rw [hnone] at h
      exact absurd h (by simp)
    · rw [hfound] at h
      simp only [fields, List.map_cons, List.map_nil, Option.bind_eq_bind,
        Option.bind_eq_some_iff] at h
      obtain ⟨_, -, _, -, _, -, _, -, _, -, _, -, _, -, w, hread, heq⟩ := h
      obtain rfl := Option.some.inj heq
      rw [Json.member?] at hwiki
      rwa [Json.Field.lookup, Option.bind_none, Option.or_none, hwiki, Json.orElse] at hread
  | _ => exact absurd hwiki (by simp [Json.member?])

namespace Config

/-- The options of the processor are read from the member for them. -/
theorem ofJson?_markdown {document markdown : Json} {c : Config}
    (h : ofJson? document = some c) (hmarkdown : document.member? "markdown" = some markdown) :
    MarkdownOptions.ofJson? markdown = some c.markdown := by
  cases document with
  | object members =>
    rw [ofJson?] at h
    rcases Json.fields?_object_eq_none_or fields members with hnone | hfound
    · rw [hnone] at h
      exact absurd h (by simp)
    · rw [hfound] at h
      simp only [fields, List.map_cons, List.map_nil, Option.bind_eq_bind,
        Option.bind_eq_some_iff] at h
      obtain ⟨_, -, _, -, _, -, m, hread, heq⟩ := h
      obtain rfl := Option.some.inj heq
      rw [Json.member?] at hmarkdown
      rwa [Json.Field.lookup, Option.bind_none, Option.or_none, hmarkdown, Json.orElse] at hread
  | _ => exact absurd hmarkdown (by simp [Json.member?])

/-- Some hosts are the distinct ones of a list of texts, in the order in which each of them stands
there for the first time. -/
def DistinctOf (texts hosts : List String) : Prop :=
  (∀ h, h ∈ hosts ↔ h ∈ texts) ∧ hosts.Pairwise fun g h => texts.idxOf g < texts.idxOf h

/-- Dropping other texts changes nothing about the order of those that are left. -/
theorem idxOf_lt_of_filter {keep : String → Bool} {texts : List String} {g h : String}
    (hg : keep g) (hh : keep h)
    (hlt : (texts.filter keep).idxOf g < (texts.filter keep).idxOf h) :
    texts.idxOf g < texts.idxOf h := by
  induction texts with
  | nil => simp at hlt
  | cons s texts ih =>
    by_cases hs : keep s
    · rw [List.filter_cons_of_pos hs] at hlt
      by_cases hsg : s = g <;> by_cases hsh : s = h <;>
        simp_all [List.idxOf_cons]
    · have hsg : s ≠ g := fun heq => hs (heq ▸ hg)
      have hsh : s ≠ h := fun heq => hs (heq ▸ hh)
      rw [List.filter_cons_of_neg hs] at hlt
      rw [List.idxOf_cons_ne _ hsg, List.idxOf_cons_ne _ hsh]
      exact Nat.succ_lt_succ (ih hlt)

theorem distinctOf_eraseDups (texts : List String) : DistinctOf texts texts.eraseDups := by
  refine ⟨fun h => List.mem_eraseDups, ?_⟩
  -- Behind its first text, a list without its later copies is that of a shorter list.
  induction hlength : texts.length using Nat.strong_induction_on generalizing texts with
  | _ n ih =>
    cases texts with
    | nil => exact .nil
    | cons s texts =>
      rw [List.eraseDups_cons]
      have hshorter : (texts.filter fun h => !h == s).length < n := by
        rw [← hlength, List.length_cons]
        exact Nat.lt_succ_of_le (List.length_filter_le ..)
      have hkept : ∀ h ∈ (texts.filter fun h => !h == s).eraseDups, h ≠ s := by
        intro h hh
        simpa using (List.mem_filter.mp (List.mem_eraseDups.mp hh)).2
      refine .cons (fun h hh => ?_) ?_
      · rw [List.idxOf_cons_self, List.idxOf_cons_ne _ (hkept h hh).symm]
        exact Nat.succ_pos _
      · refine (ih _ hshorter _ rfl).imp_of_mem fun {g h} hg hh hlt => ?_
        rw [List.idxOf_cons_ne _ (hkept g hg).symm, List.idxOf_cons_ne _ (hkept h hh).symm]
        exact Nat.succ_lt_succ
          (idxOf_lt_of_filter (by simpa using hkept g hg) (by simpa using hkept h hh) hlt)

/-- The hosts of a configuration are the distinct ones of the list that was checked. -/
theorem exists_distinctOf_of_ofDocument [PatternLibrary] [UrlParser] {document : Json} {c : Config}
    (h : ofDocument document = .ok c) :
    ∃ texts : List String, checkedHosts? document = some (.list (texts.map .text)) ∧
      DistinctOf texts c.markdown.wiki.allowedExternalDomains := by
  rw [ofDocument] at h
  cases hshape : checkShape document with
  | error e => rw [hshape] at h; exact absurd h (by simp [bind, Except.bind])
  | ok =>
    cases hread : ofJson? document with
    | none => rw [hshape, hread] at h; exact absurd h (by simp [bind, Except.bind])
    | some d =>
      rw [hshape, hread] at h
      cases hvalid : d.validate with
      | error e => simp [bind, Except.bind, hvalid] at h
      | ok =>
        obtain rfl : d = c := by simpa [bind, Except.bind, hvalid, pure, Except.pure] using h
        obtain ⟨values, hvalues⟩ := checkShape_eq_ok_iff.mp hshape
        have hchecked := hvalues
        simp only [checkedHosts?, Option.bind_eq_bind, Option.bind_eq_some_iff] at hvalues
        obtain ⟨markdown, hmarkdown, wiki, hwiki, hhosts⟩ := hvalues
        obtain ⟨texts, rfl, htexts⟩ := WikiOptions.eraseDups_of_ofJson?
          (MarkdownOptions.ofJson?_wiki (ofJson?_markdown hread hmarkdown) hwiki) hhosts
        exact ⟨texts, hchecked, htexts ▸ distinctOf_eraseDups texts⟩

/-- **Other spellings of its keys change nothing about a document.**  It gives the same configuration,
or fails for the same reason, and the same value is checked for its hosts.  The hosts of a
configuration are the distinct ones of the list that was checked, in the order of that list. -/
theorem ofDocument_eq_and_distinctOf_checkedHosts? [PatternLibrary] [UrlParser]
    {document other : Json} (h : Respelled document other) :
    ofDocument other = ofDocument document ∧ checkedHosts? other = checkedHosts? document ∧
      ∀ c, ofDocument document = .ok c →
        ∃ texts : List String, checkedHosts? document = some (.list (texts.map .text)) ∧
          DistinctOf texts c.markdown.wiki.allowedExternalDomains :=
  ⟨ofDocument_of_respelled h, checkedHosts?_of_respelled h,
    fun _ => exists_distinctOf_of_ofDocument⟩

/-- Options for tables of contents with the given keys, and with the given pattern for the anchors. -/
def tocWith (opening closing list pattern : String) : Json :=
  .object [(opening, .text "<<"), (closing, .text ">>"), (list, .text "contents"),
    ("slugify", .object [("remove", .text pattern)])]

/-- Options of a wiki with the given keys. -/
def wikiWith (base hosts window : String) (toc : Json) : Json :=
  .object [(base, .text "/wiki"), (hosts, .list (["b.org", "a.org", "b.org"].map .text)),
    (window, .bool false), ("toc", toc)]

/-- A document with the given keys in the options of the processor. -/
def documentWith (xhtml lang : String) (wiki : Json) : Json :=
  .object [("jobs", .ofNat 2),
    ("markdown", .object [(xhtml, .bool true), (lang, .text "code-"), ("wiki", wiki)])]

/-- A document with underscores in most keys, and with camel case in one key of each object. -/
def underscored (pattern : String) : Json :=
  documentWith "xhtml_out" "langPrefix" <|
    wikiWith "base_url" "allowed_external_domains" "openNewWindow" <|
      tocWith "opening_tag" "closing_tag" "listClass" pattern

/-- The same document with the other spelling of each key. -/
def camelCased (pattern : String) : Json :=
  documentWith "xhtmlOut" "lang_prefix" <|
    wikiWith "baseUrl" "allowedExternalDomains" "open_new_window" <|
      tocWith "openingTag" "closingTag" "list_class" pattern

theorem respelled_camelCased (pattern : String) :
    Respelled (underscored pattern) (camelCased pattern) := by
  have htoc : TocOptions.Respelled (tocWith "opening_tag" "closing_tag" "listClass" pattern)
      (tocWith "openingTag" "closingTag" "list_class" pattern) := by
    refine .object (by simp [Json.SpeltOnce, TocOptions.fields])
      (by simp [Json.SpeltOnce, TocOptions.fields]) ?_
    refine .cons (.renamed (f := ⟨"opening_tag", some "openingTag"⟩) ?_ ?_ ?_)
      (.cons (.renamed (f := ⟨"closing_tag", some "closingTag"⟩) ?_ ?_ ?_)
        (.cons (.renamed (f := ⟨"list_class", some "listClass"⟩) ?_ ?_ ?_)
          (.cons (.kept rfl) .nil))) <;> decide
  have hwiki : WikiOptions.Respelled
      (wikiWith "base_url" "allowed_external_domains" "openNewWindow" <|
        tocWith "opening_tag" "closing_tag" "listClass" pattern)
      (wikiWith "baseUrl" "allowedExternalDomains" "open_new_window" <|
        tocWith "openingTag" "closingTag" "list_class" pattern) := by
    refine .object (by simp [Json.SpeltOnce, WikiOptions.fields])
      (by simp [Json.SpeltOnce, WikiOptions.fields]) ?_
    refine .cons (.renamed (f := ⟨"base_url", some "baseUrl"⟩) ?_ ?_ ?_)
      (.cons (.renamed
          (f := ⟨"allowed_external_domains", some "allowedExternalDomains"⟩) ?_ ?_ ?_)
        (.cons (.renamed (f := ⟨"open_new_window", some "openNewWindow"⟩) ?_ ?_ ?_)
          (.cons (.kept (.inr ⟨rfl, htoc⟩)) .nil))) <;> decide
  refine .object (by simp [Json.SpeltOnce, fields]) (by simp [Json.SpeltOnce, fields])
    (.cons (.kept (.inl rfl)) (.cons (.kept (.inr ⟨rfl, ?_⟩)) .nil))
  refine .object (by simp [Json.SpeltOnce, MarkdownOptions.fields])
    (by simp [Json.SpeltOnce, MarkdownOptions.fields]) ?_
  refine .cons (.renamed (f := ⟨"xhtml_out", some "xhtmlOut"⟩) ?_ ?_ ?_)
    (.cons (.renamed (f := ⟨"lang_prefix", some "langPrefix"⟩) ?_ ?_ ?_)
      (.cons (.kept (.inr ⟨rfl, hwiki⟩)) .nil)) <;> decide

/-- The configuration of the document in either spelling. -/
def spelt : Config where
  jobs := some 2
  markdown :=
    { xhtmlOut := true, langPrefix := "code-"
      wiki :=
        { baseUrl := "/wiki", allowedExternalDomains := ["b.org", "a.org"], openNewWindow := false
          toc :=
            { openingTag := "<<", closingTag := ">>", listClass := "contents"
              slugify := { remove := some "[.]" } } } }

theorem ofDocument_camelCased :
    (∀ pattern, Respelled (underscored pattern) (camelCased pattern)) ∧
      ofDocument (camelCased "[.]") = .ok spelt ∧
      ofDocument (camelCased "(") = .error .badPattern ∧
      checkedHosts? (camelCased "[.]") =
        some (.list (["b.org", "a.org", "b.org"].map .text)) ∧
      DistinctOf ["b.org", "a.org", "b.org"] ["b.org", "a.org"] := by
  have hread : ofDocument (underscored "[.]") = .ok spelt := by rfl
  have hfails : ofDocument (underscored "(") = .error .badPattern := by rfl
  have hchecked : checkedHosts? (underscored "[.]") =
      some (.list (["b.org", "a.org", "b.org"].map .text)) := by rfl
  obtain ⟨hsame, hhosts, hdistinct⟩ :=
    ofDocument_eq_and_distinctOf_checkedHosts? (respelled_camelCased "[.]")
  obtain ⟨hfails', -, -⟩ := ofDocument_eq_and_distinctOf_checkedHosts? (respelled_camelCased "(")
  obtain ⟨texts, htexts, h⟩ := hdistinct spelt hread
  have heq : texts = ["b.org", "a.org", "b.org"] := by
    have hmap := Option.some.inj (htexts.symm.trans hchecked)
    exact List.map_injective_iff.mpr (fun _ _ => Json.text.inj) (Json.list.inj hmap)
  exact ⟨respelled_camelCased, hsame.trans hread, hfails'.trans hfails, hhosts.trans hchecked,
    heq ▸ h⟩

end Config

end WikiPress
