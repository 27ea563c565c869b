import WikiPress.Config.Basic
import WikiPress.Pattern.Reader
import WikiPress.Proofs.Json.Record
import WikiPress.Url.Web

/-!
# Configurations are read as they were written

Options and configurations are written as records with all of their fields, and each record is read
back as it was.  A written configuration has the shape that a document must have, so that it loads
if and only if it is valid, and an invalid one fails for the reason for which it is invalid.

The hosts that may be followed are a set: each of them stands once, in an order that is kept.  The
number of jobs fits into a word.

## Main results

* `SlugOptions.ofJson?_toJson`, `TocOptions.ofJson?_toJson`, `WikilinkOptions.ofJson?_toJson`,
  `WikiOptions.ofJson?_toJson`, `MarkdownOptions.ofJson?_toJson`, `Config.ofJson?_toJson` : records
  are read as they were written.
* `Config.ofDocument_toJson` : a written configuration loads if and only if it is valid.
-/

namespace WikiPress

theorem SlugOptions.ofJson?_toJson (o : SlugOptions) : ofJson? o.toJson = some o := by
  have hnodup : (fields.flatMap Json.Field.spellings).Nodup := by decide
  have hfields : Json.fields? fields o.toJson = _ :=
    Json.fields?_object [.text o.replacement, Json.textOrNull o.remove, .bool o.lower,
      .bool o.strict, .bool o.trim] hnodup rfl
  simp [ofJson?, hfields, Json.orElse, Json.text?, Json.bool?, Json.nullable?_textOrNull]

theorem TocOptions.ofJson?_toJson (o : TocOptions) : ofJson? o.toJson = some o := by
  have hnodup : (fields.flatMap Json.Field.spellings).Nodup := by decide
  have hfields : Json.fields? fields o.toJson = _ :=
    Json.fields?_object [.text o.openingTag, .text o.closingTag, .text o.listClass,
      o.slugify.toJson] hnodup rfl
  simp [ofJson?, hfields, Json.orElse, Json.text?, SlugOptions.ofJson?_toJson]

theorem WikilinkOptions.ofJson?_toJson (o : WikilinkOptions) : ofJson? o.toJson = some o := by
  have hnodup : ([⟨"slugify", none⟩].flatMap Json.Field.spellings).Nodup := by decide
  have hfields : Json.fields? [⟨"slugify", none⟩] o.toJson = _ :=
    Json.fields?_object [o.slugify.toJson] hnodup rfl
  simp [ofJson?, hfields, Json.orElse, SlugOptions.ofJson?_toJson]

/-- A list in which everything stands once has nothing to lose. -/
theorem eraseDups_of_nodup {hosts : List String} (h : hosts.Nodup) : hosts.eraseDups = hosts := by
  induction hosts with
  | nil => rfl
  | cons host hosts ih =>
    rw [List.nodup_cons] at h
    have hfilter : hosts.filter (fun other => !other == host) = hosts := by
      rw [List.filter_eq_self]
      rintro other hother
      have hne : other ≠ host := fun heq => h.1 (heq ▸ hother)
      simp [hne]
    rw [List.eraseDups_cons, hfilter, ih h.2]

theorem WikiOptions.ofJson?_toJson {o : WikiOptions} (h : o.allowedExternalDomains.Nodup) :
    ofJson? o.toJson = some o := by
  have hnodup : (fields.flatMap Json.Field.spellings).Nodup := by decide
  have hfields : Json.fields? fields o.toJson = _ :=
    Json.fields?_object [.text o.baseUrl, .list (o.allowedExternalDomains.map .text),
      .bool o.openNewWindow, o.toc.toJson, o.wikilinks.toJson] hnodup rfl
  simp [ofJson?, hfields, Json.orElse, Json.text?, Json.bool?, Json.texts?_list,
    TocOptions.ofJson?_toJson, WikilinkOptions.ofJson?_toJson, allowOnly, eraseDups_of_nodup h]

theorem MarkdownOptions.ofJson?_toJson {o : MarkdownOptions}
    (h : o.wiki.allowedExternalDomains.Nodup) : ofJson? o.toJson = some o := by
  have hnodup : (fields.flatMap Json.Field.spellings).Nodup := by decide
  have hfields : Json.fields? fields o.toJson = _ :=
    Json.fields?_object [.bool o.html, .bool o.xhtmlOut, .bool o.breaks, .text o.langPrefix,
      .bool o.linkify, .bool o.typographer, .bool o.gfm, o.wiki.toJson] hnodup rfl
  simp [ofJson?, hfields, Json.orElse, Json.text?, Json.bool?, WikiOptions.ofJson?_toJson h]

namespace Config

variable {c : Config}

/-- The number of jobs is read as it was written. -/
theorem nullable?_jobs (hjobs : ∀ n, c.jobs = some n → n ≤ Text.mostWord) :
    Json.nullable? (Json.nat? Text.mostWord) (match c.jobs with
      | some n => .ofNat n
      | none => .null) = some c.jobs := by
  cases hc : c.jobs with
  | none => rfl
  | some n =>
    show (Json.nat? Text.mostWord (.ofNat n)).map some = some (some n)
    rw [Json.nat?_ofNat (hjobs n hc), Option.map_some]

theorem ofJson?_toJson (hhosts : c.markdown.wiki.allowedExternalDomains.Nodup)
    (hjobs : ∀ n, c.jobs = some n → n ≤ Text.mostWord) : ofJson? c.toJson = some c := by
  have hnodup : (fields.flatMap Json.Field.spellings).Nodup := by decide
  have hfields : Json.fields? fields c.toJson = _ :=
    Json.fields?_object [Json.textOrNull c.inputDir, Json.textOrNull c.outputDir,
      (match c.jobs with
        | some n => .ofNat n
        | none => .null), c.markdown.toJson] hnodup rfl
  simp [ofJson?, hfields, Json.orElse, Json.nullable?_textOrNull, nullable?_jobs hjobs,
    MarkdownOptions.ofJson?_toJson hhosts]

/-- A written configuration has the shape of a document that can be read. -/
theorem checkShape_toJson (c : Config) : checkShape c.toJson = .ok () := by
  have hmarkdown : c.toJson.member? "markdown" = some c.markdown.toJson := by
    simp [toJson, Json.member?, Json.findMember?]
  have hwiki : c.markdown.toJson.member? "wiki" = some c.markdown.wiki.toJson := by
    simp [MarkdownOptions.toJson, Json.member?, Json.findMember?]
  have hhosts : allowedHosts? c.markdown.wiki.toJson =
      some (.list (c.markdown.wiki.allowedExternalDomains.map .text)) := by
    simp [allowedHosts?, WikiOptions.toJson, Json.member?, Json.findMember?]
  rw [checkShape, hmarkdown, Option.filter_some_pos rfl]
  dsimp only
  rw [hwiki, Option.filter_some_pos rfl]
  dsimp only
  rw [hhosts]
  rfl

/-- **A written configuration loads if and only if it is valid.**  It is then read as it was, with
the hosts in the same order.  An invalid configuration fails to load for the reason for which it is
invalid. -/
theorem ofDocument_toJson [PatternLibrary] [UrlParser]
    (hhosts : c.markdown.wiki.allowedExternalDomains.Nodup)
    (hjobs : ∀ n, c.jobs = some n → n ≤ Text.mostWord) :
    ofDocument c.toJson = c.validate.map fun _ => c := by
  rw [ofDocument, checkShape_toJson]
  simp only [ofJson?_toJson hhosts hjobs]
  cases c.validate <;> rfl

/-- A configuration with the greatest number of jobs, two hosts that are not in alphabetical order,
and the given pattern for the anchors. -/
def manyJobs (pattern : String) : Config where
  outputDir := some "out"
  jobs := some Text.mostWord
  markdown :=
    { wiki :=
        { baseUrl := "/wiki", allowedExternalDomains := ["b.org", "a.org"]
          toc := { slugify := { remove := some pattern } } } }

theorem ofDocument_toJson_manyJobs :
    (∀ pattern, (manyJobs pattern).markdown.wiki.allowedExternalDomains.Nodup) ∧
      (∀ pattern n, (manyJobs pattern).jobs = some n → n ≤ Text.mostWord) ∧
      ofDocument (manyJobs "[.]").toJson = .ok (manyJobs "[.]") ∧
      ofDocument (manyJobs "(").toJson = .error .badPattern := by
  have hhosts (pattern : String) :
      (manyJobs pattern).markdown.wiki.allowedExternalDomains.Nodup :=
    show ["b.org", "a.org"].Nodup by decide
  have hjobs (pattern : String) (n : Nat) (h : (manyJobs pattern).jobs = some n) :
      n ≤ Text.mostWord := Nat.le_of_eq (Option.some.inj h).symm
  have hvalid : (manyJobs "[.]").validate = .ok () := by rfl
  have hinvalid : (manyJobs "(").validate = .error .badPattern := by rfl
  refine ⟨hhosts, hjobs, ?_, ?_⟩
  · rw [ofDocument_toJson (hhosts _) (hjobs _), hvalid]
    rfl
  · rw [ofDocument_toJson (hhosts _) (hjobs _), hinvalid]
    rfl

end Config

end WikiPress
