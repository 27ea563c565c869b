import WikiPress.Markdown.Printer
import WikiPress.Proofs.Mask.Whole

/-!
# Documents with whole placeholders

A document that was read from a masked source has placeholders in its strings, each of them whole,
and none behind a backslash.  Its plain text and its HTML then have whole placeholders as well: the
printer puts strings one behind the other, with characters that are escaped one by one.

## Main definitions

* `Kind.strings` : the strings of a node.
* `Node.Whole` : a document with whole placeholders.

## Main results

* `Node.whole_plainTexts` : the plain text of a document has whole placeholders.
* `Node.whole_toHtml` : the HTML of a document has whole placeholders.
-/

namespace WikiPress.Markdown

open WikiPress.Text WikiPress.Mask

/-- The strings of a node of some kind. -/
def Kind.strings : Kind → List String
  | .codeBlock _ info literal => [info, literal]
  | .htmlBlock literal => [literal]
  | .text literal => [literal]
  | .code literal => [literal]
  | .marked mark => [mark]
  | .link url title => [url, title]
  | .image url title => [url, title]
  | .htmlInline literal => [literal]
  | .raw literal => [literal]
  | _ => []

/-- The strings below a node have whole placeholders, and the text behind a backslash has none. -/
inductive Node.Whole (m : Mask) : Node → Prop
  | intro {kind : Kind} {extent : Extent} {children : List Node} :
      (∀ s ∈ kind.strings, m.Whole s.toList) →
      (kind = .escaped → Free (Node.plainTexts children).toList) →
      (∀ n ∈ children, Node.Whole m n) → Node.Whole m ⟨kind, extent, children⟩

variable {m : Mask}

theorem Node.whole_iff {kind : Kind} {extent : Extent} {children : List Node} :
    Node.Whole m ⟨kind, extent, children⟩ ↔ (∀ s ∈ kind.strings, m.Whole s.toList) ∧
      (kind = .escaped → Free (Node.plainTexts children).toList) ∧
      ∀ n ∈ children, Node.Whole m n :=
  ⟨fun | .intro hstrings hescaped hchildren => ⟨hstrings, hescaped, hchildren⟩,
    fun ⟨hstrings, hescaped, hchildren⟩ => .intro hstrings hescaped hchildren⟩

theorem Node.Whole.children {n : Node} (h : n.Whole m) : ∀ c ∈ n.children, c.Whole m := by
  cases h with
  | intro _ _ hchildren => exact hchildren

/-! ### Escaping -/

section Escape

variable {s : List Char}

theorem free_escapeChar {c : Char} (hc : IsPlain c) : Free (Html.escapeChar c) := by
  unfold Html.escapeChar
  split
  · decide
  split
  · decide
  split
  · decide
  split
  · decide
  · exact free_cons_iff.mpr ⟨hc, free_nil⟩

theorem free_escapeTextChar {c : Char} (hc : IsPlain c) : Free (Html.escapeTextChar c) := by
  unfold Html.escapeTextChar
  split
  · exact free_cons_iff.mpr ⟨hc, free_nil⟩
  · exact free_escapeChar hc

theorem free_escapeText (h : Free s) : Free (Html.escapeText s) :=
  .flatMap fun c hc => free_escapeTextChar (h c hc)

theorem whole_escape (h : m.Whole s) : m.Whole (Html.escape s) := by
  refine h.flatMap (fun c hc => free_escapeChar hc) (by decide) (by decide) ?_
  intro c hc
  unfold Html.escapeChar
  have hne : ∀ d : Char, d.isDigit = false → c ≠ d := by
    rintro d hd rfl
    exact absurd hc (by simp [hd])
  rw [if_neg (hne _ rfl), if_neg (hne _ rfl), if_neg (hne _ rfl), if_neg (hne _ rfl)]

theorem isPlain_upperHexDigit {n : Nat} (h : n < 16) : IsPlain (Html.upperHexDigit n) := by
  revert n
  decide

theorem free_percentByte (b : UInt8) : Free (Html.percentByte b) := by
  have hb : b.toNat < 256 := b.toNat_lt
  have hhigh : b.toNat / 16 < 16 := by omega
  have hlow : b.toNat % 16 < 16 := Nat.mod_lt _ (by decide)
  refine free_cons_iff.mpr ⟨by decide, free_cons_iff.mpr ⟨isPlain_upperHexDigit hhigh, ?_⟩⟩
  exact free_cons_iff.mpr ⟨isPlain_upperHexDigit hlow, free_nil⟩

/-- The bytes of placeholders are written as numbers in an address. -/
theorem free_escapeAddress (s : List Char) : Free (Html.escapeAddress s) := by
  refine .flatMap fun c _ => ?_
  unfold Html.escapeAddressChar
  split
  · next hc => exact free_cons_iff.mpr ⟨isPlain_of_class rfl rfl hc, free_nil⟩
  split
  · decide
  split
  · decide
  · exact .flatMap fun b _ => free_percentByte b

end Escape

/-! ### Output -/

namespace Output

variable {out : Output} {s : List Char}

/-- An output with whole placeholders. -/
def Whole (m : Mask) (out : Output) : Prop := m.Whole out.reverse

theorem Whole.put (hout : Whole m out) (hs : m.Whole s) : Whole m (out.put s) := by
  rw [Whole, Output.put, List.reverse_append, List.reverse_reverse]
  exact hout.append hs

/-- A fixed string is checked on the spot. -/
theorem Whole.puts {s : String} (hout : Whole m out) (hs : Free s.toList := by decide) :
    Whole m (out.puts s) :=
  hout.put (.of_free hs)

theorem Whole.escaped {s : String} (hout : Whole m out) (hs : m.Whole s.toList) :
    Whole m (out.escaped s) :=
  hout.put (whole_escape hs)

theorem Whole.newLine (hout : Whole m out) : Whole m out.newLine := by
  unfold Output.newLine
  split
  · exact hout
  · exact hout
  · exact hout.put (s := ['\n']) (.of_free (by decide))

end Output

/-! ### Parts of the output -/

section Parts

variable {info url title : String}

theorem whole_addressOf (html : Bool) (url : String) : m.Whole (addressOf html url) := by
  unfold addressOf
  split
  · exact .of_free (free_escapeAddress _)
  · exact .of_free free_nil

theorem whole_passHtml {literal : String} (html : Bool) (h : m.Whole literal.toList) :
    m.Whole (passHtml html literal).toList := by
  unfold passHtml
  split
  · exact h
  · exact .of_free (by decide)

theorem whole_codeBlockStart (h : m.Whole info.toList) : m.Whole (codeBlockStart info) := by
  unfold codeBlockStart
  split
  · exact .of_free (by decide)
  split
  · exact .of_free (by decide)
  · have hlanguage : m.Whole (info.toList.takeWhile fun c => !isAsciiBlank c) := by
      refine h.takeWhile (by decide) (by decide) fun c hc => ?_
      rw [Bool.not_eq_true']
      simp only [Char.isDigit, Bool.and_eq_true, decide_eq_true_eq] at hc
      simp only [isAsciiBlank, Bool.or_eq_false_iff, decide_eq_false_iff_not, Bool.and_eq_false_iff]
      have hlow : 48 ≤ c.toNat := hc.1
      refine ⟨?_, Or.inr (by omega)⟩
      rintro rfl
      exact absurd hlow (by decide)
    have hbegin : m.Whole "language-".toList := .of_free (by decide)
    have hstart : m.Whole "<pre><code class=\"".toList := .of_free (by decide)
    exact (hstart.append (whole_escape (hbegin.append hlanguage))).append (.of_free (by decide))

theorem whole_titleAttribute (h : m.Whole title.toList) : m.Whole (titleAttribute title) := by
  unfold titleAttribute
  split
  · exact .of_free free_nil
  · have hstart : m.Whole "\" title=\"".toList := .of_free (by decide)
    exact hstart.append (whole_escape h)

theorem free_alignmentAttribute (alignment : Alignment) :
    Free (alignmentAttribute alignment).toList := by
  cases alignment <;> decide

theorem free_numbered {before after : String} (n : Nat) (hbefore : Free before.toList)
    (hafter : Free after.toList) : Free (before ++ toString n ++ after).toList :=
  free_string_append (free_string_append hbefore (free_ofList_toDigits n)) hafter

end Parts

/-! ### Nodes -/

section Kinds

variable {kind : Kind} {out : Output}

/-- What stands before the content of a node has whole placeholders if its strings have. -/
theorem whole_startOf (html : Bool) (around : Surroundings)
    (h : ∀ s ∈ kind.strings, m.Whole s.toList) (hout : Output.Whole m out) :
    Output.Whole m (startOf html around kind out) := by
  have hline := hout.newLine
  cases kind with
  | document => exact hout
  | blockQuote => exact hline.puts
  | list style =>
    simp only [startOf]
    split
    · split
      · exact hline.puts
      · exact hline.puts (free_numbered _ (by decide) (by decide))
    · exact hline.puts
  | item => exact hline.puts
  | taskItem symbol =>
    have hitem : Output.Whole m
        (if around.inList then out.newLine.puts "<li>" else out.newLine) := by
      split
      · exact hline.puts
      · exact hline
    have hbox := hitem.puts (s := "<input type=\"checkbox\"")
    simp only [startOf]
    by_cases hsymbol : symbol.isSome = true
    · rw [if_pos hsymbol]
      exact hbox.puts.puts
    · rw [if_neg hsymbol]
      exact hbox.puts
  | paragraph =>
    simp only [startOf]
    split
    · exact hout
    · exact hline.puts
  | heading level => exact hline.puts (free_numbered level (by decide) (by decide))
  | codeBlock fenced info literal =>
    have hinfo := h info (List.mem_cons_self ..)
    have hliteral := h literal (List.mem_cons_of_mem _ (List.mem_cons_self ..))
    exact ((hline.put (whole_codeBlockStart hinfo)).escaped hliteral).puts
  | htmlBlock literal =>
    exact (hline.put (whole_passHtml html (h literal (List.mem_cons_self ..)))).newLine
  | thematicBreak => exact hline.puts
  | table => exact hline.puts
  | tableRow header =>
    simp only [startOf]
    split
    · exact hline.puts.puts
    split
    · exact hline.puts.puts
    · exact hline.puts
  | tableCell =>
    refine Output.Whole.puts (.puts (hline.puts ?_) (free_alignmentAttribute _)) (by decide)
    split <;> decide
  | text literal => exact hout.escaped (h literal (List.mem_cons_self ..))
  | escaped => exact hout
  | softBreak => exact hout.puts
  | lineBreak => exact hout.puts
  | code literal =>
    exact (hout.puts.escaped (h literal (List.mem_cons_self ..))).puts
  | emphasis => exact hout.puts
  | strong => exact hout.puts
  | strikethrough => exact hout.puts
  | superscript => exact hout.puts
  | underline => exact hout.puts
  | highlight => exact hout.puts
  | marked mark => exact hout.put (h mark (List.mem_cons_self ..))
  | link url title =>
    have htitle := h title (List.mem_cons_of_mem _ (List.mem_cons_self ..))
    have haddress := (hout.puts (s := "<a href=\"")).put (whole_addressOf html url)
    exact (haddress.put (whole_titleAttribute htitle)).puts
  | image url title =>
    have haddress := (hout.puts (s := "<img src=\"")).put (whole_addressOf html url)
    exact haddress.puts
  | htmlInline literal => exact hout.put (whole_passHtml html (h literal (List.mem_cons_self ..)))
  | raw literal => exact hout.put (h literal (List.mem_cons_self ..))

/-- What stands behind the content of a node has whole placeholders if its strings have. -/
theorem whole_endOf (around : Surroundings) (rows : Nat)
    (h : ∀ s ∈ kind.strings, m.Whole s.toList) (hout : Output.Whole m out) :
    Output.Whole m (endOf around rows kind out) := by
  unfold endOf
  split
  · exact hout.newLine.puts
  · exact hout.puts (by split <;> decide)
  · exact hout.puts
  · split
    · exact hout.puts
    · exact hout
  · split
    · exact hout
    · exact hout.puts
  · exact hout.puts (free_numbered _ (by decide) (by decide))
  · split
    · exact hout.newLine.puts.newLine.puts
    · exact hout.newLine.puts
  · split
    · exact hout.newLine.puts.newLine.puts
    · exact hout.newLine.puts
  · exact hout.puts (by split <;> decide)
  · exact hout.puts
  · exact hout.puts
  · exact hout.puts
  · exact hout.puts
  · exact hout.puts
  · exact hout.puts
  · exact hout.put (h _ (List.mem_cons_self ..))
  · exact hout.puts
  · have htitle := h _ (List.mem_cons_of_mem _ (List.mem_cons_self ..))
    exact (hout.put (whole_titleAttribute htitle)).puts
  · exact hout

theorem whole_plainOf (h : ∀ s ∈ kind.strings, m.Whole s.toList) (hout : Output.Whole m out) :
    Output.Whole m (plainOf kind out) := by
  unfold plainOf
  split
  · exact hout.escaped (h _ (List.mem_cons_self ..))
  · exact hout.escaped (h _ (List.mem_cons_self ..))
  · exact hout.escaped (h _ (List.mem_cons_self ..))
  · exact hout.puts
  · exact hout.puts
  · exact hout

end Kinds

namespace Node

mutual

theorem whole_childText : ∀ n : Node, n.Whole m → m.Whole (childText n).toList
  | ⟨kind, extent, children⟩, .intro hstrings _ hchildren => by
    unfold childText
    split
    · exact hstrings _ (List.mem_cons_self ..)
    · exact hstrings _ (List.mem_cons_self ..)
    · exact .of_free (by decide)
    · exact .of_free (by decide)
    · exact .of_free (by decide)
    · exact whole_plainTexts children hchildren

/-- The plain text of a document has whole placeholders. -/
theorem whole_plainTexts : ∀ ns : List Node, (∀ n ∈ ns, n.Whole m) →
    m.Whole (plainTexts ns).toList
  | [], _ => .of_free (by decide)
  | n :: rest, h => by
    rw [List.forall_mem_cons] at h
    rw [plainTexts, String.toList_append]
    exact (whole_childText n h.1).append (whole_plainTexts rest h.2)

end

mutual

theorem whole_writePlain : ∀ (n : Node) {out : Output}, n.Whole m → Output.Whole m out →
    Output.Whole m (writePlain out n)
  | ⟨_, _, children⟩, _, .intro hstrings _ hchildren, hout =>
    whole_writePlainAll children hchildren (whole_plainOf hstrings hout)

theorem whole_writePlainAll : ∀ (ns : List Node) {out : Output}, (∀ n ∈ ns, n.Whole m) →
    Output.Whole m out → Output.Whole m (writePlainAll out ns)
  | [], _, _, hout => hout
  | n :: rest, _, h, hout => by
    rw [List.forall_mem_cons] at h
    exact whole_writePlainAll rest h.2 (whole_writePlain n h.1 hout)

end

mutual

theorem whole_write (html : Bool) (around : Surroundings) : ∀ (n : Node) {out : Output},
    n.Whole m → Output.Whole m out → Output.Whole m (write html around out n)
  | ⟨kind, extent, children⟩, out, .intro hstrings _ hchildren, hout => by
    have hstart := whole_startOf html around hstrings hout
    rw [write]
    refine whole_endOf around _ hstrings ?_
    split
    · exact whole_writePlainAll children hchildren hstart
    · exact whole_writeAll html _ children hchildren hstart

theorem whole_writeAll (html : Bool) (around : Surroundings) : ∀ (ns : List Node) {out : Output},
    (∀ n ∈ ns, n.Whole m) → Output.Whole m out → Output.Whole m (writeAll html around out ns)
  | [], _, _, hout => hout
  | n :: rest, _, h, hout => by
    rw [List.forall_mem_cons] at h
    exact whole_writeAll html _ rest h.2 (whole_write html around n h.1 hout)

end

/-- The HTML of a document has whole placeholders. -/
theorem whole_toHtml (html : Bool) (around : Surroundings) {n : Node} (h : n.Whole m) :
    m.Whole (n.toHtml html around) :=
  whole_write html around n h (.of_free (by decide))

end Node

end WikiPress.Markdown
