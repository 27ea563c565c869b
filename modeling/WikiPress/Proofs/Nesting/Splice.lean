import WikiPress.Engine
import WikiPress.Proofs.Nesting.Basic
import WikiPress.Proofs.Splice.Tokens

/-!
# Rules among inline tokens keep them nested

Plain tokens open and close nothing, so a run of them can be replaced by any nested list.  What the
rules leave of a run is plain again, and the tokens that they emit are nested by themselves.

## Main results

* `Run.wellNested_splice` : the tokens of a run after the rules are applied are nested.
* `wellNested_spliceRules` : rules keep a list of tokens nested.
* `wellNested_map_spliceBlock` : rules keep the blocks of a document nested, with their texts.
-/

namespace WikiPress

variable {rules : List Rule} {t : Token} {ts : List Token}

/-! ### Runs -/

namespace Run

variable {r : Run}

/-- Texts are nested by themselves. -/
theorem single_ofText (s : String) :
    (Token.ofText s).nesting = 0 ∧ (Token.ofText s).NestedBelow :=
  ⟨rfl, Token.nestedBelow_of_children_eq_nil rfl⟩

theorem wellNested_spliceFrom {start : Nat} {steps : List Step}
    (h : ∀ piece ∈ r.pieces, piece.token.nesting = 0 ∧ piece.token.NestedBelow)
    (hsteps : ∀ step ∈ steps, ∀ ts, step.outcome = .claimed ts → WellNested ts) :
    WellNested (r.spliceFrom start steps) := by
  have hbetween : ∀ start stop, WellNested (r.between start stop) := fun start stop =>
    wellNested_of_single (forall_mem_between single_ofText h start stop)
  induction steps generalizing start with
  | nil => exact hbetween _ _
  | cons step rest ih =>
    rw [List.forall_mem_cons] at hsteps
    unfold spliceFrom
    split
    · next tokens houtcome =>
      exact ((hbetween _ _).append (hsteps.1 tokens houtcome)).append (ih hsteps.2)
    · exact ih hsteps.2

/-- The tokens of a run after the rules are applied are nested. -/
theorem wellNested_splice (hrules : ∀ r ∈ rules, r.Emits fun _ ts => WellNested ts)
    (h : ∀ piece ∈ r.pieces, piece.token.nesting = 0 ∧ piece.token.NestedBelow) :
    WellNested (r.splice rules) := by
  rw [splice]
  split
  · exact wellNested_spliceFrom h ((scanned_scan r.skip? rules r.place).emits hrules)
  · refine wellNested_of_single fun t ht => ?_
    obtain ⟨piece, hpiece, rfl⟩ := List.mem_map.mp ht
    exact h piece hpiece

end Run

/-! ### Lists of tokens -/

/-- Rules change nothing about what a list of tokens opens and closes, if plain tokens open and close
nothing in it. -/
theorem openAfter?_spliceRules (hrules : ∀ r ∈ rules, r.Emits fun _ ts => WellNested ts)
    {s s' : List Token} (h : openAfter? s ts = some s')
    (hplain : ∀ t ∈ ts, t.kind.isPlain = true → t.nesting = 0) (hbelow : ∀ t ∈ ts, t.NestedBelow) :
    openAfter? s (spliceRules rules ts) = some s' ∧
      ∀ t ∈ spliceRules rules ts, t.NestedBelow := by
  refine spliceRules_induction (motive := fun _ ts out => ∀ s, openAfter? s ts = some s' →
    (∀ t ∈ ts, t.kind.isPlain = true → t.nesting = 0) → (∀ t ∈ ts, t.NestedBelow) →
      openAfter? s out = some s' ∧ ∀ t ∈ out, t.NestedBelow)
    ?nil ?other ?run ts s h hplain hbelow
  case nil => exact fun _ s h _ _ => ⟨h, by simp⟩
  case other =>
    intro _ t rest out _ ih s h hplain hbelow
    rw [openAfter?_cons, Option.bind_eq_some_iff] at h
    obtain ⟨s₁, hs₁, hrest⟩ := h
    rw [List.forall_mem_cons] at hplain hbelow ⊢
    obtain ⟨hopen, hrest⟩ := ih s₁ hrest hplain.2 hbelow.2
    rw [openAfter?_cons, hs₁, Option.bind_some]
    exact ⟨hopen, hbelow.1, hrest⟩
  case run =>
    intro atStart run rest out _ hrun _ ih s h hplain hbelow
    rw [List.forall_mem_append] at hplain hbelow ⊢
    have hsingle : ∀ t ∈ run, t.nesting = 0 := fun t ht => hplain.1 t ht (hrun t ht)
    have hout : WellNested ((Run.ofTokens atStart rest.isEmpty run).splice rules) := by
      refine Run.wellNested_splice hrules fun piece hpiece => ?_
      have hmem : piece.token ∈ run := Run.token_mem_of_mem_placeFrom hpiece
      exact ⟨hsingle _ hmem, hbelow.1 _ hmem⟩
    rw [openAfter?_append, (nested_of_single hsingle).openAfter?_eq, Option.bind_some] at h
    obtain ⟨hopen, hrest⟩ := ih s h hplain.2 hbelow.2
    rw [openAfter?_append, hout.1.openAfter?_eq, Option.bind_some]
    exact ⟨hopen, hout.2, hrest⟩

/-- Rules that emit nested lists keep a list of tokens nested. -/
theorem wellNested_spliceRules (hrules : ∀ r ∈ rules, r.Emits fun _ ts => WellNested ts)
    (h : WellNested ts) : WellNested (spliceRules rules ts) :=
  openAfter?_spliceRules hrules h.1
    (fun _ ht hplain => h.1.nesting_eq_zero ht (TokenKind.unpaired_of_isPlain hplain)) h.2

/-! ### Blocks -/

theorem openAfter?_spliceBlock (ht : t.kind = .inline → t.nesting = 0) {s s' : List Token}
    (h : t.openAfter? s = some s') : (Engine.spliceBlock rules t).openAfter? s = some s' := by
  unfold Engine.spliceBlock
  split
  · next hkind =>
    -- The token of a text opens nothing, whatever its children are.
    have hzero : ({ t with children := spliceRules rules t.children } : Token).nesting = 0 := ht hkind
    rw [Token.openAfter?_of_single (ht hkind)] at h
    exact (Token.openAfter?_of_single hzero s).trans h
  · exact h

theorem nestedBelow_spliceBlock (hrules : ∀ r ∈ rules, r.Emits fun _ ts => WellNested ts)
    (h : t.NestedBelow) : (Engine.spliceBlock rules t).NestedBelow := by
  unfold Engine.spliceBlock
  split
  · next hkind =>
    cases h with
    | intro hnested hbelow =>
      exact WellNested.nestedBelow
        (wellNested_spliceRules hrules ⟨hnested (Or.inl hkind), hbelow⟩)
  · exact h

theorem openAfter?_map_spliceBlock (htexts : ∀ t ∈ ts, t.kind = .inline → t.nesting = 0)
    {s s' : List Token} (h : openAfter? s ts = some s') :
    openAfter? s (ts.map (Engine.spliceBlock rules)) = some s' := by
  induction ts generalizing s with
  | nil => exact h
  | cons t ts ih =>
    rw [List.forall_mem_cons] at htexts
    rw [openAfter?_cons, Option.bind_eq_some_iff] at h
    obtain ⟨s₁, ht, hts⟩ := h
    rw [List.map_cons, openAfter?_cons, openAfter?_spliceBlock htexts.1 ht, Option.bind_some]
    exact ih htexts.2 hts

/-- Rules keep the blocks of a document nested, and with them their texts. -/
theorem wellNested_map_spliceBlock (hrules : ∀ r ∈ rules, r.Emits fun _ ts => WellNested ts)
    (h : WellNested ts) : WellNested (ts.map (Engine.spliceBlock rules)) := by
  have htexts : ∀ t ∈ ts, t.kind = .inline → t.nesting = 0 := fun t ht hkind =>
    h.1.nesting_eq_zero ht (hkind ▸ TokenKind.unpaired_inline)
  refine ⟨openAfter?_map_spliceBlock htexts h.1, fun u hu => ?_⟩
  obtain ⟨t, ht, rfl⟩ := List.mem_map.mp hu
  exact nestedBelow_spliceBlock hrules (h.2 t ht)

end WikiPress
