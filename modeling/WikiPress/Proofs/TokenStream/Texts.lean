import Mathlib.Data.List.Forall2
import WikiPress.TokenStream.Basic

/-!
# The texts of a document

Texts stand in paragraphs, in headings and in the cells of tables.  Among the tokens of a document
each of them is one token, in the order of the tree, with the tokens of its nodes below it.  No
other token at the level of blocks is of that kind.

## Main definitions

* `Node.texts` : the nodes of each of the texts of a tree.
* `TokenStream.Origin.IsTextOf` : a token with the tokens of some nodes below it.

## Main results

* `TokenStream.Origin.forall₂_texts` : the texts among the tokens of a tree are those of the tree.
-/

namespace WikiPress

open Markdown

namespace Markdown.Node

mutual

/-- The nodes of the texts among the blocks of a node, in order. -/
def texts : Node → List (List Node)
  | ⟨kind, _, children⟩ =>
    match kind with
    | .document => textsAll children
    | .blockQuote => textsAll children
    | .list _ => textsAll children
    | .item _ => textsAll children
    | .paragraph => [children]
    | .heading _ _ => [children]
    | .table _ => children.flatMap fun row => row.children.map Node.children
    | _ => []

/-- The nodes of the texts among the blocks of a list of nodes, in order. -/
def textsAll : List Node → List (List Node)
  | [] => []
  | n :: rest => texts n ++ textsAll rest

end

end Markdown.Node

namespace TokenStream.Origin

open Node

variable {o : Origin}

/-- The token has the tokens of the given nodes below it. -/
def IsTextOf (o : Origin) (t : Token) (ns : List Node) : Prop :=
  ∃ around, t.children = o.inlineTokensAll around ns

/-! ### Tags and tables -/

section Tags

variable {opening closing : Token} {ts : List Token} {around : Surroundings} {extent : Extent}

/-- The tags of blocks are no texts. -/
theorem filter_wrap (hopening : (opening.kind == .inline) = false)
    (hclosing : (closing.kind == .inline) = false) :
    (opening :: (ts ++ [closing])).filter (·.kind == .inline) = ts.filter (·.kind == .inline) := by
  simp [hopening, hclosing]

theorem filter_listTokens (style : ListStyle) (inner : List Token) :
    (listTokens style extent inner).filter (·.kind == .inline) =
      inner.filter (·.kind == .inline) := by
  unfold listTokens
  split
  · exact filter_wrap rfl rfl
  · exact filter_wrap rfl rfl

theorem forall₂_cellTexts (around : Surroundings) (header : Bool)
    (alignments : List Markdown.Alignment) (cells : List Node) :
    List.Forall₂ o.IsTextOf
      ((o.cellsTokens around header alignments cells).filter (·.kind == .inline))
      (cells.map Node.children) := by
  induction cells generalizing alignments with
  | nil => exact .nil
  | cons cell rest ih =>
    have hcell : (o.cellTokens around header (alignments.headD .unset) cell).filter
        (·.kind == .inline) =
      [o.textToken around cell.kind cell.extent (o.plainContent cell.children) cell.children] := by
      cases header <;> rfl
    rw [cellsTokens, List.filter_append, hcell]
    exact .cons ⟨_, rfl⟩ (ih _)

theorem forall₂_rowTexts (alignments : List Markdown.Alignment) (inBody : Bool)
    (rows : List Node) :
    List.Forall₂ o.IsTextOf
      ((o.rowsTokens around alignments inBody rows).filter (·.kind == .inline))
      (rows.flatMap fun row => row.children.map Node.children) := by
  induction rows generalizing inBody with
  | nil => cases inBody <;> exact .nil
  | cons row rest ih =>
    have hrow : (o.rowTokens around alignments row).filter (·.kind == .inline) =
        (o.cellsTokens ⟨row.kind :: around.above, []⟩ (isHeader row) alignments
          row.children).filter (·.kind == .inline) := filter_wrap rfl rfl
    have hcells := forall₂_cellTexts (o := o) ⟨row.kind :: around.above, []⟩ (isHeader row)
      alignments row.children
    rw [List.flatMap_cons, rowsTokens]
    split
    · rw [List.filter_append, wrapBlock, filter_wrap rfl rfl, hrow]
      exact List.rel_append hcells (ih inBody)
    · have hopen : (if inBody then [] else [openBlock .tbodyOpen "tbody" "" row.extent]).filter
          (·.kind == .inline) = [] := by cases inBody <;> rfl
      rw [List.filter_append, List.filter_append, hopen, List.nil_append, hrow]
      exact List.rel_append hcells (ih true)

end Tags

/-! ### All blocks -/

mutual

/-- The texts among the tokens of a node are the texts of the node. -/
theorem forall₂_texts (around : Surroundings) (tight : Bool) : ∀ n : Node,
    List.Forall₂ o.IsTextOf ((o.blockTokens around tight n).filter (·.kind == .inline)) n.texts
  | ⟨kind, extent, children⟩ => by
    have hinner := fun tight => forall₂_textsAll ⟨kind :: around.above, []⟩ tight children
    cases kind with
    | document => exact hinner false
    | blockQuote =>
      rw [blockTokens, wrapBlock, filter_wrap rfl rfl]
      exact hinner false
    | list style =>
      rw [blockTokens, filter_listTokens]
      exact hinner style.tight
    | item =>
      rw [blockTokens, wrapBlock, filter_wrap rfl rfl]
      exact hinner tight
    | paragraph => exact .cons ⟨_, rfl⟩ .nil
    | heading => exact .cons ⟨_, rfl⟩ .nil
    | table alignments =>
      rw [blockTokens, wrapBlock, filter_wrap rfl rfl]
      exact forall₂_rowTexts alignments false children
    | codeBlock fenced => cases fenced <;> exact .nil
    | _ => exact .nil

/-- The texts among the tokens of a list of nodes are the texts of the nodes. -/
theorem forall₂_textsAll (around : Surroundings) (tight : Bool) : ∀ ns : List Node,
    List.Forall₂ o.IsTextOf ((o.blockTokensAll around tight ns).filter (·.kind == .inline))
      (textsAll ns)
  | [] => .nil
  | n :: rest => by
    rw [blockTokensAll, List.filter_append]
    exact List.rel_append (forall₂_texts around tight n) (forall₂_textsAll _ tight rest)

end

end TokenStream.Origin

end WikiPress
