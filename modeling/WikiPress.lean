import WikiPress.Files.Tree
import WikiPress.Json.Printer
import WikiPress.Main
import WikiPress.Proofs.Scan
import WikiPress.Proofs.Mask.Literal
import WikiPress.Proofs.Mask.Placeholder
import WikiPress.Proofs.Wikilink
import WikiPress.Proofs.Mask.Restore
import WikiPress.Proofs.Splice.Piece
import WikiPress.Proofs.Splice.Rules
import WikiPress.Proofs.Mask.Span
import WikiPress.Proofs.Nesting.Basic
import WikiPress.Proofs.Nesting.Document
import WikiPress.Proofs.TokenStream.Texts
import WikiPress.Proofs.Nesting.Links
import WikiPress.Proofs.Markdown.Whole
import WikiPress.Proofs.Text.Blank
import WikiPress.Proofs.TokenStream.Free
import WikiPress.Proofs.TokenStream.Lines
import WikiPress.Proofs.Slug
import WikiPress.Proofs.TokenStream.Verbatim
import WikiPress.Proofs.Toc.Build
import WikiPress.Proofs.Renderer.Markup
import WikiPress.Proofs.Toc.Links
import WikiPress.Proofs.LinkPolicy.Document
import WikiPress.Proofs.LinkPolicy.Base
import WikiPress.Proofs.Json.Record
import WikiPress.Proofs.Config.Json
import WikiPress.Proofs.Renderer.Anchors
import WikiPress.Proofs.Slug.Normal
import WikiPress.Proofs.LinkPolicy.Spelling
import WikiPress.Proofs.Command.Render
import WikiPress.Proofs.LinkPolicy.Again
import WikiPress.Proofs.MissingLink
import WikiPress.Proofs.Markdown.Destination
import WikiPress.Proofs.MissingLink.Target
import WikiPress.Proofs.Mask.Cut
import WikiPress.Proofs.TokenStream.Shown
import WikiPress.Proofs.Splice.Lines
import WikiPress.Proofs.Toc.Marker
import WikiPress.Proofs.Toc.Lines
import WikiPress.Proofs.Declining
import WikiPress.Proofs.Config.Spelling
import WikiPress.Proofs.Splice.Escapes
import WikiPress.Proofs.Mask.Checked
import WikiPress.Proofs.TokenStream.Atx
import WikiPress.Proofs.Html.Scanner
import WikiPress.Proofs.Mask.Html
import WikiPress.Proofs.Command.Settings
import WikiPress.Proofs.Command.Init
import WikiPress.Proofs.Mask.CodeSpan
