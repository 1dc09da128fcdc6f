import TemplateMarkup.Trace
import TemplateMarkup.Text.WhiteSpace
import TemplateMarkup.Text.AsciiCase
import TemplateMarkup.Text.ScalarRange
import TemplateMarkup.Text.Runs
import TemplateMarkup.Text.CharKind
import TemplateMarkup.Position.Basic
import TemplateMarkup.Position.Transition
import TemplateMarkup.Position.Level
import TemplateMarkup.Dialect.Basic
import TemplateMarkup.Dialect.Traits
import TemplateMarkup.Dialect.RawElement
import TemplateMarkup.Matching.Border
import TemplateMarkup.RawText.Scanner
import TemplateMarkup.Warning.Basic
import TemplateMarkup.Warning.Log
import TemplateMarkup.ElementContext.Basic
import TemplateMarkup.ElementContext.Path
import TemplateMarkup.Operation
import TemplateMarkup.ElementContext.Making
import TemplateMarkup.Warning.KeySet
import TemplateMarkup.Session
import TemplateMarkup.Token
import TemplateMarkup.OpenTag
import TemplateMarkup.Proofs.Matching.Overlap
import TemplateMarkup.Proofs.Matching.Access
import TemplateMarkup.Proofs.RawText.Closing
import TemplateMarkup.Proofs.RawText.Coherence
import TemplateMarkup.Proofs.RawText.Safety
import TemplateMarkup.Proofs.RawText.Observation
import TemplateMarkup.Proofs.Position.Rows
import TemplateMarkup.Proofs.Position.Conservation
import TemplateMarkup.Proofs.Position.Recovery
import TemplateMarkup.Proofs.Token.Segmentation
import TemplateMarkup.Proofs.Token.Language
import TemplateMarkup.Proofs.Token.Grammar
import TemplateMarkup.Proofs.Token.Shape
import TemplateMarkup.Proofs.ElementContext.ClosedForm
import TemplateMarkup.Proofs.ElementContext.Dialects
import TemplateMarkup.Proofs.RawText.ReadAlike
import TemplateMarkup.Proofs.Warning.Deduplication
import TemplateMarkup.Proofs.OpenTag.Walk
import TemplateMarkup.Proofs.Dialect.CloserLookup
import TemplateMarkup.Proofs.RawText.Pending
import TemplateMarkup.Proofs.ElementContext.Failure
import TemplateMarkup.Proofs.Warning.Order
import TemplateMarkup.Proofs.Text.LetterCase
import TemplateMarkup.Proofs.Dialect.Reading
import TemplateMarkup.Proofs.RawText.AnyPattern
