import DocTemplate.Document.Record
import DocTemplate.Edit.Record
import DocTemplate.Error.Reader
import DocTemplate.Main
import DocTemplate.Marker.Record
import DocTemplate.Section.LayoutRecord
import DocTemplate.Service.Credentials
import DocTemplate.Store.Lock
import DocTemplate.Tool.Call
import DocTemplate.Proofs.Marker.Gaps
import DocTemplate.Proofs.Marker.Tags
import DocTemplate.Proofs.Text.Trim
import DocTemplate.Proofs.Marker.Tokens
import DocTemplate.Proofs.Plan.Placeholders
import DocTemplate.Proofs.Plan.Filling
import DocTemplate.Proofs.Plan.Variables
import DocTemplate.Proofs.Plan.Substitution
import DocTemplate.Proofs.Edit.Geometry
import DocTemplate.Proofs.Edit.Slots
import DocTemplate.Proofs.Plan.TableFill
import DocTemplate.Proofs.Document.Places
import DocTemplate.Proofs.Plan.SectionTables
import DocTemplate.Proofs.Document.Tables
import DocTemplate.Proofs.Program
import DocTemplate.Proofs.Template.Runs
import DocTemplate.Proofs.Template.InsertedTable
import DocTemplate.Proofs.Marker.Blocks
import DocTemplate.Proofs.Marker.Coverage
import DocTemplate.Proofs.Document.Reading
import DocTemplate.Proofs.Document.Passages
import DocTemplate.Proofs.Document.Spans
import DocTemplate.Proofs.Plan.Outcomes
import DocTemplate.Proofs.Plan.Deletions
import DocTemplate.Proofs.Plan.UntouchedBlocks
import DocTemplate.Proofs.Template.Agenda
import DocTemplate.Proofs.Template.Discipline
import DocTemplate.Proofs.Template.StagedPlan
import DocTemplate.Proofs.Template.Outcomes
import DocTemplate.Proofs.Template.Generation
import DocTemplate.Proofs.Loop.Tasks
import DocTemplate.Proofs.Loop.Rights
import DocTemplate.Proofs.Loop.Serialization
import DocTemplate.Proofs.Loop.SharedLocks
import DocTemplate.Proofs.Text.Replacing
import DocTemplate.Proofs.Marker.SectionLiterals
import DocTemplate.Proofs.Plan.SectionSteps
import DocTemplate.Proofs.Plan.ReplacedBlocks
import DocTemplate.Proofs.Edit.CellParagraphs
import DocTemplate.Proofs.Plan.FilledSlots
import DocTemplate.Proofs.Marker.MalformedTags
import DocTemplate.Proofs.Text.AnyCase
import DocTemplate.Proofs.Document.Revisions
import DocTemplate.Proofs.Json.Equality
import DocTemplate.Proofs.Plan.ReadableDocuments
import DocTemplate.Proofs.Document.WellTyped
import DocTemplate.Proofs.Document.TabSearch
import DocTemplate.Proofs.Document.Shapes
import DocTemplate.Proofs.Edit.Nesting
import DocTemplate.Proofs.Section.Layout
import DocTemplate.Proofs.Tool.Retries
import DocTemplate.Proofs.Section.AlignedText
import DocTemplate.Proofs.Section.Preview
import DocTemplate.Proofs.Marker.TemplateFields
import DocTemplate.Proofs.Document.OrderedTables
import DocTemplate.Proofs.Edit.Requests
import DocTemplate.Proofs.Plan.SentBatches
import DocTemplate.Proofs.Json.Grammar
import DocTemplate.Proofs.Json.Reading
import DocTemplate.Proofs.Error.Records
import DocTemplate.Proofs.Error.Causes
