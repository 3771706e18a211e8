import DocMapper.Digest.Sha256
import DocMapper.Failure
import DocMapper.Fault
import DocMapper.Http.Exchange
import DocMapper.Http.Operations
import DocMapper.Http.Url
import DocMapper.Json.Basic
import DocMapper.Json.Reader
import DocMapper.Json.Writer
import DocMapper.Logging.Line
import DocMapper.Logging.Record
import DocMapper.Number.Digits
import DocMapper.Number.Double
import DocMapper.Number.Shortest
import DocMapper.Number.Written
import DocMapper.Query.Compile
import DocMapper.Query.Filter
import DocMapper.Query.Options
import DocMapper.Query.Refusal
import DocMapper.Record.Codec
import DocMapper.Record.Project
import DocMapper.Record.Validate
import DocMapper.Repository.Read
import DocMapper.Repository.Session
import DocMapper.Repository.Write
import DocMapper.Schema.Declaration
import DocMapper.Schema.DesignDocument
import DocMapper.Schema.Entity
import DocMapper.Schema.File
import DocMapper.Schema.Load
import DocMapper.Schema.Registry
import DocMapper.Settings.Basic
import DocMapper.Settings.Source
import DocMapper.Store.BatchItem
import DocMapper.Store.Database
import DocMapper.Store.Memory
import DocMapper.Store.Revision
import DocMapper.Store.View
import DocMapper.Text.Base64
import DocMapper.Text.Blank
import DocMapper.Text.LowerCase
import DocMapper.Text.Percent
import DocMapper.Text.Printable
import DocMapper.Text.Quoted
import DocMapper.Text.Similar
import DocMapper.Text.Utf8
import DocMapper.Value.Access
import DocMapper.Value.Basic
import DocMapper.Value.Collation
import DocMapper.Value.Display
import DocMapper.Value.Equality
import DocMapper.Value.Keyed
import DocMapper.Value.Order
import DocMapper.Write.Delete
import DocMapper.Write.Insert
import DocMapper.Write.Update
import DocMapper.Yaml.Block
import DocMapper.Yaml.Flow
import DocMapper.Yaml.Scalar
import DocMapper.Proofs.Value.Json
import DocMapper.Proofs.Query.Shape
import DocMapper.Proofs.Query.Conjuncts
import DocMapper.Proofs.Query.Compile
import DocMapper.Proofs.Store.Database
import DocMapper.Proofs.Store.Revision
import DocMapper.Proofs.Store.Memory
import DocMapper.Proofs.Store.Journal
import DocMapper.Proofs.Write.Steps
import DocMapper.Proofs.Store.Accepted
import DocMapper.Proofs.Store.Filing
import DocMapper.Proofs.Write.Inserted
import DocMapper.Proofs.Write.Interleaving
import DocMapper.Proofs.Store.Rows
import DocMapper.Proofs.Value.Place
import DocMapper.Proofs.Query.Answers
import DocMapper.Proofs.Repository.Read
import DocMapper.Proofs.Query.ClosedRange
import DocMapper.Proofs.Write.Batch
import DocMapper.Proofs.Store.Touched
import DocMapper.Proofs.Write.Raised
import DocMapper.Proofs.Record.RoundTrip
import DocMapper.Proofs.Query.References
import DocMapper.Proofs.Repository.Rejected
import DocMapper.Proofs.Repository.Mutations
import DocMapper.Proofs.Repository.PointRead
import DocMapper.Proofs.Schema.Registry
import DocMapper.Proofs.Store.Requests
import DocMapper.Proofs.Repository.Isolation
import DocMapper.Proofs.Number.Rounding
import DocMapper.Proofs.Number.Shortest
import DocMapper.Proofs.Json.Numbers
import DocMapper.Proofs.Json.RoundTrip
import DocMapper.Proofs.Schema.Fingerprint
import DocMapper.Proofs.Value.Fields
import DocMapper.Proofs.Query.Spellings
import DocMapper.Proofs.Write.Stored
import DocMapper.Proofs.Write.Outcomes
import DocMapper.Proofs.Repository.RangeRead
import DocMapper.Proofs.Value.Parts
import DocMapper.Proofs.Value.ViewOrder
import DocMapper.Proofs.Value.KeyTexts
import DocMapper.Proofs.Record.Encoding
import DocMapper.Proofs.Record.KeptKeys
import DocMapper.Proofs.Schema.Names
import DocMapper.Proofs.Record.Guarded
import DocMapper.Proofs.Record.Suggestions
import DocMapper.Proofs.Record.Agreement
import DocMapper.Proofs.Schema.Normal
import DocMapper.Proofs.Schema.File
import DocMapper.Proofs.Schema.Form
import DocMapper.Proofs.Schema.Load
import DocMapper.Proofs.Text.Percent
import DocMapper.Proofs.Http.Paths
import DocMapper.Proofs.Http.Failures
import DocMapper.Proofs.Value.ReadBack
import DocMapper.Proofs.Query.Options
import DocMapper.Proofs.Http.ViewRequests
import DocMapper.Proofs.Schema.DesignDocument
import DocMapper.Proofs.Repository.Designs
import DocMapper.Proofs.Repository.SyncedDesigns
import DocMapper.Proofs.Record.Projection
import DocMapper.Proofs.Http.Identifiers
import DocMapper.Proofs.Http.Login
import DocMapper.Proofs.Schema.ReadBack
import DocMapper.Proofs.Settings.Passwords
