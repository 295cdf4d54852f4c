import Odm.Description.Host
import Odm.Description.HostType
import Odm.Description.Operator
import Odm.Description.Query
import Odm.Description.Record
import Odm.Description.Schema
import Odm.Description.Update
import Odm.Document
import Odm.Generation.Entropy
import Odm.Generation.Generator
import Odm.Host.Expr
import Odm.Host.Literal
import Odm.Host.Operator
import Odm.Host.Substitution
import Odm.HostType
import Odm.Naming
import Odm.Proofs.Query.Discriminator
import Odm.Proofs.Query.Equality
import Odm.Proofs.Query.Mapped
import Odm.Proofs.Query.Meaning
import Odm.Proofs.Query.Operated
import Odm.Proofs.Query.Output
import Odm.Proofs.Query.Route
import Odm.Proofs.Query.Rows
import Odm.Proofs.Query.Translation
import Odm.Proofs.Query.Types
import Odm.Proofs.Query.Verification
import Odm.Proofs.Save.Agreement
import Odm.Proofs.Save.AllOrNothing
import Odm.Proofs.Save.Course
import Odm.Proofs.Save.Dispatch
import Odm.Proofs.Save.Generation
import Odm.Proofs.Save.OneTurn
import Odm.Proofs.Save.Outcome
import Odm.Proofs.Save.Preparation
import Odm.Proofs.Save.Rediscovery
import Odm.Proofs.Save.Run
import Odm.Proofs.Save.TokenRace
import Odm.Proofs.Save.Ways
import Odm.Proofs.Schema.Ascent
import Odm.Proofs.Schema.Bases
import Odm.Proofs.Schema.Closed
import Odm.Proofs.Schema.Collections
import Odm.Proofs.Schema.Completion
import Odm.Proofs.Schema.Conventions
import Odm.Proofs.Schema.Elements
import Odm.Proofs.Schema.Embedded
import Odm.Proofs.Schema.Gaps
import Odm.Proofs.Schema.Hierarchy
import Odm.Proofs.Schema.Inheritance
import Odm.Proofs.Schema.Lineage
import Odm.Proofs.Schema.Owners
import Odm.Proofs.Schema.Valid
import Odm.Proofs.Store.Effect
import Odm.Proofs.Success
import Odm.Proofs.Table
import Odm.Proofs.Text.Lowercase
import Odm.Proofs.Update.Alone
import Odm.Proofs.Update.Contents
import Odm.Proofs.Update.Element
import Odm.Proofs.Update.Embedding
import Odm.Proofs.Update.Generated
import Odm.Proofs.Update.Layout
import Odm.Proofs.Update.Placement
import Odm.Proofs.Update.Recorded
import Odm.Proofs.Update.Turn
import Odm.Query.Access
import Odm.Query.Binding
import Odm.Query.BindingSession
import Odm.Query.Error
import Odm.Query.FindPlan
import Odm.Query.Mapping
import Odm.Query.Methods
import Odm.Query.OutputPath
import Odm.Query.Scalar
import Odm.Query.Select
import Odm.Query.Shape
import Odm.Query.ShapedQuery
import Odm.Query.Translator
import Odm.Save.Database
import Odm.Save.Error
import Odm.Save.Root
import Odm.Schema
import Odm.Schema.Catalog
import Odm.Schema.Convention
import Odm.Schema.EntityType
import Odm.Schema.Error
import Odm.Schema.Member
import Odm.Schema.Model
import Odm.Schema.Validation
import Odm.Store.Counts
import Odm.Store.Directive
import Odm.Store.DocumentStore
import Odm.Store.Error
import Odm.Store.Memory
import Odm.Table
import Odm.Text.Blank
import Odm.Text.CaseData
import Odm.Text.Hex
import Odm.Text.Lowercase
import Odm.Update.ChangeSet
import Odm.Update.Composition
import Odm.Update.Entry
import Odm.Update.Error
import Odm.Update.UnitOfWork
import Odm.Update.ValueSource
import Odm.Update.WritePlan
import Odm.Value
import Odm.Value.Text
import Odm.Proofs.Query.Lookup
import Odm.Proofs.Query.Casts
import Odm.Proofs.Query.Coalesce
import Odm.Proofs.Query.Projection
import Odm.Proofs.Query.Calls
import Odm.Proofs.Query.PageOrder
import Odm.Proofs.Query.Offences
import Odm.Proofs.Query.Literals
import Odm.Proofs.Store.Ids
import Odm.Proofs.Update.Edits
import Odm.Proofs.Update.LaidOut
import Odm.Proofs.Save.Roots
import Odm.Proofs.Query.Memory
import Odm.Proofs.Store.Accounts
import Odm.Proofs.Query.Inference
import Odm.Proofs.Update.Sequence
import Odm.Proofs.Save.Draws
import Odm.Proofs.Save.Keys
import Odm.Proofs.Host.Literal
import Odm.Proofs.Host.Parts
import Odm.Proofs.Host.Substitution
