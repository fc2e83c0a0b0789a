import TypedEntities.Main
import TypedEntities.Proofs.Java.Constant
import TypedEntities.Proofs.Java.Distinct
import TypedEntities.Proofs.Enumeration.Lists
import TypedEntities.Proofs.Generation.Run
import TypedEntities.Proofs.Outcome
import TypedEntities.Proofs.Reference
import TypedEntities.Proofs.Overload
import TypedEntities.Proofs.Source.Model
import TypedEntities.Proofs.Catalog
import TypedEntities.Proofs.Enumeration.Phases
import TypedEntities.Proofs.Generation.References
import TypedEntities.Proofs.Source.Order
import TypedEntities.Proofs.Generation.Order
import TypedEntities.Proofs.Java.TypeExpr
import TypedEntities.Proofs.Source.Constructors
import TypedEntities.Proofs.Assignment
import TypedEntities.Proofs.CommandLine.Scan
import TypedEntities.Proofs.Settings.Draft
import TypedEntities.Proofs.CommandLine.Layers
import TypedEntities.Proofs.Generation.Deed
import TypedEntities.Proofs.Generation.Plan
import TypedEntities.Proofs.Generation.Protocol
import TypedEntities.Proofs.Generation.Account
import TypedEntities.Proofs.Files.Path
import TypedEntities.Proofs.Source.Place
import TypedEntities.Proofs.Generation.Places
import TypedEntities.Proofs.Files.Memory
import TypedEntities.Proofs.Generation.Collisions
import TypedEntities.Proofs.Template.Shape
import TypedEntities.Proofs.Source.Rendering
import TypedEntities.Proofs.Template.Trace
import TypedEntities.Proofs.Template.Comment
import TypedEntities.Proofs.Source.Comments
import TypedEntities.Proofs.Java.Member
import TypedEntities.Proofs.Source.Members
import TypedEntities.Proofs.Source.Interface
import TypedEntities.Proofs.Remote.Paging
import TypedEntities.Proofs.Json.Parser
import TypedEntities.Proofs.Json.Decode
import TypedEntities.Proofs.Metadata.Codec
import TypedEntities.Proofs.Source.Needs
import TypedEntities.Proofs.Generation.Steady
import TypedEntities.Proofs.Generation.Ignored
import TypedEntities.Proofs.Filter
import TypedEntities.Proofs.Settings.Merge
import TypedEntities.Proofs.Remote.Session
import TypedEntities.Proofs.Traversal
import TypedEntities.Proofs.Resolution
import TypedEntities.Proofs.Source.Faults
import TypedEntities.Proofs.Json.Members
import TypedEntities.Proofs.Metadata.Additions
import TypedEntities.Proofs.Java.Numbering
import TypedEntities.Proofs.Java.Literal
import TypedEntities.Proofs.Enumeration.Grouping
import TypedEntities.Proofs.Java.Selection
import TypedEntities.Proofs.Source.EntityList
import TypedEntities.Proofs.Java.NormalForm
import TypedEntities.Proofs.Java.LegalName
import TypedEntities.Proofs.Files.Sibling
import TypedEntities.Proofs.Files.Directories
import TypedEntities.Proofs.Files.Replace
import TypedEntities.Proofs.Files.Write
import TypedEntities.Proofs.Template.Lines
import TypedEntities.Proofs.Source.Enumeration
import TypedEntities.Proofs.Source.ListReading
import TypedEntities.Proofs.Subtypes
