import ShaderPipeline.Compiler.Rules
import ShaderPipeline.Foreign.Session
import ShaderPipeline.Shader.Record
import ShaderPipeline.Proofs.Distinct
import ShaderPipeline.Proofs.Shader.Collation
import ShaderPipeline.Proofs.Shader.Constants
import ShaderPipeline.Proofs.Shader.FoldOrder
import ShaderPipeline.Proofs.Catalog.Lookup
import ShaderPipeline.Proofs.Reflection.Slots
import ShaderPipeline.Proofs.Catalog.Acceptance
import ShaderPipeline.Proofs.Catalog.Resolution
import ShaderPipeline.Proofs.Source.Uses
import ShaderPipeline.Proofs.Source.Blocks
import ShaderPipeline.Proofs.Cache.Entries
import ShaderPipeline.Proofs.Cache.Chronology
import ShaderPipeline.Proofs.Cache.WellFormed
import ShaderPipeline.Proofs.Source.Provenance
import ShaderPipeline.Proofs.Source.Agreement
import ShaderPipeline.Proofs.Source.Markers
import ShaderPipeline.Proofs.Shader.Acceptance
import ShaderPipeline.Proofs.Shader.Kinds
import ShaderPipeline.Proofs.Shader.PushLayout
import ShaderPipeline.Proofs.Source.Reading
import ShaderPipeline.Proofs.Pack.StoredBinaries
import ShaderPipeline.Proofs.Pack.StageOutcome
import ShaderPipeline.Proofs.Source.Remains
import ShaderPipeline.Proofs.Pack.Processing
import ShaderPipeline.Proofs.Pack.Caching
import ShaderPipeline.Proofs.Pack.StageStep
import ShaderPipeline.Proofs.Source.Edits
import ShaderPipeline.Proofs.Pack.SharedRuns
import ShaderPipeline.Proofs.Pack.Settlement
import ShaderPipeline.Proofs.Pack.RunsApart
import ShaderPipeline.Proofs.Pack.Concurrent
import ShaderPipeline.Proofs.Shader.SpecRecords
import ShaderPipeline.Proofs.Foreign.Copying
import ShaderPipeline.Proofs.Foreign.Queries
import ShaderPipeline.Proofs.Foreign.Retrying
import ShaderPipeline.Proofs.Foreign.AttributeRecords
import ShaderPipeline.Proofs.Files.Directories
import ShaderPipeline.Proofs.Store.Reopening
import ShaderPipeline.Proofs.Store.Sessions
import ShaderPipeline.Proofs.Source.Grammar
import ShaderPipeline.Proofs.Source.Passes
import ShaderPipeline.Proofs.Source.Versions
import ShaderPipeline.Proofs.Source.Unfolding
import ShaderPipeline.Proofs.Source.LinePlaces
import ShaderPipeline.Proofs.Reflection.Nesting
import ShaderPipeline.Proofs.Reflection.Descriptors
import ShaderPipeline.Proofs.Reflection.Usages
import ShaderPipeline.Proofs.Reflection.Sizes
import ShaderPipeline.Proofs.Reflection.Attributes
import ShaderPipeline.Proofs.Shader.VertexLayout
import ShaderPipeline.Proofs.Reflection.Leaves
import ShaderPipeline.Proofs.Shader.PushExtent
import ShaderPipeline.Proofs.Source.Regions
import ShaderPipeline.Proofs.Source.DefaultInterface
import ShaderPipeline.Proofs.Cache.LateDisassembly
import ShaderPipeline.Proofs.Text.Words
import ShaderPipeline.Proofs.Reflection.QualifiedAccess
import ShaderPipeline.Proofs.Reflection.Traversals
import ShaderPipeline.Proofs.Reflection.ArrayCounts
import ShaderPipeline.Proofs.Reflection.Reordering
import ShaderPipeline.Proofs.Source.Fragments
