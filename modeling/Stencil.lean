import Stencil.Value.Equality
import Stencil.Value.Data
import Stencil.Config.Json
import Stencil.Config.Yaml
import Stencil.Engine.Define
import Stencil.Engine.Interface
import Stencil.Engine.Instances
import Stencil.Engine.Render
import Stencil.Proofs.Engine.Bodies
import Stencil.Proofs.Engine.Dispatch
import Stencil.Proofs.Engine.History
import Stencil.Proofs.Engine.Isolation
import Stencil.Proofs.Engine.Regions
import Stencil.Proofs.Engine.Termination
import Stencil.Proofs.Engine.Linking
import Stencil.Proofs.Engine.Balance
import Stencil.Proofs.Engine.Assignment
import Stencil.Proofs.Value.Handles
import Stencil.Proofs.Value.Operators
import Stencil.Proofs.Value.Iterators
import Stencil.Proofs.Value.Equality
import Stencil.Proofs.Engine.Handles
import Stencil.Proofs.Engine.Accounting
import Stencil.Proofs.Engine.Truncation
import Stencil.Proofs.Engine.Lint
import Stencil.Proofs.Engine.Unused
import Stencil.Proofs.Engine.Layout
import Stencil.Proofs.Engine.Newline
import Stencil.Proofs.Engine.Depth
import Stencil.Proofs.Engine.Guard
import Stencil.Proofs.Engine.Defaults
import Stencil.Proofs.Engine.Overrides
import Stencil.Proofs.Engine.NullOptions
import Stencil.Proofs.Engine.References
import Stencil.Proofs.Engine.Literals
import Stencil.Proofs.Render.Binding
import Stencil.Proofs.Render.Scoping
import Stencil.Proofs.Render.Mappings
import Stencil.Proofs.Body.Cutting
import Stencil.Proofs.Engine.Singles
import Stencil.Proofs.Render.Leaves
import Stencil.Proofs.Engine.Elision
import Stencil.Proofs.Writer.Lines
import Stencil.Proofs.Writer.Wrapping
import Stencil.Proofs.Writer.LineStart
import Stencil.Proofs.Writer.Shortfall
import Stencil.Proofs.Writer.Unindented
import Stencil.Proofs.Engine.Interfaces
import Stencil.Proofs.Engine.Aggregates
import Stencil.Proofs.Engine.Accumulation
import Stencil.Proofs.Format.Integers
import Stencil.Proofs.Format.Encodings
