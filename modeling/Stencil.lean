import Stencil.Proofs.Cache.Transparency
import Stencil.Proofs.Contexts
import Stencil.Proofs.Encoding.Totality
import Stencil.Proofs.Grammar.Kit.Branching
import Stencil.Proofs.Grammar.Kit.Chains
import Stencil.Proofs.Grammar.Kit.Invocations
import Stencil.Proofs.Grammar.Kit.Locality
import Stencil.Proofs.Grammar.Kit.Sources
import Stencil.Proofs.Grammar.Mustache.Templates
import Stencil.Proofs.Markup.Unescaping
import Stencil.Proofs.Rendering.Escaping
import Stencil.Proofs.Rendering.Flattening
import Stencil.Proofs.Rendering.Inspection
import Stencil.Proofs.Rendering.Isolation
import Stencil.Proofs.Rendering.Items
import Stencil.Proofs.Rendering.LoopVariable
import Stencil.Proofs.Rendering.Nesting
import Stencil.Proofs.Rendering.Recursion
import Stencil.Proofs.Rendering.Timing
import Stencil.Proofs.Rendering.Together
import Stencil.Proofs.Rendering.Total
import Stencil.Proofs.Rendering.Verbatim
import Stencil.Proofs.Tags.SharedNotes
import Stencil.Proofs.Value.Arithmetic
import Stencil.Proofs.Value.Entries
import Stencil.Proofs.Value.Integers
import Stencil.Proofs.Value.Ordering
import Stencil.Proofs.Value.Reach
import Stencil.Proofs.Value.Reading
import Stencil.Snippet
import Stencil.Tags.Probe
