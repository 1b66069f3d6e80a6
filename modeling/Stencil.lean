import Stencil.Evaluator.Expression
import Stencil.Evaluator.Lookup
import Stencil.Layout.Toml
import Stencil.Proofs.DocumentRendering
import Stencil.Proofs.LineGrammar
import Stencil.Proofs.Nesting
import Stencil.Proofs.Origins
import Stencil.Proofs.Skeleton
import Stencil.Proofs.WellFormed
import Stencil.Trace
import Stencil.Proofs.LineScanning
import Stencil.Proofs.Indentation
import Stencil.Proofs.Consistency
import Stencil.Proofs.Outline
import Stencil.Proofs.OutlineAssembly
import Stencil.Proofs.RenderedLevels
import Stencil.Proofs.LineReading
import Stencil.Proofs.UnreadLines
import Stencil.Proofs.Recasting
import Stencil.Proofs.Reindenting
import Stencil.Proofs.JoinedLexemes
import Stencil.Proofs.JoinedPrograms
import Stencil.Proofs.Exhaustion
import Stencil.Proofs.Decoding
import Stencil.Proofs.ByteSources
import Stencil.Proofs.LineDecoding
import Stencil.Proofs.LineEndings
import Stencil.Proofs.Headers
import Stencil.Proofs.HeaderQuoting
import Stencil.Proofs.InstructionOrder
import Stencil.Proofs.Places
import Stencil.Proofs.LineNumbers
import Stencil.Proofs.UnreadText
import Stencil.Proofs.AttributeLists
import Stencil.Proofs.AttributeLayout
import Stencil.Proofs.SealedLists
import Stencil.Proofs.SealingLoop
import Stencil.Proofs.HeaderReading
import Stencil.Proofs.FilterBodies
import Stencil.Proofs.Shortcuts
import Stencil.Proofs.Operations
import Stencil.Proofs.Unreading
import Stencil.Proofs.Peeking
import Stencil.Proofs.TextSources
import Stencil.Proofs.Directives
import Stencil.Proofs.EvaluationFaults
import Stencil.Proofs.Unescaping
import Stencil.Proofs.Interchange
import Stencil.Proofs.LineSlots
import Stencil.Proofs.LiteralText
import Stencil.Proofs.SeparatedHyphens
import Stencil.Proofs.OpenConstructs
