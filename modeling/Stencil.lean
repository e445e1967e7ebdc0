import Stencil.Instruction.Supplied
import Stencil.Main
import Stencil.Proofs.Error.Rendering
import Stencil.Proofs.Segment.Positions
import Stencil.Proofs.Segment.Printing
import Stencil.Proofs.Program.Complete
import Stencil.Proofs.Program.Nesting
import Stencil.Proofs.Program.Returns
import Stencil.Proofs.Program.TemplateLines
import Stencil.Proofs.Tree.Rendering
import Stencil.Proofs.Tree.Literals
import Stencil.Proofs.Word.Markup
import Stencil.Proofs.Remark.Pieces
import Stencil.Proofs.Remark.Rendering
import Stencil.Proofs.Highlight.Directives
import Stencil.Proofs.Program.Bodies
import Stencil.Proofs.Program.Indentation
import Stencil.Proofs.Program.Colon
import Stencil.Proofs.Program.Margin
import Stencil.Proofs.Reach.Rendering
import Stencil.Proofs.Reach.Modes
import Stencil.Proofs.Program.Lenient
import Stencil.Proofs.Program.Construction
import Stencil.Proofs.Program.Partial
import Stencil.Proofs.Segment.Joining
import Stencil.Proofs.Instruction.Origins
import Stencil.Proofs.Escape.Unescape
import Stencil.Proofs.Command.Output
import Stencil.Proofs.Command.Precedence
import Stencil.Proofs.Context.Map
import Stencil.Proofs.Script.Inside
import Stencil.Proofs.Inset.Putting
import Stencil.Proofs.Located.Rendering
