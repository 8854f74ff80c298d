import TaskTree.Arena.Budget
import TaskTree.Bench.Actions
import TaskTree.Outline.Lines
import TaskTree.Proofs.Arena.Settles
import TaskTree.Proofs.Arena.View
import TaskTree.Proofs.Direct.Evaluator
import TaskTree.Proofs.Direct.Shape
import TaskTree.Proofs.Direct.Holds
import TaskTree.Proofs.Arena.Hooks
import TaskTree.Proofs.Direct.Report
import TaskTree.Proofs.Direct.Children
import TaskTree.Proofs.Direct.Update
import TaskTree.Proofs.Direct.Simulation
import TaskTree.Proofs.Direct.Planting
import TaskTree.Proofs.Direct.Stepping
import TaskTree.Proofs.Direct.Lawful
import TaskTree.Proofs.Direct.Renewal
import TaskTree.Proofs.Outline.Whole
import TaskTree.Proofs.Contract
import TaskTree.Proofs.Outline.Collected
import TaskTree.Proofs.Outline.Declared
import TaskTree.Proofs.Outline.Nesting
import TaskTree.Proofs.Outline.Flattening
import TaskTree.Proofs.Outline.Assembly
import TaskTree.Proofs.Outline.Grammar
import TaskTree.Proofs.Outline.Spelling
import TaskTree.Proofs.Outline.Derivation
import TaskTree.Proofs.Arena.Course
import TaskTree.Proofs.Arena.Seats
import TaskTree.Proofs.Arena.Account
import TaskTree.Proofs.Arena.Stack
import TaskTree.Proofs.Arena.History
import TaskTree.Proofs.Arena.Abort
import TaskTree.Proofs.Arena.Delivery
import TaskTree.Proofs.Direct.Chain
import TaskTree.Proofs.Direct.SingleChain
import TaskTree.Proofs.Direct.Leftovers
import TaskTree.Proofs.Arena.Growing
import TaskTree.Proofs.Arena.Pristine
import TaskTree.Proofs.Direct.Anew
import TaskTree.Proofs.Arena.Ranked
import TaskTree.Proofs.Arena.Run
import TaskTree.Proofs.Arena.Tally
import TaskTree.Proofs.Arena.Turns
import TaskTree.Proofs.Direct.Frugal
import TaskTree.Proofs.Number.Layout
import TaskTree.Proofs.Outline.Restoring
import TaskTree.Proofs.Steady
import TaskTree.Proofs.Made
import TaskTree.Proofs.Arena.OneTree
import TaskTree.Proofs.Arena.Layout
import TaskTree.Proofs.Arena.Construction
import TaskTree.Proofs.Arena.Composed
import TaskTree.Proofs.Arena.Reentry
import TaskTree.Proofs.Arena.Changes
import TaskTree.Proofs.Arena.Mirror
import TaskTree.Proofs.Direct.Renumbering
import TaskTree.Proofs.Direct.Duality
import TaskTree.Proofs.Arena.RootStatus
import TaskTree.Proofs.Outline.LineEndings
import TaskTree.Proofs.Outline.Splicing
import TaskTree.Proofs.Outline.Passages
import TaskTree.Proofs.Outline.Unused
import TaskTree.Proofs.Outline.Inlining
import TaskTree.Proofs.Outline.Printing
import TaskTree.Proofs.Outline.Stream
import TaskTree.Proofs.Outline.Unread
import TaskTree.Proofs.Outline.Refusal
import TaskTree.Proofs.Arena.Parts
import TaskTree.Proofs.Arena.Gates
import TaskTree.Proofs.Arena.Hushed
import TaskTree.Proofs.Direct.Visits
import TaskTree.Proofs.Direct.Following
import TaskTree.Proofs.Direct.Waiting
import TaskTree.Proofs.Direct.Repeating
import TaskTree.Proofs.Outline.Pointing
import TaskTree.Proofs.Outline.Encoding
import TaskTree.Proofs.Outline.Comments
import TaskTree.Proofs.Arena.Piecemeal
import TaskTree.Proofs.Outline.Bookkeeping
import TaskTree.Proofs.Arena.Shadow
import TaskTree.Proofs.Arena.Exchange
import TaskTree.Proofs.Number.Counts
import TaskTree.Proofs.Outline.Repeats
import TaskTree.Proofs.Direct.Ending
