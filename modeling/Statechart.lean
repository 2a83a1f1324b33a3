import Statechart.Blueprint.Assembly
import Statechart.Blueprint.Decoder
import Statechart.Dict.Lemmas
import Statechart.History.Timeline
import Statechart.Inspection
import Statechart.Machine.Dump
import Statechart.Machine.Run
import Statechart.Proofs.Adoption
import Statechart.Proofs.Blueprint.Acceptance
import Statechart.Proofs.Blueprint.Compile
import Statechart.Proofs.Blueprint.Finished
import Statechart.Proofs.Blueprint.Layout
import Statechart.Proofs.Blueprint.Links
import Statechart.Proofs.Blueprint.Literals
import Statechart.Proofs.Blueprint.Making
import Statechart.Proofs.Blueprint.Order
import Statechart.Proofs.Blueprint.Placement
import Statechart.Proofs.Blueprint.Resolution
import Statechart.Proofs.Blueprint.Spelling
import Statechart.Proofs.Blueprint.Walk
import Statechart.Proofs.Blueprint.WellFormed
import Statechart.Proofs.Chart.Ancestry
import Statechart.Proofs.Chart.Atomicity
import Statechart.Proofs.Chart.Built
import Statechart.Proofs.Chart.CommonAncestor
import Statechart.Proofs.Chart.Consistency
import Statechart.Proofs.Chart.Growth
import Statechart.Proofs.Chart.Lineage
import Statechart.Proofs.Chart.ParentLinks
import Statechart.Proofs.Chart.ParentWalks
import Statechart.Proofs.Chart.Rejection
import Statechart.Proofs.Chart.Reordered
import Statechart.Proofs.Chart.SelfReference
import Statechart.Proofs.Chart.SingleTree
import Statechart.Proofs.Chart.Splice
import Statechart.Proofs.Chart.StartSubstate
import Statechart.Proofs.Machine.ActivePath
import Statechart.Proofs.Machine.BoundedRun
import Statechart.Proofs.Machine.Callbacks
import Statechart.Proofs.Machine.Causes
import Statechart.Proofs.Machine.ClosedScopes
import Statechart.Proofs.Machine.Delegation
import Statechart.Proofs.Machine.DistinctLiterals
import Statechart.Proofs.Machine.Fatal
import Statechart.Proofs.Machine.Frame
import Statechart.Proofs.Machine.Law
import Statechart.Proofs.Machine.LoopFree
import Statechart.Proofs.Machine.Reach
import Statechart.Proofs.Machine.Renewal
import Statechart.Proofs.Machine.Reordered
import Statechart.Proofs.Machine.ResultChannel
import Statechart.Proofs.Machine.Step
import Statechart.Proofs.Machine.Trace
import Statechart.Proofs.Machine.Untaken
import Statechart.Proofs.Scope.Brackets
import Statechart.Proofs.Scope.ReadThrough
import Statechart.Proofs.ScopeStack
import Statechart.Proofs.State
import Statechart.Proofs.Success
import Statechart.Proofs.Text.Dumps
import Statechart.Proofs.Writes
import Statechart.Transition.Draft
