import ApiDoc.Main
import ApiDoc.Form.Inventory
import ApiDoc.Proofs.FreshName
import ApiDoc.Proofs.Arena
import ApiDoc.Proofs.Inference.Logic
import ApiDoc.Proofs.Inference.Link
import ApiDoc.Proofs.TypeText
import ApiDoc.Proofs.Inference.Outcome
import ApiDoc.Proofs.Inference.Handles
import ApiDoc.Proofs.Inference.Replay
import ApiDoc.Proofs.Inference.WellNamed
import ApiDoc.Proofs.Inference.Order
import ApiDoc.Proofs.Assembly.Slots
import ApiDoc.Proofs.Assembly.Frame
import ApiDoc.Proofs.Assembly.Handlers
import ApiDoc.Proofs.Assembly.OperationIds
import ApiDoc.Proofs.Document.References
import ApiDoc.Proofs.Inference.References
import ApiDoc.Proofs.Node.References
import ApiDoc.Proofs.Assembly.References
import ApiDoc.Proofs.Assembly.Build
import ApiDoc.Proofs.Document.Subschemas
import ApiDoc.Proofs.Inference.Terms
import ApiDoc.Proofs.Inference.Siblings
import ApiDoc.Proofs.Inference.Depth
import ApiDoc.Proofs.Inference.Termination
import ApiDoc.Proofs.Inference.Later
import ApiDoc.Proofs.Inference.Failed
import ApiDoc.Proofs.Inference.Absent
import ApiDoc.Proofs.Document.Nodes
import ApiDoc.Proofs.Pruning.Walk
import ApiDoc.Proofs.Pruning.Survivors
import ApiDoc.Proofs.Pruning.Liveness
import ApiDoc.Proofs.Pruning.Dangling
import ApiDoc.Proofs.Pruning.FixedPoint
import ApiDoc.Proofs.Pruning.Requirements
import ApiDoc.Proofs.Pruning.Forgetting
import ApiDoc.Proofs.Document.Contents
import ApiDoc.Proofs.Document.Levels
import ApiDoc.Proofs.Document.Written
import ApiDoc.Proofs.Document.Thinner
import ApiDoc.Proofs.Pruning.Thinning
import ApiDoc.Proofs.Pruning.Recording
import ApiDoc.Proofs.Assembly.Runs
import ApiDoc.Proofs.Assembly.Retained
import ApiDoc.Proofs.Assembly.Failed
import ApiDoc.Proofs.Assembly.Hidden
import ApiDoc.Proofs.Json.Values
import ApiDoc.Proofs.Record
import ApiDoc.Proofs.Json.ReadBack
import ApiDoc.Proofs.Form.Schema
import ApiDoc.Proofs.Form.Content
import ApiDoc.Proofs.Form.Document
import ApiDoc.Proofs.Form.RoundTrip
import ApiDoc.Proofs.Survey.Files
import ApiDoc.Proofs.Inference.Declaring
import ApiDoc.Proofs.Inference.Demands
import ApiDoc.Proofs.Inference.Instances
import ApiDoc.Proofs.Inference.Monomorphic
import ApiDoc.Proofs.Inference.Splicing
import ApiDoc.Proofs.Inference.Stored
import ApiDoc.Proofs.Inference.Required
import ApiDoc.Proofs.Inference.Pointers
import ApiDoc.Proofs.Assembly.Sources
import ApiDoc.Proofs.Assembly.Parameters
import ApiDoc.Proofs.Assembly.Overlaid
import ApiDoc.Proofs.Assembly.Settled
import ApiDoc.Proofs.Assembly.Expansion
import ApiDoc.Proofs.Assembly.BodyArgument
import ApiDoc.Proofs.Assembly.Responses
import ApiDoc.Proofs.CanonicalPath
import ApiDoc.Proofs.Assembly.Attaching
import ApiDoc.Proofs.Assembly.CallbackResponses
import ApiDoc.Proofs.LetterCase
import ApiDoc.Proofs.Renaming.WireNames
import ApiDoc.Proofs.VariableNames
import ApiDoc.Proofs.Assembly.Synthesis
import ApiDoc.Proofs.Assembly.Tags
import ApiDoc.Proofs.Pruning.Stateful
import ApiDoc.Proofs.Assembly.Designations
import ApiDoc.Proofs.Inference.LeastNames
