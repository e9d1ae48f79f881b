import ClusterView.Describe
import ClusterView.CommHandle
import ClusterView.WorldId
import ClusterView.Bytes
import ClusterView.Datatype
import ClusterView.Operation
import ClusterView.Precision
import ClusterView.CommError
import ClusterView.Element
import ClusterView.ViewError
import ClusterView.Registry
import ClusterView.Reduction
import ClusterView.Config
import ClusterView.Engine
import ClusterView.Fabric
import ClusterView.Json.Value
import ClusterView.ResourceSet
import ClusterView.LineBuffer
import ClusterView.Location
import ClusterView.Logger
import ClusterView.Desk
import ClusterView.Main
import ClusterView.Proofs.Hall
import ClusterView.Proofs.Agenda
import ClusterView.Proofs.Assertions
import ClusterView.Proofs.Attachment
import ClusterView.Proofs.Groups
import ClusterView.Proofs.Variables
import ClusterView.Proofs.Teardown
import ClusterView.Proofs.Codec
import ClusterView.Proofs.Dispatch
import ClusterView.Proofs.Folds
import ClusterView.Proofs.TypedReduction
import ClusterView.Proofs.Conduct
import ClusterView.Proofs.Waiting
import ClusterView.Proofs.Starters
import ClusterView.Proofs.Interference
import ClusterView.Proofs.Demonstration
import ClusterView.Proofs.Integers
import ClusterView.Proofs.Regrouping
import ClusterView.Proofs.Lives
import ClusterView.Proofs.Routines
import ClusterView.Proofs.Pairing
import ClusterView.Proofs.Determinacy
import ClusterView.Proofs.Refusals
import ClusterView.Proofs.Registration
import ClusterView.Proofs.MixedRounds
import ClusterView.Proofs.Precheck
import ClusterView.Proofs.GroupViews
import ClusterView.Proofs.Layouts
import ClusterView.Proofs.Sameness
import ClusterView.Proofs.Instances
import ClusterView.Proofs.Printing
import ClusterView.Proofs.Configurations
import ClusterView.Proofs.Commands
import ClusterView.Proofs.Routing
