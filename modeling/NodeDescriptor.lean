import NodeDescriptor.Disk.FileTree
import NodeDescriptor.Main
import NodeDescriptor.Proofs.References
import NodeDescriptor.Proofs.RoundTrip.Model
import NodeDescriptor.Proofs.Attribute.Verdict
import NodeDescriptor.Proofs.Json.DistinctKeys
import NodeDescriptor.Proofs.Entry.Kept
import NodeDescriptor.Proofs.Independence
import NodeDescriptor.Proofs.WellFormed.Attribute
import NodeDescriptor.Proofs.WellFormed.Node
import NodeDescriptor.Proofs.Completeness
import NodeDescriptor.Proofs.FixedPoint.Fields
import NodeDescriptor.Proofs.FixedPoint.Attribute
import NodeDescriptor.Proofs.FixedPoint.Stages
import NodeDescriptor.Proofs.FixedPoint.Node
import NodeDescriptor.Proofs.Entry.Exchange
import NodeDescriptor.Proofs.Acceptance
import NodeDescriptor.Proofs.Alike.Entry
import NodeDescriptor.Proofs.StageOrder
import NodeDescriptor.Proofs.Alike.Tests
import NodeDescriptor.Proofs.Alike.Document
import NodeDescriptor.Proofs.Places.Attribute
import NodeDescriptor.Proofs.Places.Document
import NodeDescriptor.Proofs.Attribute.Result
import NodeDescriptor.Proofs.Expansion.Document
import NodeDescriptor.Proofs.Nesting.Model
import NodeDescriptor.Proofs.Renaming
import NodeDescriptor.Proofs.Attribute.Blocks
import NodeDescriptor.Proofs.Attribute.Location
import NodeDescriptor.Proofs.Attribute.Threading
import NodeDescriptor.Proofs.Attribute.TypeList
import NodeDescriptor.Proofs.Tests.Walk
import NodeDescriptor.Proofs.Scheduling
import NodeDescriptor.Proofs.Repetition
import NodeDescriptor.Proofs.Attribute.ListTypes
import NodeDescriptor.Proofs.Attribute.Alternatives
import NodeDescriptor.Proofs.Matrix
import NodeDescriptor.Proofs.DataType.TrialOrder
import NodeDescriptor.Proofs.Color
import NodeDescriptor.Proofs.MetadataView
import NodeDescriptor.Proofs.Tokens
import NodeDescriptor.Proofs.Batch
import NodeDescriptor.Proofs.RoundTrip.Report
import NodeDescriptor.Proofs.Locations
import NodeDescriptor.Proofs.Collecting
import NodeDescriptor.Proofs.CommaParts
import NodeDescriptor.Proofs.DisplayName
