import DeliveryPipeline.FileTree
import DeliveryPipeline.Main
import DeliveryPipeline.Proofs.Cache.History
import DeliveryPipeline.Proofs.Cache.InTurn
import DeliveryPipeline.Proofs.Cache.Leftover
import DeliveryPipeline.Proofs.Cache.Progress
import DeliveryPipeline.Proofs.Cache.Publication
import DeliveryPipeline.Proofs.Cache.Tally
import DeliveryPipeline.Proofs.Classification.Bookkeeping
import DeliveryPipeline.Proofs.Classification.Composition
import DeliveryPipeline.Proofs.Classification.Multiplicity
import DeliveryPipeline.Proofs.Classification.Resolution
import DeliveryPipeline.Proofs.Classification.Union
import DeliveryPipeline.Proofs.Descriptor.WrittenForm
import DeliveryPipeline.Proofs.DescriptorTable.Bindings
import DeliveryPipeline.Proofs.DescriptorTable.Globals
import DeliveryPipeline.Proofs.DescriptorTable.Listing
import DeliveryPipeline.Proofs.DescriptorTable.Order
import DeliveryPipeline.Proofs.DescriptorTable.Sorting
import DeliveryPipeline.Proofs.DescriptorTable.SortingOption
import DeliveryPipeline.Proofs.Digest.Separation
import DeliveryPipeline.Proofs.Extraction.Additions
import DeliveryPipeline.Proofs.Extraction.Binding
import DeliveryPipeline.Proofs.Extraction.Comparison
import DeliveryPipeline.Proofs.Extraction.Entries
import DeliveryPipeline.Proofs.Extraction.Kept
import DeliveryPipeline.Proofs.Extraction.Limit
import DeliveryPipeline.Proofs.Extraction.Origins
import DeliveryPipeline.Proofs.Extraction.Preorder
import DeliveryPipeline.Proofs.Extraction.Runs
import DeliveryPipeline.Proofs.Extraction.SoftFailures
import DeliveryPipeline.Proofs.Factory.Rewording
import DeliveryPipeline.Proofs.Pipeline.Calls
import DeliveryPipeline.Proofs.Pipeline.Completion
import DeliveryPipeline.Proofs.Pipeline.Contract
import DeliveryPipeline.Proofs.Pipeline.Relevance
import DeliveryPipeline.Proofs.Pipeline.Repeats
import DeliveryPipeline.Proofs.Pipeline.SchemaSource
import DeliveryPipeline.Proofs.Pipeline.SoftFailures
import DeliveryPipeline.Proofs.Schema.Categories
import DeliveryPipeline.Proofs.Schema.Openings
import DeliveryPipeline.Proofs.Schema.Rendering
import DeliveryPipeline.Proofs.Selector.Spelling
import DeliveryPipeline.Proofs.Specificity.Ranking
import DeliveryPipeline.Proofs.Store.History
import DeliveryPipeline.Proofs.CommandLine.Plan
