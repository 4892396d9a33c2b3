import SaveSet.Main
import SaveSet.Output.Faulty
import SaveSet.Proofs.Content.Reassembly
import SaveSet.Proofs.SmartMode
import SaveSet.Proofs.Selection
import SaveSet.Proofs.Completeness
import SaveSet.Proofs.Walk.Regions
import SaveSet.Proofs.Damage
import SaveSet.Proofs.Output.Journal
import SaveSet.Proofs.Walk.Holding
import SaveSet.Proofs.Handles
import SaveSet.Proofs.ReliableSink
import SaveSet.Proofs.Walk.Defects
import SaveSet.Proofs.Reports
import SaveSet.Proofs.InRange.Headers
import SaveSet.Proofs.Listing
import SaveSet.Proofs.InRange.Blocks
import SaveSet.Proofs.InRange.Content
import SaveSet.Proofs.InRange.Layouts
import SaveSet.Proofs.InRange.Extents
import SaveSet.Proofs.Framing
import SaveSet.Proofs.Walk.Cuts
import SaveSet.Proofs.Walk.InStep
import SaveSet.Proofs.Faults
import SaveSet.Proofs.Reading
import SaveSet.Proofs.Content.Lines
import SaveSet.Proofs.Content.FileEnd
import SaveSet.Proofs.Content.Verdict
import SaveSet.Proofs.Content.Unframed
import SaveSet.Proofs.Content.Carries
import SaveSet.Proofs.Container.Chains
import SaveSet.Proofs.Walk.Progress
import SaveSet.Proofs.Output.Specifications
import SaveSet.Proofs.Csv.Lines
import SaveSet.Proofs.Text.Selectors
import SaveSet.Proofs.Text.Wildcards
import SaveSet.Proofs.Time.Moments
