import SchemaComment.Storage.Memory
import SchemaComment.Storage.Directory
import SchemaComment.Main
import SchemaComment.Proofs.Undoing
import SchemaComment.Proofs.Certified
import SchemaComment.Proofs.History
import SchemaComment.Proofs.Indentation
import SchemaComment.Proofs.Changes
import SchemaComment.Proofs.Breaks
import SchemaComment.Proofs.Settling
import SchemaComment.Proofs.Restoring
import SchemaComment.Proofs.Standing
import SchemaComment.Proofs.Toggling
import SchemaComment.Proofs.Locating
import SchemaComment.Proofs.Relocating
import SchemaComment.Proofs.OpenEnd
import SchemaComment.Proofs.OpenBlock
import SchemaComment.Proofs.Successive
import SchemaComment.Proofs.Converted
import SchemaComment.Proofs.Rewriting
import SchemaComment.Proofs.Markers
import SchemaComment.Proofs.Returned
import SchemaComment.Proofs.Exempt
import SchemaComment.Proofs.Directives
import SchemaComment.Proofs.Decoding
