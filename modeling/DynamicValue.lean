import DynamicValue.Proofs.Broadcast.Pathwise
import DynamicValue.Proofs.Equality.Congruence
import DynamicValue.Proofs.Items.Array
import DynamicValue.Proofs.Items.LastWrite
import DynamicValue.Proofs.Items.Machine
import DynamicValue.Proofs.Items.Membership
import DynamicValue.Proofs.Items.Overlay
import DynamicValue.Proofs.Items.Refusal
import DynamicValue.Proofs.Log.Report
import DynamicValue.Proofs.Order.Rank
import DynamicValue.Proofs.Text.Layout
import DynamicValue.Proofs.Items.Removal
import DynamicValue.Proofs.Text.Repetition
import DynamicValue.Proofs.Broadcast.Expansion
import DynamicValue.Proofs.Broadcast.Segment
import DynamicValue.Proofs.Items.Slice
import DynamicValue.Proofs.Text.Removal
import DynamicValue.Proofs.Text.Bytes
import DynamicValue.Proofs.Number.Rendering
import DynamicValue.Proofs.Text.Outline
import DynamicValue.Proofs.Number.Conversion
