import DeviceDescription.Main
import DeviceDescription.Text.Trim
import DeviceDescription.Proofs.Utf8
import DeviceDescription.Proofs.Load
import DeviceDescription.Proofs.Splice
import DeviceDescription.Proofs.Reach
import DeviceDescription.Proofs.Cycle
import DeviceDescription.Proofs.Collect
import DeviceDescription.Proofs.OpenBlock
import DeviceDescription.Proofs.Layout
import DeviceDescription.Proofs.WrittenLine
import DeviceDescription.Proofs.History
import DeviceDescription.Proofs.FirstFault
import DeviceDescription.Proofs.Unlocated
import DeviceDescription.Proofs.Checked
import DeviceDescription.Proofs.Alternation
import DeviceDescription.Proofs.Reports
import DeviceDescription.Proofs.Trace
import DeviceDescription.Proofs.Hiding
import DeviceDescription.Proofs.Alike
import DeviceDescription.Proofs.SameTokens
import DeviceDescription.Proofs.Lines
import DeviceDescription.Proofs.Flattening
import DeviceDescription.Proofs.Columns
import DeviceDescription.Proofs.Redirection
import DeviceDescription.Proofs.Reload
import DeviceDescription.Proofs.Tool
import DeviceDescription.Proofs.Silence
import DeviceDescription.Proofs.WalkOutput
import DeviceDescription.Proofs.DepthLimit
import DeviceDescription.Proofs.Subcommands
import DeviceDescription.Proofs.Nesting
import DeviceDescription.Proofs.LineEnds
import DeviceDescription.Proofs.Decoding
import DeviceDescription.Proofs.Concatenation
import DeviceDescription.Proofs.Exhaustion
import DeviceDescription.Proofs.JsonPrinter
import DeviceDescription.Proofs.Fields
import DeviceDescription.Proofs.DocumentRecord
import DeviceDescription.Proofs.Writing
import DeviceDescription.Proofs.SettingsFile
import DeviceDescription.Proofs.Fragments
import DeviceDescription.Proofs.LineBytes
import DeviceDescription.Proofs.Trimming
