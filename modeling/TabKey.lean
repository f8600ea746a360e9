import TabKey.Main
import TabKey.Program.Folder
import TabKey.Proofs.Enclosure.Exact
import TabKey.Proofs.Enclosure.Sound
import TabKey.Proofs.Extent
import TabKey.Proofs.Indentation
import TabKey.Proofs.Insertion
import TabKey.Proofs.Order
import TabKey.Proofs.Growth
import TabKey.Proofs.Enclosure.Local
import TabKey.Proofs.Block
import TabKey.Proofs.Enclosure.Inside
import TabKey.Proofs.Locality
import TabKey.Proofs.Enclosure.Opaque
import TabKey.Proofs.Caret
import TabKey.Proofs.RoundTrip
import TabKey.Proofs.Progress
import TabKey.Proofs.Around
import TabKey.Proofs.Peeling
import TabKey.Proofs.Decomposition
import TabKey.Proofs.Reindent
import TabKey.Proofs.Outdent
import TabKey.Proofs.Splicing
import TabKey.Proofs.Replacement
import TabKey.Proofs.IndentedLines
import TabKey.Proofs.SharedRow
import TabKey.Proofs.Enclosure.Counting
import TabKey.Proofs.Enclosure.Window
import TabKey.Proofs.PairAhead
import TabKey.Proofs.Enclosure.Parity
import TabKey.Proofs.Enclosure.PairedOff
import TabKey.Proofs.RowCount
import TabKey.Proofs.PlainPair
import TabKey.Proofs.Levels
import TabKey.Proofs.Location
import TabKey.Proofs.Offsets
import TabKey.Proofs.Escape
