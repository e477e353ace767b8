import Reline.Main
import Reline.Sink.Directory
import Reline.Proofs.ClassFile.Editing
import Reline.Proofs.Archive.Closing
import Reline.Proofs.Archive.Visibility
import Reline.Proofs.Batch.Interleaving
import Reline.Proofs.Archive.Sharing
import Reline.Proofs.Archive.Independence
import Reline.Proofs.Archive.Liveness
import Reline.Proofs.Batch.Orders
import Reline.Proofs.ClassFile.Continuation
import Reline.Proofs.Archive.Obstruction
import Reline.Proofs.Archive.Atomicity
import Reline.Proofs.SuccessiveRemaps
import Reline.Proofs.Archive.Reordering
import Reline.Proofs.Archive.Finality
import Reline.Proofs.Saving
import Reline.Proofs.Batch.Conclusion
import Reline.Proofs.Sink.Texts
import Reline.Proofs.Sink.Directory
import Reline.Proofs.LineMapping.Equality
import Reline.Proofs.LineMapping.Order
import Reline.Proofs.Manifest.Writing
import Reline.Proofs.ClassFile.Bounds
import Reline.Proofs.CommandLine.Effects
