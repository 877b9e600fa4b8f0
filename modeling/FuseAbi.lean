import FuseAbi.Main
import FuseAbi.Operation.Reply
import FuseAbi.Probe
import FuseAbi.Word.Lemmas
import FuseAbi.Proofs.Truncation
import FuseAbi.Proofs.Lines
import FuseAbi.Proofs.Naming
import FuseAbi.Proofs.Discarded
import FuseAbi.Proofs.Extension
import FuseAbi.Proofs.Blame
import FuseAbi.Proofs.Files
import FuseAbi.Proofs.Modes
import FuseAbi.Proofs.Minors
import FuseAbi.Proofs.Replies
import FuseAbi.Proofs.Logging
import FuseAbi.Proofs.Probes
import FuseAbi.Proofs.WriteRead
import FuseAbi.Proofs.AttrMask
import FuseAbi.Proofs.Forgets
import FuseAbi.Proofs.Renames
import FuseAbi.Proofs.Locks
import FuseAbi.Proofs.Payload
import FuseAbi.Proofs.Groups
import FuseAbi.Proofs.Structs
import FuseAbi.Proofs.RequestLine
