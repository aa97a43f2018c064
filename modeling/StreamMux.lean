import StreamMux.Bench.Run
import StreamMux.Json.Records
import StreamMux.Proofs.Network.Bytes
import StreamMux.Proofs.Network.Ends
import StreamMux.Proofs.Network.Limits
import StreamMux.Proofs.Network.Numbers
import StreamMux.Proofs.Network.Pipeline
import StreamMux.Proofs.Session.Balance
import StreamMux.Proofs.Session.Bounds
import StreamMux.Proofs.Session.Digest
import StreamMux.Proofs.Session.Finality
import StreamMux.Proofs.Session.Flood
import StreamMux.Proofs.Session.Identity
import StreamMux.Proofs.Session.Ignored
import StreamMux.Proofs.Session.Isolation
import StreamMux.Proofs.Session.Lifecycle
import StreamMux.Proofs.Session.Protocol
import StreamMux.Proofs.Session.Teardown
import StreamMux.Proofs.Session.Truthful
import StreamMux.Proofs.Wire.Intake
import StreamMux.Proofs.Wire.Numeral
import StreamMux.Proofs.Wire.Traffic
import StreamMux.Proofs.Wire.Whole
import StreamMux.Proofs.Streams.Queue
import StreamMux.Proofs.Streams.Pending
import StreamMux.Proofs.Session.Retention
