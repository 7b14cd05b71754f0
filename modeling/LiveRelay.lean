import LiveRelay.Config.Builder
import LiveRelay.Main
import LiveRelay.Proofs.Codec.Canonical
import LiveRelay.Proofs.Codec.Refusals
import LiveRelay.Proofs.Config.Spans
import LiveRelay.Proofs.Config.Spelling
import LiveRelay.Proofs.Connection.Backlog
import LiveRelay.Proofs.Connection.Budget
import LiveRelay.Proofs.Connection.Lifecycle
import LiveRelay.Proofs.Connection.Listener
import LiveRelay.Proofs.Connection.Reconnects
import LiveRelay.Proofs.Connection.Retries
import LiveRelay.Proofs.Endpoint.Independence
import LiveRelay.Proofs.Endpoint.Metadata
import LiveRelay.Proofs.Endpoint.Overflow
import LiveRelay.Proofs.Queue.WakeUps
import LiveRelay.Proofs.Relay.Causes
import LiveRelay.Proofs.Relay.Closed
import LiveRelay.Proofs.Relay.Failures
import LiveRelay.Proofs.Relay.Overlap
import LiveRelay.Proofs.Relay.Reports
import LiveRelay.Queue.Waiting
