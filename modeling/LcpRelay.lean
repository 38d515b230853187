import LcpRelay.Time
import LcpRelay.Types
import LcpRelay.Relay.Monad
import LcpRelay.Relay.Prover
import LcpRelay.Relay.Spec
import LcpRelay.Relay.Call
import LcpRelay.Relay.Run
import LcpRelay.Relay.Finality
import LcpRelay.Relay.Operations
import LcpRelay.Relay.Interleaving
import LcpRelay.Relay.Commands
import LcpRelay.Client.LightClient
import LcpRelay.Client.Run
import LcpRelay.Client.Bootstrap
import LcpRelay.Client.Provenance
import LcpRelay.Agreement
import LcpRelay.Selection
import LcpRelay.Deployment
