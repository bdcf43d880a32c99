import NatBehavior.Main
import NatBehavior.Host.Json
import NatBehavior.Network.World
import NatBehavior.CommandLine.FileTree
import NatBehavior.Proofs.Stun.RoundTrip
import NatBehavior.Proofs.Stun.Fingerprint
import NatBehavior.Proofs.Discovery.Flowchart
import NatBehavior.Proofs.Discovery.IdealNetwork
import NatBehavior.Proofs.Discovery.Probes
import NatBehavior.Proofs.Network.Exchange
import NatBehavior.Proofs.Network.Isolation
import NatBehavior.Proofs.Stun.Reencoding
import NatBehavior.Proofs.Network.Traffic
import NatBehavior.Proofs.Settings.Validation
import NatBehavior.Proofs.Toml.Quoted
import NatBehavior.Proofs.Settings.Document
import NatBehavior.Proofs.Discovery.Dependence
import NatBehavior.Proofs.Discovery.Hosts
import NatBehavior.Proofs.Checksum
import NatBehavior.Proofs.Checksum.Division
import NatBehavior.Proofs.Stun.Corruption
import NatBehavior.Proofs.Address.Text
import NatBehavior.Proofs.Text.JsonValue
import NatBehavior.Proofs.Discovery.ServerAddress
import NatBehavior.Proofs.Discovery.Detector
import NatBehavior.Proofs.CommandLine.Detection
import NatBehavior.Proofs.Retransmission
import NatBehavior.Proofs.Probe.Request
import NatBehavior.Proofs.Network.Framing
import NatBehavior.Proofs.Host
import NatBehavior.Proofs.Probe.Response
import NatBehavior.Proofs.Settings.Field
import NatBehavior.Proofs.Settings.Server
import NatBehavior.Proofs.Address.ZeroRun
import NatBehavior.Proofs.Host.Text
import NatBehavior.Proofs.Duration.Rounding
import NatBehavior.Proofs.Duration.Text
