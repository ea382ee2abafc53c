import Avon.Proofs.Tunnel.Nonce
import Avon.Proofs.Ca.CrlMonotone
import Avon.Proofs.Agent.RekeyAgreement
import Avon.Proofs.Agent.DirectRekey
import Avon.Proofs.Control.DefaultDeny
import Avon.Proofs.Policy.Admission
import Avon.Proofs.Policy.Mud
import Avon.Proofs.Control.Suspend
import Avon.Proofs.Control.Freshness
import Avon.Proofs.Agent.Firewall
import Avon.Proofs.Gateway.FlowCache
import Avon.Proofs.Control.Revocation
import Avon.Proofs.Policy.Staleness
import Avon.Proofs.Policy.Schema
import Avon.Proofs.Control.Identity
import Avon.Proofs.Gateway.FlowParse
import Avon.Proofs.Overlay
import Avon.Proofs.Control.OverlayAddresses
import Avon.Proofs.Control.EnrollConditions
import Avon.Proofs.Tunnel.Transparency
import Avon.Proofs.Admin.Refresh
import Avon.Proofs.Admin.Tamper
import Avon.Proofs.Control.Streams
import Avon.Proofs.Scim
import Avon.Proofs.Control.Debounce
import Avon.Proofs.Control.SnapshotVersions
import Avon.Proofs.Control.Brokering
import Avon.Proofs.Control.RevokeCalls
import Avon.Proofs.Gateway.Consistency
import Avon.Proofs.Control.PolicyOrder
import Avon.Proofs.Policy.OsVersion
import Avon.Proofs.Policy.WindowScan
import Avon.Proofs.Attest.Soundness
import Avon.Proofs.Policy.PortText
import Avon.Proofs.Crypto.Preimages
import Avon.Proofs.Tunnel.Routes
import Avon.Proofs.Tunnel.Table
import Avon.Agent.HubSession
import Avon.Proofs.Agent.HubInv
import Avon.Proofs.Agent.DirectRekey
