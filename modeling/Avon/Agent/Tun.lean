import Avon.Agent.Peers
import Avon.Tunnel.Routes

/-!
# Where the agent sends a packet

The model of `parse_dst` and `forward_from_tun` in `avon-agent-core/src/session_manager.rs` and of
`lookup_for_dst` in `peer.rs`. The packet comes from the TUN, and nothing looks at its source.
-/

set_option autoImplicit false

namespace Avon.Agent

open Avon.Crypto Avon.Lib.BigEndian Avon.Tunnel

def parseDst (packet : Bytes) : Option IpAddr :=
  match packet with
  | [] => none
  | first :: _ =>
    if first >>> 4 = 4 then
      if packet.length < 20 then none
      else some (.v4 (BitVec.ofNat 32 (ofBe ((packet.drop 16).take 4))))
    else if first >>> 4 = 6 then
      if packet.length < 40 then none
      else some (.v6 (BitVec.ofNat 128 (ofBe ((packet.drop 24).take 16))))
    else none

variable {C : HybridImpl}

/-- `lookup_for_dst`: the first direct peer whose overlay network has the address. `order` is the
order in which the map of peers is walked. -/
def lookupForDst (s : AgentState C) (order : List DeviceId) (dst : IpAddr) : Option SessionId :=
  order.findSome? fun device => (s.peers device).bind fun e =>
    if e.state = .direct ∧ e.overlayV4.contains dst then some e.session.session.id else none

/-- `forward_from_tun` up to the session that the packet is sent on: a direct peer, a route, or the
hub for everything else. -/
def forwardFromTun (s : AgentState C) (router : RouteTable) (order : List DeviceId)
    (packet : Bytes) : Except AgentError PeerSession := do
  let dst ← required "malformed packet" (parseDst packet)
  let sid ← required "no route" <| (lookupForDst s order dst).or <| (router.lookup dst).or <|
    s.hub.map (·.session.id)
  required "no session" (s.table sid)

end Avon.Agent
