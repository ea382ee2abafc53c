import Avon.Net
import Mathlib.Data.List.MinMax

/-!
# The route table

The model of `avon-tunnel/src/routes.rs`: a table from networks to sessions with longest prefix
match. A network enters the table under its first address, so `10.0.0.7/8` and `10.0.0.0/8` are one
entry. The table itself is of a third-party crate; `longestMatch` stands for its `longest_match`.
-/

set_option autoImplicit false

namespace Avon

theorem IpNet.width_network (n : IpNet) : n.network.width = n.addr.width := by
  unfold IpNet.network
  cases n.addr <;> rfl

theorem netLow_netLow {w : ℕ} (a : BitVec w) (len : ℕ) :
    netLow (netLow a len) len = netLow a len := by
  simp only [netLow, BitVec.and_assoc, BitVec.and_self]

theorem netHigh_netLow {w : ℕ} (a : BitVec w) (len : ℕ) :
    netHigh (netLow a len) len = netHigh a len := by
  ext i hi
  simp only [netHigh, netLow, BitVec.getElem_or, BitVec.getElem_and, BitVec.getElem_not]
  cases a[i] <;> cases (BitVec.allOnes w >>> len)[i] <;> rfl

namespace Tunnel

/-- `to_ipn`: the network without host bits. `IpNetwork::new` refuses host bits and lengths
that are too large, and there are none here. -/
def toIpn (net : IpNet) : IpNet :=
  ⟨net.network, net.prefixLen, by rw [IpNet.width_network]; exact net.valid⟩

theorem contains_toIpn (net : IpNet) (ip : IpAddr) : (toIpn net).contains ip = net.contains ip := by
  obtain ⟨addr, len, hvalid⟩ := net
  cases addr <;> cases ip <;>
    simp only [toIpn, IpNet.contains, IpNet.network, netLow_netLow, netHigh_netLow]

theorem toIpn_toIpn (net : IpNet) : toIpn (toIpn net) = toIpn net := by
  obtain ⟨addr, len, hvalid⟩ := net
  cases addr <;> simp only [toIpn, IpNet.network, netLow_netLow]

/-- The entries, one for each network, and none with host bits. -/
structure RouteTable where
  routes : List (IpNet × SessionId)
  canonical : ∀ r ∈ routes, toIpn r.1 = r.1
  distinct : (routes.map Prod.fst).Nodup
  deriving DecidableEq, Repr

namespace RouteTable

def empty : RouteTable := ⟨[], List.forall_mem_nil _, List.nodup_nil⟩

def retain (t : RouteTable) (keep : IpNet × SessionId → Bool) : RouteTable where
  routes := t.routes.filter keep
  canonical r hr := t.canonical r (List.mem_of_mem_filter hr)
  distinct := t.distinct.sublist (List.filter_sublist.map Prod.fst)

def remove (t : RouteTable) (net : IpNet) : RouteTable := t.retain fun r => r.1 ≠ toIpn net

/-- `insert`. An entry of the same network is replaced. -/
def insert (t : RouteTable) (net : IpNet) (session : SessionId) : RouteTable where
  routes := (toIpn net, session) :: (t.remove net).routes
  canonical := List.forall_mem_cons.mpr ⟨toIpn_toIpn net, (t.remove net).canonical⟩
  distinct := List.nodup_cons.mpr ⟨by simp [remove, retain], (t.remove net).distinct⟩

def removeSession (t : RouteTable) (session : SessionId) : RouteTable :=
  t.retain fun r => r.2 ≠ session

def longestMatch (routes : List (IpNet × SessionId)) (dst : IpAddr) : Option (IpNet × SessionId) :=
  (routes.filter fun r => r.1.contains dst).argmax fun r => r.1.prefixLen

def lookup (t : RouteTable) (dst : IpAddr) : Option SessionId :=
  (longestMatch t.routes dst).map Prod.snd

/-! ### What the operations keep -/

variable {r : IpNet × SessionId} {t : RouteTable} {session : SessionId} {net : IpNet}

theorem mem_of_mem_remove (h : r ∈ (t.remove net).routes) : r ∈ t.routes :=
  List.mem_of_mem_filter h

theorem mem_of_mem_insert (h : r ∈ (t.insert net session).routes) :
    r = (toIpn net, session) ∨ r ∈ t.routes := by
  rcases List.mem_cons.mp h with heq | hmem
  · exact .inl heq
  · exact .inr (mem_of_mem_remove hmem)

theorem mem_of_mem_removeSession (h : r ∈ (t.removeSession session).routes) : r ∈ t.routes :=
  List.mem_of_mem_filter h

theorem mem_of_lookup {dst : IpAddr}
    (h : t.lookup dst = some session) : ∃ net, (net, session) ∈ t.routes ∧ net.contains dst := by
  obtain ⟨⟨net, s⟩, hmax, rfl⟩ := Option.map_eq_some_iff.mp h
  have hmem := List.mem_filter.mp (List.argmax_mem hmax)
  exact ⟨net, hmem.1, by simpa using hmem.2⟩

end RouteTable

end Tunnel

end Avon
