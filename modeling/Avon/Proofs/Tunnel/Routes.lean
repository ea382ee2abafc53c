import Avon.Proofs.Net
import Avon.Tunnel.Routes

/-!
# The longest match is unique

The routes are kept by a third-party crate. Of its `longest_match` only `LongestMatch` is assumed.
Two networks of one length that have an address in common are one network, and a table has one entry
for it, so every such function gives what `lookup` gives: the results about the gateway and the
agents do not rest on how the crate finds an entry.
-/

set_option autoImplicit false

namespace Avon

theorem netLow_eq_of_mem {w len : ℕ} {a b : BitVec w}
    (hb : netLow a len ≤ b ∧ b ≤ netHigh a len) (h : len ≤ w) : netLow b len = netLow a len := by
  rw [mem_net_iff a b h, toNat_netLow a h, ← Nat.add_one_mul] at hb
  have hpos := Nat.two_pow_pos (w - len)
  have hdiv : b.toNat / 2 ^ (w - len) = a.toNat / 2 ^ (w - len) :=
    Nat.div_eq_of_lt_le hb.1 hb.2
  apply BitVec.eq_of_toNat_eq
  rw [toNat_netLow a h, toNat_netLow b h, hdiv]

namespace Tunnel

/-- The network of an address is fixed by its length. -/
theorem toIpn_eq_of_contains {m n : IpNet} {ip : IpAddr} (hlen : m.prefixLen = n.prefixLen)
    (hm : m.contains ip) (hn : n.contains ip) : toIpn m = toIpn n := by
  obtain ⟨maddr, len, hmvalid⟩ := m
  obtain ⟨naddr, _, hnvalid⟩ := n
  obtain rfl : len = _ := hlen
  cases ip <;> cases maddr <;> cases naddr <;>
    simp only [IpNet.contains, Bool.and_eq_true, decide_eq_true_eq, Bool.false_eq_true] at hm hn
  all_goals
    have hlow := (netLow_eq_of_mem hm hmvalid).symm.trans (netLow_eq_of_mem hn hnvalid)
    simpa [toIpn, IpNet.network] using hlow

/-- What is assumed of `longest_match`: it finds an entry whose network has the address if there is
one, and none with a longer network. -/
structure LongestMatch
    (find : List (IpNet × SessionId) → IpAddr → Option (IpNet × SessionId)) : Prop where
  mem : ∀ routes dst r, find routes dst = some r → r ∈ routes
  contains : ∀ routes dst r, find routes dst = some r → r.1.contains dst
  finds : ∀ routes dst, ∀ r ∈ routes, r.1.contains dst → (find routes dst).isSome
  longest : ∀ routes dst r, find routes dst = some r → ∀ r' ∈ routes, r'.1.contains dst →
    r'.1.prefixLen ≤ r.1.prefixLen

namespace RouteTable

theorem longestMatch_lawful : LongestMatch longestMatch where
  mem _ _ _ h := List.mem_of_mem_filter (List.argmax_mem h)
  contains _ _ _ h := (List.mem_filter.mp (List.argmax_mem h)).2
  finds routes dst r hr hdst := by
    rw [Option.isSome_iff_ne_none]
    intro hnone
    have hmem : r ∈ routes.filter fun r => r.1.contains dst := List.mem_filter.mpr ⟨hr, hdst⟩
    rw [List.argmax_eq_none.mp hnone] at hmem
    exact absurd hmem List.not_mem_nil
  longest _ _ _ h r' hr' hdst :=
    List.le_of_mem_argmax (a := r') (f := fun r => r.1.prefixLen)
      (List.mem_filter.mpr ⟨hr', hdst⟩) h

variable {find find' : List (IpNet × SessionId) → IpAddr → Option (IpNet × SessionId)}

/-- Two longest matches of one table are one entry. -/
theorem eq_of_longest (t : RouteTable) (h : LongestMatch find) (h' : LongestMatch find')
    {dst : IpAddr} {r r' : IpNet × SessionId} (hr : find t.routes dst = some r)
    (hr' : find' t.routes dst = some r') : r = r' := by
  have hmem := h.mem _ _ _ hr
  have hmem' := h'.mem _ _ _ hr'
  have hdst := h.contains _ _ _ hr
  have hdst' := h'.contains _ _ _ hr'
  have hlen : r.1.prefixLen = r'.1.prefixLen :=
    le_antisymm (h'.longest _ _ _ hr' r hmem hdst) (h.longest _ _ _ hr r' hmem' hdst')
  have hnet : r.1 = r'.1 := by
    rw [← t.canonical r hmem, ← t.canonical r' hmem']
    exact toIpn_eq_of_contains hlen hdst hdst'
  exact List.inj_on_of_nodup_map t.distinct hmem hmem' hnet

/-- Whatever the crate does to find the longest match, `lookup` is its answer. -/
theorem lookup_eq_of_longestMatch (t : RouteTable) (h : LongestMatch find) (dst : IpAddr) :
    t.lookup dst = (find t.routes dst).map Prod.snd := by
  have hlawful := longestMatch_lawful
  rw [lookup]
  cases hr : longestMatch t.routes dst with
  | some r =>
    obtain ⟨r', hr'⟩ := Option.isSome_iff_exists.mp
      (h.finds _ dst r (hlawful.mem _ _ _ hr) (hlawful.contains _ _ _ hr))
    rw [hr', t.eq_of_longest hlawful h hr hr']
  | none =>
    cases hr' : find t.routes dst with
    | none => rfl
    | some r' =>
      have hsome := hlawful.finds _ dst r' (h.mem _ _ _ hr') (h.contains _ _ _ hr')
      rw [hr] at hsome
      cases hsome

end RouteTable

end Tunnel

end Avon
