import Avon.Agent.Firewall

/-!
# What the rendered rules let through

The texts are read back line by line. In the chain for `nft` the rules that accept the protected
networks come first and do not name an interface. In the rules for `pf` the last line blocks
everything, also by the tunnel.
-/

set_option autoImplicit false

namespace Avon.Agent

open Avon.Lib.Words

/-- The networks can be read and are words, and so is the name of the interface. -/
structure FirewallRules.Valid (readNet : String → Option IpNet) (r : FirewallRules) : Prop where
  cidrs : ∀ c ∈ r.allowCidrs, IsWord c ∧ (readNet c).isSome
  tun : IsWord r.tunName

/-! ### Reading the texts back -/

variable {readNet : String → Option IpNet} {r : FirewallRules} {p : Packet}

theorem IsWord.quoted {w : String} (hw : IsWord w) : IsWord ("\"" ++ w ++ "\"") where
  ne_nil := by simp
  clear := by
    have hquote : IsWord "\"" := by decide
    simp only [String.toList_append, List.forall_mem_append]
    exact ⟨⟨hquote.clear, hw.clear⟩, hquote.clear⟩

theorem ipDaddr_line (cidr : String) : "    ip daddr " ++ cidr ++ " accept\n" =
    line 4 ["ip", "daddr", cidr, "accept"] := by
  apply String.toList_injective
  simp [line, spaced]

theorem oifname_line (tun : String) : "    oifname \"" ++ tun ++ "\" accept\n" =
    line 4 ["oifname", "\"" ++ tun ++ "\"", "accept"] := by
  apply String.toList_injective
  simp [line, spaced]

theorem passOut_line (tun cidr : String) :
    "pass out on " ++ tun ++ " from any to " ++ cidr ++ " keep state\n" =
      line 0 ["pass", "out", "on", tun, "from", "any", "to", cidr, "keep", "state"] := by
  apply String.toList_injective
  simp [line, spaced]

theorem base_line : "    type filter hook forward priority 0; policy drop;\n" =
    line 4 ["type", "filter", "hook", "forward", "priority", "0;", "policy", "drop;"] := by
  apply String.toList_injective
  simp [line, spaced]

theorem grid_nftables (hr : r.Valid readNet) (hblock : r.blockDefault = true) :
    grid (Nftables.render r) =
      ["table", "inet", "avon", "\x7b"] :: ["chain", "forward", "\x7b"] ::
      ["type", "filter", "hook", "forward", "priority", "0;", "policy", "drop;"] ::
      (r.allowCidrs.map (fun cidr => ["ip", "daddr", cidr, "accept"]) ++
        [["oifname", "\"" ++ r.tunName ++ "\"", "accept"], ["drop"], ["\x7d"], ["\x7d"]]) := by
  have htable : "table inet avon \x7b\n" = line 0 ["table", "inet", "avon", "\x7b"] := by
    decide +kernel
  have hchain : "  chain forward \x7b\n" = line 2 ["chain", "forward", "\x7b"] := by decide +kernel
  have hdrop : "    drop\n" = line 4 ["drop"] := by decide +kernel
  have hclose : "  \x7d\n" = line 2 ["\x7d"] := by decide +kernel
  have hend : "\x7d\n" = line 0 ["\x7d"] := by decide +kernel
  obtain ⟨hl, hg⟩ := grid_join (l := r.allowCidrs)
    (f := fun c => line 4 ["ip", "daddr", c, "accept"]) (fun c _ => lines_line 4 _) fun c hc =>
      grid_line 4 (by simp only [List.forall_mem_cons]; exact ⟨by decide, by decide,
        (hr.cidrs c hc).1, by decide, nofun⟩) (List.cons_ne_nil _ _)
  have htun : ∀ w ∈ ["oifname", "\"" ++ r.tunName ++ "\"", "accept"], IsWord w := by
    simp only [List.forall_mem_cons]
    exact ⟨by decide, IsWord.quoted hr.tun, by decide, nofun⟩
  have hmap : (r.allowCidrs.map fun cidr => "    ip daddr " ++ cidr ++ " accept\n") =
      r.allowCidrs.map fun cidr => line 4 ["ip", "daddr", cidr, "accept"] :=
    List.map_congr_left fun cidr _ => ipDaddr_line cidr
  unfold Nftables.render
  rewrite [hblock, if_pos rfl, htable, hchain, base_line, hdrop, hclose, hend, oifname_line, hmap]
  generalize "\"" ++ r.tunName ++ "\"" = quoted at htun ⊢
  simp only [String.append_assoc]
  rewrite [grid_append (lines_line 0 _), grid_append (lines_line 2 _), grid_append (lines_line 4 _),
    grid_append hl, grid_append (lines_line 4 _), grid_append (lines_line 4 _),
    grid_append (lines_line 2 _), hg, grid_line 4 htun (List.cons_ne_nil _ _),
    grid_line 0 (by decide) (List.cons_ne_nil _ _),
    grid_line 2 (by decide) (List.cons_ne_nil _ _), grid_line 4 (by decide) (List.cons_ne_nil _ _),
    grid_line 4 (by decide) (List.cons_ne_nil _ _), grid_line 2 (by decide) (List.cons_ne_nil _ _),
    grid_line 0 (by decide) (List.cons_ne_nil _ _)]
  rfl

theorem grid_pf (hr : r.Valid readNet) (hblock : r.blockDefault = true) :
    grid (Pf.render r) =
      r.allowCidrs.map (fun cidr =>
        ["pass", "out", "on", r.tunName, "from", "any", "to", cidr, "keep", "state"]) ++
      [["block", "out", "all"]] := by
  have hlast : "block out all\n" = line 0 ["block", "out", "all"] := by decide +kernel
  have hmap : (r.allowCidrs.map fun cidr =>
        "pass out on " ++ r.tunName ++ " from any to " ++ cidr ++ " keep state\n") =
      r.allowCidrs.map fun cidr =>
        line 0 ["pass", "out", "on", r.tunName, "from", "any", "to", cidr, "keep", "state"] :=
    List.map_congr_left fun cidr _ => passOut_line r.tunName cidr
  obtain ⟨hl, hg⟩ := grid_join (l := r.allowCidrs)
    (f := fun c => line 0 ["pass", "out", "on", r.tunName, "from", "any", "to", c, "keep", "state"])
    (fun c _ => lines_line 0 _) fun c hc =>
      grid_line 0 (by simp only [List.forall_mem_cons]; exact ⟨by decide, by decide, by decide,
        hr.tun, by decide, by decide, by decide, (hr.cidrs c hc).1, by decide, by decide, nofun⟩)
        (List.cons_ne_nil _ _)
  unfold Pf.render
  rewrite [hblock, if_pos rfl, hlast, hmap, grid_append hl, hg,
    grid_line 0 (by decide) (List.cons_ne_nil _ _)]
  rfl

/-! ### nftables: every interface -/

theorem readNft_render (hr : r.Valid readNet) (hblock : r.blockDefault = true) :
    readNft readNet (Nftables.render r) =
      (readNftRules readNet (r.allowCidrs.map (fun cidr => ["ip", "daddr", cidr, "accept"]) ++
        [["oifname", "\"" ++ r.tunName ++ "\"", "accept"], ["drop"], ["\x7d"], ["\x7d"]])).map
          fun rules => ⟨.forward, .drop, rules⟩ := by
  rewrite [readNft, grid_nftables hr hblock]
  generalize r.allowCidrs.map _ ++ _ = rest
  change ((readNftRules readNet rest).bind fun rules =>
    some (NftChain.mk .forward .drop rules)) = _
  cases readNftRules readNet rest <;> rfl

theorem readNftRules_cidrs {cidrs : List String} {rest : List (List String)}
    {rules : List (NftMatch × Verdict)}
    (h : readNftRules readNet (cidrs.map (fun cidr => ["ip", "daddr", cidr, "accept"]) ++ rest) =
      some rules) :
    ∃ (nets : List IpNet) (tail : List (NftMatch × Verdict)),
      rules = nets.map (fun net => (.ipDaddr net, .accept)) ++ tail ∧
      cidrs.map readNet = nets.map some := by
  induction cidrs generalizing rules with
  | nil => exact ⟨[], rules, rfl, rfl⟩
  | cons cidr cidrs ih =>
    rewrite [List.map_cons, List.cons_append, readNftRules, if_neg (by simp)] at h
    obtain ⟨rule, hrule, h⟩ := Option.bind_eq_some_iff.mp h
    obtain ⟨rules', hrest, h⟩ := Option.bind_eq_some_iff.mp h
    obtain ⟨net, hnet, hrule⟩ := Option.bind_eq_some_iff.mp hrule
    obtain rfl : (.ipDaddr net, .accept) = rule := Option.some.inj hrule
    obtain rfl : (.ipDaddr net, .accept) :: rules' = rules := Option.some.inj h
    obtain ⟨nets, tail, rfl, hnets⟩ := ih hrest
    refine ⟨net :: nets, tail, rfl, ?_⟩
    rw [List.map_cons, List.map_cons, hnets, Option.eq_some_of_filter_eq_some hnet]

/-- A packet to a protected network goes through by any interface, whether or not the chain sees
it. -/
theorem nft_accepts (hr : r.Valid readNet) (hblock : r.blockDefault = true) {c : String} {n : IpNet}
    (hc : c ∈ r.allowCidrs) (hn : readNet c = some n) (hdst : n.contains p.dst = true) :
    nftAccepts readNet (Nftables.render r) p = true := by
  rw [nftAccepts, readNft_render hr hblock]
  split
  · rfl
  rename_i chain hchain
  obtain ⟨rules, hrules, rfl⟩ := Option.map_eq_some_iff.mp hchain
  obtain ⟨nets, tail, rfl, hnets⟩ := readNftRules_cidrs hrules
  have hmem : n ∈ nets := by
    have : some n ∈ nets.map some := by
      rw [← hnets, ← hn]
      exact List.mem_map_of_mem hc
    simpa using this
  -- the first rule that matches is one of those for the networks
  have hfind : ((nets.map fun net => (NftMatch.ipDaddr net, Verdict.accept)).find?
      fun rule => rule.1.holds p).isSome := by
    rw [List.find?_isSome]
    exact ⟨_, List.mem_map_of_mem hmem, hdst⟩
  obtain ⟨rule, hrule⟩ := Option.isSome_iff_exists.mp hfind
  obtain ⟨net, -, hnet⟩ := List.mem_map.mp (List.mem_of_find?_eq_some hrule)
  have hverdict : NftChain.verdict
      ⟨.forward, .drop, nets.map (fun net => (.ipDaddr net, .accept)) ++ tail⟩ p = .accept := by
    rw [NftChain.verdict, List.find?_append, hrule, ← hnet]
    rfl
  rw [hverdict]
  simp

/-! ### pf: no interface -/

theorem readPf_pass (tun : String) {cidrs : List String}
    (h : ∀ c ∈ cidrs, IsWord c ∧ (readNet c).isSome) :
    ∃ rules, (cidrs.map fun cidr => ["pass", "out", "on", tun, "from", "any", "to", cidr, "keep",
      "state"]).mapM (readPfRule readNet) = some rules := by
  induction cidrs with
  | nil => exact ⟨[], rfl⟩
  | cons cidr cidrs ih =>
    obtain ⟨⟨-, hcidr⟩, hrest⟩ := List.forall_mem_cons.mp h
    obtain ⟨rules, hrules⟩ := ih hrest
    obtain ⟨net, hnet⟩ := Option.isSome_iff_exists.mp hcidr
    refine ⟨⟨true, some tun, some net⟩ :: rules, ?_⟩
    rw [List.map_cons, List.mapM_cons, hrules, readPfRule, hnet]
    rfl

theorem pf_blocks (hr : r.Valid readNet) (hblock : r.blockDefault = true) :
    pfAccepts readNet (Pf.render r) p = false := by
  obtain ⟨rules, hrules⟩ := readPf_pass r.tunName hr.cidrs
  have hread : readPf readNet (Pf.render r) = some (rules ++ [⟨false, none, none⟩]) := by
    rw [readPf, grid_pf hr hblock, List.mapM_append, hrules]
    rfl
  rw [pfAccepts, hread]
  simp [PfRule.holds]

/-- What the two texts are for: a packet to a protected network goes through exactly if it leaves by
the tunnel. -/
def Confines (readNet : String → Option IpNet) (r : FirewallRules) (p : Packet) : Prop :=
  (nftAccepts readNet (Nftables.render r) p = true ↔ p.oif = r.tunName) ∧
  (pfAccepts readNet (Pf.render r) p = true ↔ p.oif = r.tunName)

instance (readNet : String → Option IpNet) (r : FirewallRules) (p : Packet) :
    Decidable (Confines readNet r p) :=
  inferInstanceAs (Decidable (_ ∧ _))

/-- No packet to a protected network is confined on both systems: by the tunnel `pf` blocks it, and
by another interface `nft` accepts it. -/
theorem firewall_never_confines (readNet : String → Option IpNet) (r : FirewallRules) (p : Packet)
    (hr : r.Valid readNet) (hblock : r.blockDefault = true)
    (hdst : ∃ c ∈ r.allowCidrs, ∃ n, readNet c = some n ∧ n.contains p.dst = true) :
    ¬ Confines readNet r p := by
  rintro ⟨hnft, hpf⟩
  obtain ⟨c, hc, n, hn, hcontains⟩ := hdst
  have htun := hnft.mp (nft_accepts hr hblock hc hn hcontains)
  have hpass := hpf.mpr htun
  rw [pf_blocks hr hblock] at hpass
  cases hpass

def readPrivate : String → Option IpNet
  | "10.0.0.0/8" => some ⟨.v4 0x0a000000#32, 8, by decide⟩
  | _ => none

def privateRules : FirewallRules := ⟨["10.0.0.0/8"], "avon0", true⟩

theorem firewall_never_confines_private :
    ¬ Confines readPrivate privateRules ⟨.v4 0x0a010203#32, "avon0", true⟩ :=
  firewall_never_confines readPrivate privateRules _ ⟨by decide, by decide⟩ rfl
    ⟨"10.0.0.0/8", by decide, _, rfl, by decide⟩

/-- A packet that is forwarded to a protected network by another interface. -/
theorem firewall_not_confined :
    ¬ Confines readPrivate privateRules ⟨.v4 0x0a010203#32, "eth0", true⟩ := by
  decide +kernel

end Avon.Agent
