import Avon.Lib.Words
import Avon.Net

/-!
# The rules that confine traffic to the tunnel

The intent of `rules_for` and the texts for `nft` and `pfctl`; then what the two languages make of
such a text. In `nft` the first verdict of a chain ends, and a chain sees only the packets of its
hook. In `pf` the last rule that matches wins. A packet that no loaded rule decides goes through.
-/

set_option autoImplicit false

namespace Avon.Agent

open Avon.Lib.Words

structure FirewallRules where
  allowCidrs : List String
  tunName : String
  blockDefault : Bool
  deriving DecidableEq, Repr

/-- `rules_for`. `netText` is the `Display` of a network. -/
def rulesFor (netText : IpNet → String) (tunName : String) (protected_ : List IpNet)
    (failOpen : Bool) : FirewallRules where
  allowCidrs := protected_.map netText
  tunName := tunName
  blockDefault := !failOpen

def Nftables.render (rules : FirewallRules) : String :=
  "table inet avon \x7b\n" ++
  "  chain forward \x7b\n" ++
  "    type filter hook forward priority 0; policy drop;\n" ++
  String.join (rules.allowCidrs.map fun cidr => "    ip daddr " ++ cidr ++ " accept\n") ++
  ("    oifname \"" ++ rules.tunName ++ "\" accept\n") ++
  (if rules.blockDefault then "    drop\n" else "") ++
  "  \x7d\n" ++
  "\x7d\n"

def Pf.render (rules : FirewallRules) : String :=
  String.join (rules.allowCidrs.map fun cidr =>
    "pass out on " ++ rules.tunName ++ " from any to " ++ cidr ++ " keep state\n") ++
  (if rules.blockDefault then "block out all\n" else "")

/-- A packet that leaves the machine, by the interface `oif`. It was forwarded or made here. -/
structure Packet where
  dst : IpAddr
  oif : String
  forwarded : Bool
  deriving DecidableEq, Repr

/-! ### nftables -/

inductive Verdict where
  | accept
  | drop
  deriving DecidableEq, Repr

inductive NftMatch where
  | any
  | ipDaddr (net : IpNet)
  | oifname (name : String)
  deriving DecidableEq, Repr

inductive Hook where
  | forward
  | output
  deriving DecidableEq, Repr

structure NftChain where
  hook : Hook
  policy : Verdict
  rules : List (NftMatch × Verdict)
  deriving DecidableEq, Repr

def IsV4 (net : IpNet) : Bool :=
  match net.addr with
  | .v4 _ => true
  | .v6 _ => false

def readVerdict : String → Option Verdict
  | "accept" => some .accept
  | "drop" => some .drop
  | _ => none

def unquote (w : String) : Option String :=
  match w.toList with
  | '"' :: rest =>
    if rest.getLast? = some '"' then some (String.ofList rest.dropLast) else none
  | _ => none

variable (readNet : String → Option IpNet)

/-- One rule. A network that is not of IPv4 is an error behind `ip daddr`. -/
def readNftRule : List String → Option (NftMatch × Verdict)
  | ["ip", "daddr", cidr, verdict] => do
    let net ← (readNet cidr).filter IsV4
    return (.ipDaddr net, ← readVerdict verdict)
  | ["oifname", name, verdict] => return (.oifname (← unquote name), ← readVerdict verdict)
  | [verdict] => return (.any, ← readVerdict verdict)
  | _ => none

/-- The rules up to the braces that close the chain and the table. -/
def readNftRules : List (List String) → Option (List (NftMatch × Verdict))
  | [] => none
  | line :: rest =>
    if line = ["\x7d"] then
      if rest = [["\x7d"]] then some [] else none
    else do
      let rule ← readNftRule readNet line
      return rule :: (← readNftRules rest)

def readBase : List String → Option (Hook × Verdict)
  | ["type", "filter", "hook", hook, "priority", "0;", "policy", policy] => do
    let hook ← match hook with
      | "forward" => some Hook.forward
      | "output" => some Hook.output
      | _ => none
    let policy ← match policy with
      | "accept;" => some Verdict.accept
      | "drop;" => some Verdict.drop
      | _ => none
    return (hook, policy)
  | _ => none

def readNft (text : String) : Option NftChain :=
  match grid text with
  | ["table", "inet", _, "\x7b"] :: ["chain", _, "\x7b"] :: base :: rest => do
    let (hook, policy) ← readBase base
    return ⟨hook, policy, ← readNftRules readNet rest⟩
  | _ => none

def NftMatch.holds (m : NftMatch) (p : Packet) : Bool :=
  match m with
  | .any => true
  | .ipDaddr net => net.contains p.dst
  | .oifname name => p.oif = name

def Hook.sees (h : Hook) (p : Packet) : Bool :=
  match h with
  | .forward => p.forwarded
  | .output => !p.forwarded

/-- The verdict of the first rule that matches, or else the policy. -/
def NftChain.verdict (c : NftChain) (p : Packet) : Verdict :=
  ((c.rules.find? fun r => r.1.holds p).map Prod.snd).getD c.policy

/-- Whether a packet goes through after the file was given to `nft -f`. -/
def nftAccepts (text : String) (p : Packet) : Bool :=
  match readNft readNet text with
  | none => true
  | some c => !c.hook.sees p || c.verdict p = .accept

/-! ### pf -/

/-- A rule for packets that go out: `pass` or `block`, by an interface and to a network if these
are given. -/
structure PfRule where
  pass : Bool
  interface : Option String
  dest : Option IpNet
  deriving DecidableEq, Repr

def readPfRule : List String → Option PfRule
  | ["pass", "out", "on", name, "from", "any", "to", cidr, "keep", "state"] => do
    return ⟨true, some name, some (← readNet cidr)⟩
  | ["block", "out", "all"] => some ⟨false, none, none⟩
  | _ => none

def readPf (text : String) : Option (List PfRule) :=
  (grid text).mapM (readPfRule readNet)

def PfRule.holds (r : PfRule) (p : Packet) : Bool :=
  r.interface.all (· = p.oif) && r.dest.all (·.contains p.dst)

/-- Whether a packet goes through after the file was given to `pfctl -f`: the last rule that
matches says so. -/
def pfAccepts (text : String) (p : Packet) : Bool :=
  match readPf readNet text with
  | none => true
  | some rules => ((rules.reverse.find? fun r => r.holds p).map PfRule.pass).getD true

end Avon.Agent
