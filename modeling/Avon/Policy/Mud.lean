import Avon.Json
import Avon.Policy.Spec

/-!
# The import of MUD files

`mud.rs`: the ACEs of the from-device lists of a MUD file (RFC 8520) become policies of a device
class, and a policy that denies everything is appended. The parsers of JSON and of networks are
parameters, and so is the resolver of names.
-/

set_option autoImplicit false

namespace Avon.Policy

inductive MudError where
  | json (text : String)
  | unsupported (text : String)
  | empty
  deriving DecidableEq, Repr

structure MudImport where
  policies : List (String × PolicySpec)
  skipped : List String
  deriving DecidableEq, Repr

/-- The code that the import calls and that is not modelled. -/
structure MudEnv where
  parse : String → Except String Json
  ipNet : String → Option IpNet
  resolve : String → List IpNet

namespace Mud

def protocolOf : Option ℕ → Protocol
  | some 6 => .tcp
  | some 17 => .udp
  | some 1 => .icmp
  | some 58 => .icmp
  | _ => .any

def portsOf (matches' : Json) (key : String) : Option PortSet := do
  let port ← (← matches'.get key).get "destination-port"
  match (port.get "port").bind Json.asU64 with
  | some p => (PortSet.parse (Nat.toDigits 10 p)).toOption
  | none =>
    let lower ← (port.get "lower-port").bind Json.asU64
    let upper := ((port.get "upper-port").bind Json.asU64).getD lower
    (PortSet.parse (Nat.toDigits 10 lower ++ '-' :: Nat.toDigits 10 upper)).toOption

def listNames (mud : Json) (direction : String) : List String :=
  match (mud.pointer [direction, "access-lists", "access-list"]).bind Json.asArray with
  | some lists => lists.filterMap fun l => (l.get "name").bind Json.asStr
  | none => []

/-- The two families of addresses, as the keys of a match. -/
inductive Family where
  | ipv4
  | ipv6
  deriving DecidableEq, Repr

def Family.text : Family → String
  | .ipv4 => "ipv4"
  | .ipv6 => "ipv6"

def Family.networkKey : Family → String
  | .ipv4 => "destination-ipv4-network"
  | .ipv6 => "destination-ipv6-network"

structure Ace where
  aclName : String
  json : Json

namespace Ace

variable (env : MudEnv) (ace : Ace)

def name : String := ((ace.json.get "name").bind Json.asStr).getD "ace"

def matches' : Json := (ace.json.get "matches").getD .null

def action : String :=
  ((ace.json.pointer ["actions", "forwarding"]).bind Json.asStr).getD "drop"

/-- The destination network of a family, if it is a text that parses. -/
def network (f : Family) : Option IpNet :=
  ((ace.matches'.pointer [f.text, f.networkKey]).bind Json.asStr).bind env.ipNet

def dnsName (f : Family) : Option String :=
  (ace.matches'.pointer [f.text, "ietf-acldns:dst-dnsname"]).bind Json.asStr

/-- The networks that a family gives: the one that is written, and what its name resolves
to. -/
def cidrsOf (f : Family) : List IpNet :=
  (ace.network env f).toList ++ ((ace.dnsName f).map env.resolve).getD []

def cidrs : List IpNet :=
  ace.cidrsOf env .ipv4 ++ ace.cidrsOf env .ipv6

def unresolved (f : Family) : List String :=
  match ace.dnsName f with
  | some name =>
    if (env.resolve name).isEmpty then
      [ace.aclName ++ "/" ++ ace.name ++ ": could not resolve " ++ name]
    else []
  | none => []

def protocolNumber : Option ℕ :=
  match (ace.matches'.pointer ["ipv4", "protocol"]).bind Json.asU64 with
  | some n => some n
  | none => (ace.matches'.pointer ["ipv6", "protocol"]).bind Json.asU64

def ports : PortSet :=
  match portsOf ace.matches' "tcp" with
  | some ports => ports
  | none => (portsOf ace.matches' "udp").getD ⟨[]⟩

/-- The layer-4 rules. Without a known protocol there are none, and the ports are dropped. -/
def l4 : List L4Rule :=
  match protocolOf ace.protocolNumber with
  | .any => []
  | p => [⟨p, ace.ports⟩]

def noSelector : Selector := ⟨[], [], [], [], false⟩

/-- The policy of an ACE with some effect and networks. -/
def policy (deviceClass : Uuid) (effect : Effect) (cidrs : List IpNet) : String × PolicySpec :=
  ("mud-" ++ ace.aclName ++ "-" ++ ace.name,
    { version := 2
      effect
      priority := 100
      source := { noSelector with deviceClasses := [deviceClass] }
      destination := { noSelector with cidrs }
      l4 := ace.l4
      conditions := ⟨none, none, none, none⟩ })

/-- One turn of the loop: the policy of an ACE, if it gives one, and what is reported. -/
def turn (env : MudEnv) (deviceClass : Uuid) (ace : Ace) :
    Option (String × PolicySpec) × List String :=
  let note (text : String) := ace.aclName ++ "/" ++ ace.name ++ ": " ++ text
  let effect? : Option Effect :=
    if ace.action = "accept" then some .allow
    else if ace.action = "drop" then some .deny else none
  match effect? with
  | none => (none, [note ("unsupported forwarding action " ++ ace.action)])
  | some effect =>
    let cidrs := ace.cidrs env
    let skipped := ace.unresolved env .ipv4 ++ ace.unresolved env .ipv6
    if cidrs.isEmpty then
      (none, skipped ++ [note "no usable destination, skipped rather than widened"])
    else (some (ace.policy deviceClass effect cidrs), skipped)

end Ace

/-- The ACEs of the access lists that are named, in the order of the document. -/
def acesOf (doc : Json) (names : List String) : List Ace :=
  let acls := ((doc.pointer ["ietf-access-control-list:acls", "acl"]).bind Json.asArray).getD []
  acls.flatMap fun acl =>
    let aclName := ((acl.get "name").bind Json.asStr).getD ""
    if names.contains aclName then
      (((acl.pointer ["aces", "ace"]).bind Json.asArray).getD []).map fun json => ⟨aclName, json⟩
    else []

def defaultDeny (deviceClass : Uuid) : String × PolicySpec :=
  ("mud-default-deny",
    { version := 2
      effect := .deny
      priority := 9000
      source := { Ace.noSelector with deviceClasses := [deviceClass] }
      destination := { Ace.noSelector with any := true }
      l4 := []
      conditions := ⟨none, none, none, none⟩ })

end Mud

def importMud (env : MudEnv) (mudJson : String) (deviceClass : Uuid) :
    Except MudError MudImport :=
  match env.parse mudJson with
  | .error e => .error (.json e)
  | .ok doc =>
    match doc.get "ietf-mud:mud" with
    | none => .error .empty
    | some mud =>
      let fromLists := Mud.listNames mud "from-device-policy"
      if fromLists.isEmpty then .error .empty
      else
        let inbound := (Mud.listNames mud "to-device-policy").map fun name =>
          "to-device access list " ++ name ++
            ": inbound policy is enforced by the upstream router, not imported"
        let turns := (Mud.acesOf doc fromLists).map (Mud.Ace.turn env deviceClass)
        .ok {
          policies := turns.filterMap Prod.fst ++ [Mud.defaultDeny deviceClass]
          skipped := inbound ++ turns.flatMap Prod.snd }

end Avon.Policy
