import Avon.Ca.X509
import Avon.Control.Auth

/-!
# SPIFFE ids

`SpiffeId`, `spiffe_from_cert_der`, `require_service` and `gateway_id`. `Uuid::parse_str` is the
parameter `parseStr`.
-/

set_option autoImplicit false

namespace Avon.Control.Identity

open Avon.Ca Avon.Control.Auth Avon.Crypto Avon.Proto

inductive IdError where
  | uuid
  | spiffe (what : String)
  deriving DecidableEq

def TRUST_DOMAIN : String := "avon"

structure SpiffeId where
  raw : String
  kind : SpiffeKind
  deriving DecidableEq

namespace SpiffeId

def service (name : String) : SpiffeId where
  raw := "spiffe://" ++ TRUST_DOMAIN ++ "/service/" ++ name
  kind := .service name none

def gateway (id : GatewayId) : SpiffeId where
  raw := "spiffe://" ++ TRUST_DOMAIN ++ "/service/gateway/" ++ uuidText id
  kind := .service "gateway" (some id)

def device (tenant : TenantId) (device : DeviceId) : SpiffeId where
  raw := "spiffe://" ++ TRUST_DOMAIN ++ "/" ++ uuidText tenant ++ "/device/" ++ uuidText device
  kind := .device tenant device

def parseId (parseStr : String → Option Uuid) (s : String) : Except IdError Uuid :=
  match parseStr s with
  | some id => .ok id
  | none => .error .uuid

def parseKind (parseStr : String → Option Uuid) (rest : String) :
    List String → Except IdError SpiffeKind
  | [first, name] =>
    if first = "service" then .ok (.service name none)
    else .error (.spiffe ("unrecognized path " ++ rest))
  | [first, second, third] =>
    if first = "service" then do
      let instanceId ← parseId parseStr third
      return .service second (some instanceId)
    else if second = "device" then do
      let tenant ← parseId parseStr first
      let device ← parseId parseStr third
      return .device tenant device
    else .error (.spiffe ("unrecognized path " ++ rest))
  | _ => .error (.spiffe ("unrecognized path " ++ rest))

def parse (parseStr : String → Option Uuid) (uri : String) : Except IdError SpiffeId :=
  if "spiffe://".toList.isPrefixOf uri.toList then
    let rest := uri.toList.drop 9
    match (rest.splitOn '/').map String.ofList with
    | [] => .error (.spiffe "trust domain")
    | domain :: segs =>
      if domain = TRUST_DOMAIN then do
        let kind ← parseKind parseStr (String.ofList rest) segs
        return ⟨uri, kind⟩
      else .error (.spiffe "trust domain")
  else .error (.spiffe "scheme")

end SpiffeId

/-- `spiffe_from_cert_der`: the first URI that parses. An error is no id to `principal_of`. -/
def spiffeFromCertDer (parseStr : String → Option Uuid) (X : X509Impl) (der : Bytes) :
    Option SpiffeKind :=
  match X.generalNames der with
  | .ok (some names) => names.findSome? fun
      | .uri name => (SpiffeId.parse parseStr name).toOption.map (·.kind)
      | .dnsName _ => none
  | _ => none

def requireService (E : Env) (caller : Caller) (allowed : List String) : Except Status Principal :=
  match principalOf E caller with
  | .service name instanceId =>
    if name ∈ allowed then .ok (.service name instanceId)
    else .error ⟨.permissionDenied, "service " ++ name ++ " not allowed"⟩
  | _ => .error ⟨.unauthenticated, "service client certificate required"⟩

def gatewayId (E : Env) (caller : Caller) : Except Status GatewayId := do
  match ← requireService E caller ["gateway"] with
  | .service _ (some id) => return id
  | _ => .error ⟨.permissionDenied, "gateway certificate must name a gateway instance"⟩

end Avon.Control.Identity
