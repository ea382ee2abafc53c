import Avon.Control.Identity
import Avon.Lib.Cut
import Avon.Proofs.Ca.Issue

/-!
# What a service name may be

The path of a SPIFFE id is split at every slash. A name without a slash is one segment, and the id
of a service is read back as it was made. `gateway/` and an id make the id of that gateway. The CA
asks for nothing of the kind.
-/

set_option autoImplicit false

namespace Avon.Control.Identity

open Avon.Ca Avon.Control.Auth Avon.Crypto Avon.Lib Avon.Proto
open SpiffeId (service parseKind parse)

/-! ### Segments -/

theorem slash_not_mem_uuidText (id : Uuid) : '/' ∉ (uuidText id).toList := by
  intro h
  rcases mem_uuidText h with hhyphen | ⟨n, hn, hdigit⟩
  · exact absurd hhyphen (by decide)
  · have hne : ∀ n < 16, '/' ≠ Nat.digitChar n := by decide
    exact hne n hn hdigit

theorem uuidText_ne_service (id : Uuid) : uuidText id ≠ "service" := by
  intro h
  have hlength := length_uuidText id
  rw [h] at hlength
  exact absurd hlength (by decide)

/-! ### Parsing what was made -/

section
variable {parseStr : String → Option Uuid}

theorem parse_path (parseStr : String → Option Uuid) {path : List Char} {raw : String}
    (hraw : raw.toList = "spiffe://avon/".toList ++ path) :
    ∃ rest, parse parseStr raw = (parseKind parseStr rest
      ((path.splitOn '/').map String.ofList)).map (SpiffeId.mk raw) := by
  have hrest : raw.toList.drop 9 = "avon".toList ++ '/' :: path := by
    rw [hraw]
    rfl
  refine ⟨String.ofList ("avon".toList ++ '/' :: path), ?_⟩
  unfold parse
  rw [if_pos (by rw [hraw]; rfl)]
  have havon : '/' ∉ "avon".toList := by decide
  simp only [hrest, splitOn_segment havon, List.map_cons, String.ofList_toList, TRUST_DOMAIN,
    if_true]
  cases parseKind parseStr (String.ofList ("avon".toList ++ '/' :: path))
    ((path.splitOn '/').map String.ofList) <;> rfl

theorem parseKind_eq_service {rest name : String} {segs : List String}
    (h : parseKind parseStr rest segs = .ok (.service name none)) :
    segs = ["service", name] := by
  unfold parseKind at h
  split at h
  · split at h
    · next hfirst =>
      cases h
      rw [hfirst]
    · cases h
  · split at h
    · obtain ⟨_, -, h⟩ := bind_eq_ok.mp h
      cases h
    split at h
    · obtain ⟨_, -, h⟩ := bind_eq_ok.mp h
      obtain ⟨_, -, h⟩ := bind_eq_ok.mp h
      cases h
    · cases h
  · cases h

theorem toList_service (name : String) :
    (service name).raw.toList = "spiffe://avon/".toList ++ ("service".toList ++
      '/' :: name.toList) := by
  simp only [service, String.toList_append, List.append_assoc]
  rfl

theorem toList_gateway (id : GatewayId) :
    (SpiffeId.gateway id).raw.toList = "spiffe://avon/".toList ++ ("service".toList ++
      '/' :: ("gateway".toList ++ '/' :: (uuidText id).toList)) := by
  change ("spiffe://" ++ TRUST_DOMAIN ++ "/service/gateway/" ++ uuidText id).toList = _
  generalize uuidText id = text
  simp only [String.toList_append, List.append_assoc]
  rfl

theorem toList_device (tenant : TenantId) (device : DeviceId) :
    (SpiffeId.device tenant device).raw.toList = "spiffe://avon/".toList ++
      ((uuidText tenant).toList ++ '/' :: ("device".toList ++ '/' ::
    (uuidText device).toList)) := by
  change ("spiffe://" ++ TRUST_DOMAIN ++ "/" ++ uuidText tenant ++ "/device/" ++
    uuidText device).toList = _
  generalize uuidText tenant = tenantText
  generalize uuidText device = deviceText
  simp only [String.toList_append, List.append_assoc]
  rfl

/-- The id of a service is read back as it was made, exactly if the name is one segment. -/
theorem parse_service_iff {name : String} :
    parse parseStr (service name).raw = .ok (service name) ↔
      '/' ∉ name.toList := by
  obtain ⟨rest, hparse⟩ := parse_path parseStr (toList_service name)
  rw [hparse, splitOn_segment (by decide), List.map_cons, String.ofList_toList]
  constructor
  · intro h hslash
    obtain ⟨x, y, hname⟩ := List.append_of_mem hslash
    have hkind : parseKind parseStr rest
        ("service" :: (name.toList.splitOn '/').map String.ofList) = .ok (.service name none) := by
      cases hk : parseKind parseStr rest
          ("service" :: (name.toList.splitOn '/').map String.ofList) with
      | error e =>
        rw [hk] at h
        cases h
      | ok kind =>
        rw [hk] at h
        exact congrArg Except.ok (congrArg SpiffeId.kind (Except.ok.inj h))
    have hsegs := congrArg List.length (parseKind_eq_service hkind)
    rw [hname, List.splitOn_append_cons_self] at hsegs
    have hx : 0 < (x.splitOn '/').length := List.length_pos_of_ne_nil (List.splitOn_ne_nil _ _)
    have hy : 0 < (y.splitOn '/').length := List.length_pos_of_ne_nil (List.splitOn_ne_nil _ _)
    simp only [List.map_append, List.length_cons, List.length_append, List.length_map,
      List.length_nil] at hsegs
    omega
  · intro h
    rw [List.splitOn_eq_singleton h]
    simp [parseKind, service, Except.map]

theorem parse_gateway (hparse : ∀ id, parseStr (uuidText id) = some id) (id : GatewayId) :
    parse parseStr (SpiffeId.gateway id).raw = .ok (SpiffeId.gateway id) := by
  obtain ⟨rest, hpath⟩ := parse_path parseStr (toList_gateway id)
  rw [hpath, splitOn_segment (by decide), splitOn_segment (by decide),
    List.splitOn_eq_singleton (slash_not_mem_uuidText id)]
  simp only [parseKind, SpiffeId.parseId, hparse, List.map_cons, List.map_nil,
    String.ofList_toList, if_true]
  rfl

theorem parse_device (hparse : ∀ id, parseStr (uuidText id) = some id) (tenant : TenantId)
    (device : DeviceId) : parse parseStr (SpiffeId.device tenant device).raw =
      .ok (SpiffeId.device tenant device) := by
  obtain ⟨rest, hpath⟩ := parse_path parseStr (toList_device tenant device)
  rw [hpath, splitOn_segment (slash_not_mem_uuidText tenant), splitOn_segment (by decide),
    List.splitOn_eq_singleton (slash_not_mem_uuidText device)]
  simp only [parseKind, SpiffeId.parseId, hparse, List.map_cons, List.map_nil,
    String.ofList_toList, uuidText_ne_service, if_false, if_true]
  rfl

end

/-! ### Who has which id -/

/-- The ids of a service, of the gateways and of the devices. -/
inductive Named (name : String) : SpiffeId → Prop where
  | service : Named name (.service name)
  | gateway (id : GatewayId) : Named name (.gateway id)
  | device (tenant : TenantId) (device : DeviceId) : Named name (.device tenant device)

theorem Named.parse_raw {parseStr : String → Option Uuid}
    (hparse : ∀ id, parseStr (uuidText id) = some id) {name : String} (hname : '/' ∉ name.toList)
    {a : SpiffeId} (h : Named name a) : parse parseStr a.raw = .ok a := by
  cases h with
  | service => exact parse_service_iff.mpr hname
  | gateway id => exact parse_gateway hparse id
  | device tenant device => exact parse_device hparse tenant device

theorem service_raw_inj {name name' : String}
    (h : (service name).raw = (service name').raw) : name = name' := by
  have hlist := congrArg String.toList h
  rw [toList_service, toList_service] at hlist
  have hcons := List.append_cancel_left (List.append_cancel_left hlist)
  exact String.toList_inj.mp (List.cons.inj hcons).2

/-! ### The certificate of a service -/

section
variable {C : HybridImpl} {X : X509Impl} {w : CaWorld C} {csr : Csr} {serviceId : Uuid}
  {name : String} {dnsSans : List String} {issued : Issued}

theorem issueServiceCredential_cases
    (h : issueServiceCredential C w serviceId csr name dnsSans = .ok issued) :
    ∃ csrPem serial notBefore notAfter, w.signTlsCsr csrPem serial (serviceSans name dnsSans)
      notBefore notAfter = .ok issued.tlsCertDer := by
  obtain ⟨data, -, h⟩ := bind_eq_ok.mp h
  obtain ⟨-, -, h⟩ := bind_eq_ok.mp h
  obtain ⟨issued', hissue, h⟩ := bind_eq_ok.mp h
  obtain ⟨-, -, h⟩ := bind_eq_ok.mp h
  cases h
  obtain ⟨serial, der, _, -, hder, -, rfl⟩ := issue_cases hissue
  exact ⟨_, _, _, _, hder⟩

theorem sanType_service (X : X509Impl) {name : String} {san : SanType}
    (h : sanType X ("spiffe://avon/service/" ++ name) = .ok san) :
    san = .uri (service name).raw := by
  unfold sanType at h
  rw [if_pos (by rw [String.toList_append]; rfl)] at h
  split at h
  · cases h
    rfl
  · cases h

theorem generalNames_issued (hX : X.ReadsBack) (hw : w.signTlsCsr = signTlsCsr X)
    (h : issueServiceCredential C w serviceId csr name dnsSans = .ok issued) :
    ∃ names, X.generalNames issued.tlsCertDer =
      .ok (some (.uri (service name).raw :: names)) := by
  obtain ⟨csrPem, serial, notBefore, notAfter, hder⟩ := issueServiceCredential_cases h
  rw [hw] at hder
  obtain ⟨req, -, hder⟩ := bind_eq_ok.mp hder
  obtain ⟨names, hnames, hder⟩ := bind_eq_ok.mp hder
  rw [serviceSans, List.mapM_cons] at hnames
  obtain ⟨san, hsan, hnames⟩ := bind_eq_ok.mp hnames
  obtain ⟨names, -, hnames⟩ := bind_eq_ok.mp hnames
  cases hnames
  rw [sanType_service X hsan] at hder
  exact ⟨names, hX _ _ _ _ _ _ (mapError_eq_ok.mp hder) (List.cons_ne_nil _ _)⟩

theorem spiffeFromCertDer_issued {parseStr : String → Option Uuid} (hX : X.ReadsBack)
    (hw : w.signTlsCsr = signTlsCsr X) (hname : '/' ∉ name.toList)
    (h : issueServiceCredential C w serviceId csr name dnsSans = .ok issued) :
    spiffeFromCertDer parseStr X issued.tlsCertDer = some (.service name none) := by
  obtain ⟨names, hnames⟩ := generalNames_issued hX hw h
  simp only [spiffeFromCertDer, hnames, List.findSome?_cons, parse_service_iff.mpr hname,
    Except.toOption, Option.map_some]
  rfl

end

theorem refused_of_service {E : Env} {caller : Caller} {name : String}
    (h : principalOf E caller = .service name none) :
    (gatewayId E caller).toOption = none ∧ (requireDevice E caller).toOption = none := by
  constructor
  · unfold gatewayId requireService
    simp only [h]
    split <;> rfl
  unfold requireDevice
  rw [h]
  rfl

/-- For every service name: its id, those of the gateways and those of the devices are read back as
they were made, no two of them have the same text, and no certificate that the CA issues for
the name passes for a gateway or a device, if and only if there is no slash in the name. -/
theorem identity_unambiguous_iff (parseStr : String → Option Uuid)
    (hparse : ∀ id, parseStr (uuidText id) = some id) (X : X509Impl) (hX : X.ReadsBack) (E : Env)
    (hE : E.spiffe = spiffeFromCertDer parseStr X) (name : String) :
    ((∀ a, Named name a → parse parseStr a.raw = .ok a) ∧
      (∀ a b, Named name a → Named name b → a ≠ b → a.raw ≠ b.raw) ∧
      (∀ name', name' ≠ name → (service name').raw ≠ (service name).raw) ∧
      ∀ (C : HybridImpl) (w : CaWorld C) (serviceId : Uuid) (csr : Csr) (dnsSans : List String)
        (issued : Issued) (caller : Caller), w.signTlsCsr = signTlsCsr X →
        issueServiceCredential C w serviceId csr name dnsSans = .ok issued →
        caller.peerCerts.bind List.head? = some issued.tlsCertDer →
          (gatewayId E caller).toOption = none ∧ (requireDevice E caller).toOption = none) ↔
      '/' ∉ name.toList := by
  constructor
  · rintro ⟨hself, -⟩
    exact parse_service_iff.mp (hself _ .service)
  intro hname
  refine ⟨fun a ha => ha.parse_raw hparse hname, ?_, ?_, ?_⟩
  · intro a b ha hb hne hraw
    -- equal texts are read as the same id
    have hparsed := ha.parse_raw hparse hname
    rw [hraw, hb.parse_raw hparse hname] at hparsed
    exact hne (Except.ok.inj hparsed).symm
  · exact fun name' hne hraw => hne (service_raw_inj hraw)
  intro C w serviceId csr dnsSans issued caller hw hissued hcaller
  have hprincipal : principalOf E caller = .service name none := by
    rw [principalOf, hcaller]
    simp only [hE, spiffeFromCertDer_issued hX hw hname hissued]
  exact refused_of_service hprincipal

/-! ### A service that is a gateway -/

def hexUuid (s : String) : Option Uuid := (Hex.decode (s.toList.filter (· ≠ '-'))).bind uuidOf

theorem hexUuid_uuidText (id : Uuid) : hexUuid (uuidText id) = some id := by
  rw [hexUuid, filter_uuidText, Hex.decode_encode, Option.bind_some, uuidOf_uuidBytes]

def fixedX509 (names : List SanType) : X509Impl where
  Request := Unit
  fromPem _ := .ok ()
  ia5 _ := true
  signedBy _ _ given _ _ := if given = names then .ok [] else .error "names"
  generalNames _ := .ok (some names)

theorem fixedX509_readsBack (names : List SanType) : (fixedX509 names).ReadsBack := by
  intro req serial given notBefore notAfter der h _
  have hgiven : given = names := by
    by_contra hne
    have herror : (fixedX509 names).signedBy req serial given notBefore notAfter = .error "names" :=
      if_neg hne
    rw [h] at herror
    cases herror
  rw [hgiven]
  rfl

def fixedEnv (names : List SanType) : Env where
  C := transparentHybrid
  spiffe := spiffeFromCertDer hexUuid (fixedX509 names)
  base64 _ := none
  tenantOf _ := none
  serverCertSha256 := 0
  ttlSecs := 3600

def serviceTemplate : TbsCertificate := { laptopTemplate with kind := .service }

def serviceCsr : Csr where
  tbsTemplate := serviceTemplate.encode
  proof := transparentSignature [11] .csr serviceTemplate.encode
  tlsCsrPem := ""
  hardwareBinding := []

def fixedCa (names : List SanType) : CaWorld transparentHybrid :=
  { smallCa with signTlsCsr := signTlsCsr (fixedX509 names) }

/-- The certificate of service `control` is that of a service. -/
theorem identity_unambiguous_control : ∃ issued,
    let names : List SanType := [.uri "spiffe://avon/service/control"]
    let caller : Caller := ⟨some [issued.tlsCertDer], none⟩
    issueServiceCredential transparentHybrid (fixedCa names) 3 serviceCsr "control"
    [] = .ok issued ∧
      (gatewayId (fixedEnv names) caller).toOption = none ∧
      (requireDevice (fixedEnv names) caller).toOption = none := by
  let names : List SanType := [.uri "spiffe://avon/service/control"]
  obtain ⟨issued, hissued, -⟩ := exists_ok (p := fun _ => true)
    (x := issueServiceCredential transparentHybrid (fixedCa names) 3 serviceCsr "control" [])
    (by decide +kernel)
  obtain ⟨-, -, -, hcert⟩ := (identity_unambiguous_iff hexUuid hexUuid_uuidText (fixedX509 names)
    (fixedX509_readsBack names) (fixedEnv names) rfl "control").mpr (by decide)
  exact ⟨issued, hissued, hcert _ _ _ _ _ _ _ rfl hissued rfl⟩

/-- With the name `gateway/` and an id, the service passes for that gateway. -/
theorem service_named_gateway :
    let name := "gateway/00000000-0000-0000-0000-000000000009"
    let names : List SanType := [.uri (service name).raw]
    (parse hexUuid (service name).raw = .ok (SpiffeId.gateway 9)) ∧
      (issueServiceCredential transparentHybrid (fixedCa names) 3 serviceCsr name []).toOption.any
        (fun issued => (gatewayId (fixedEnv names) ⟨some [issued.tlsCertDer], none⟩).toOption =
          some 9) = true := by
  refine ⟨?_, ?_⟩ <;> decide +kernel

end Avon.Control.Identity
