import FleetosControl.Admin.Service

/-! Who gets a connection. The identity of the certificate is looked up in the revoked set once; a
peer without a certificate is let in unauthenticated. -/
namespace FleetosControl

inductive TrustDomainRole where
  | dataControl | admin
  deriving DecidableEq

structure TrustDomainConfig where
  dataControl : String
  admin : String

def TrustDomainConfig.expectedDomain (config : TrustDomainConfig) : TrustDomainRole → String
  | .dataControl => config.dataControl
  | .admin => config.admin

inductive TlsError where
  | trustDomainMismatch (expected actual : String)
  | identityKindMismatch (expected actual : String)
  | spiffeParse (text : String)
  deriving DecidableEq

def TlsError.display : TlsError → String
  | .trustDomainMismatch expected actual => "trust domain mismatch: expected " ++ expected ++ ", got " ++ actual
  | .identityKindMismatch expected actual => "identity kind rejected: expected " ++ expected ++ ", got " ++ actual
  | .spiffeParse text => "failed to parse SPIFFE ID: " ++ text

def afterScheme (spiffeId : String) : Option (List Char) :=
  if "spiffe://".toList.isPrefixOf spiffeId.toList then some (spiffeId.toList.drop 9) else none

def extractTrustDomain (spiffeId : String) : Option String :=
  (afterScheme spiffeId).map fun rest => String.ofList (rest.takeWhile (· ≠ '/'))

def kindOfSegments : List (List Char) → Option String
  | ns :: _ :: kind :: _ :: _ => if ns = ['n','s'] then some (String.ofList kind) else none
  | _ => none

def extractIdentityKind (spiffeId : String) : Option String :=
  (afterScheme spiffeId).bind fun rest =>
    match rest.dropWhile (· ≠ '/') with
    | [] => none
    | _ :: path => kindOfSegments (path.splitOn '/')

def TrustDomainRole.kinds : TrustDomainRole → List String
  | .dataControl => ["node","sa","router","gateway","control"]
  | .admin => ["ctrl","operator"]

def validatePeerIdentity (spiffeId : String) (role : TrustDomainRole) (config : TrustDomainConfig) :
    Except TlsError Unit :=
  match extractTrustDomain spiffeId with
  | none => .error (.spiffeParse ("cannot extract trust domain from: " ++ spiffeId))
  | some trustDomain =>
    if trustDomain ≠ config.expectedDomain role then
      .error (.trustDomainMismatch (config.expectedDomain role) trustDomain)
    else
      match extractIdentityKind spiffeId with
      | some kind =>
        if role.kinds.contains kind then .ok ()
        else .error (.identityKindMismatch ("/".intercalate role.kinds) kind)
      | none => .error (.spiffeParse "cannot extract identity kind from SPIFFE ID")

def isSvidRevoked (storage : Disk) (spiffeId : String) : Bool := (storage .revokedSvids)[asBytes spiffeId]?.isSome

variable [FleetosCore]

def acceptPeer (config : TrustDomainConfig) (storage : Disk) (peerCert : Option (Except String SpiffeId)) :
    Except String Peer :=
  match peerCert with
  | none => .ok none
  | some (.error e) => .error e
  | some (.ok id) =>
    match validatePeerIdentity (display id) .dataControl config with
    | .error e => .error e.display
    | .ok () =>
      if isSvidRevoked storage (display id) then .error "peer SVID has been revoked" else .ok (some id)

theorem acceptPeer_not_revoked {config storage id} (ok : acceptPeer config storage (some (.ok id)) = .ok (some id)) :
    isSvidRevoked storage (display id) = false := by
  unfold acceptPeer at ok
  simp only at ok
  split at ok
  · cases ok
  · split at ok
    · cases ok
    case isFalse clear => simpa using clear

end FleetosControl
