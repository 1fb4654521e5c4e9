import Clavex.Pool
import Clavex.SingleFlight
import Clavex.StatusList

/-!
# The status resolver

`StatusResolver.Check` and `checkCRL` share one cache and one set of fetches in flight. Each
section under the mutex is one operation, and so is each reading of the clock and each answer
of a server. The two maps of cached objects are one table whose keys also say the kind, and
so are the two maps of flights.
-/

namespace Clavex

/-! ## Certificates -/

structure X509Extension where
  id : List Nat
  critical : Bool
  value : Bytes

structure X509Certificate where
  raw : Bytes
  serialNumber : Option Int
  (rawSubject subjectKeyID : Bytes)
  extensions : List X509Extension

structure RevokedCertificate where
  serialNumber : Option Int
  (reasonCode revocationTime : Int)
  extensions : List X509Extension

inductive CRLAlgorithm where
  | sha256WithRSA
  | sha384WithRSA
  | sha512WithRSA
  | sha256WithRSAPSS
  | sha384WithRSAPSS
  | sha512WithRSAPSS
  | ecdsaWithSHA256
  | ecdsaWithSHA384
  | ecdsaWithSHA512
  | pureEd25519
  | other
  deriving DecidableEq

structure RevocationList where
  rawIssuer : Bytes
  signatureAlgorithm : CRLAlgorithm
  authorityKeyID : Bytes
  (thisUpdate nextUpdate : Int)
  extensions : List X509Extension
  revoked : List RevokedCertificate

structure PemBlock where
  type : String
  bytes : Bytes
  restBlank : Bool

structure ASN1Value where
  cls : Nat := 0
  tag : Nat
  isCompound : Bool := false
  bytes : Bytes

structure CRLLib where
  fingerprint : Bytes → String
  pemDecode : Bytes → Option PemBlock
  parseRevocationList : Bytes → Option RevocationList
  checkSignatureFrom : RevocationList → X509Certificate → Bool
  marshalASN1 : ASN1Value → Option Bytes

structure CRLSource where
  (issuerSHA256 uri : String)
  maxAgeSeconds : Int := 0
  cacheSeconds : Option Int := none

def CRLSource.json (s : CRLSource) : Json :=
  .obj ([("issuer_sha256", .str s.issuerSHA256), ("uri", .str s.uri)] ++
    (if s.maxAgeSeconds = 0 then [] else [("max_age_seconds", .num s.maxAgeSeconds 0)]) ++
    (match s.cacheSeconds with
      | none => []
      | some n => [("cache_seconds", .num n 0)]))

structure CachedCRL where
  revoked : List Int
  distributionPoint : Bytes
  freshUntil : Int
  size : Nat

/-! ## Objects, responses and state -/

inductive ObjectKind where
  | list
  | crl
  deriving DecidableEq

abbrev ObjectKey := ObjectKind × String

inductive StatusObject where
  | list (l : ValidatedStatusList)
  | crl (c : CachedCRL)

def StatusObject.isList : StatusObject → Bool
  | .list _ => true
  | .crl _ => false

def StatusObject.size : StatusObject → Nat
  | .list l => l.data.length
  | .crl c => c.size

def StatusObject.freshUntil : StatusObject → Int
  | .list l => l.freshUntil
  | .crl c => c.freshUntil

structure HTTPResponse where
  statusCode : Nat := 200
  contentType : String
  contentEncoding : String := ""
  contentLength : Int := -1
  caching : CacheHeaders := {}
  body : Bytes
  readFails : Bool := false

abbrev StatusFlight := Flight ObjectKey String

abbrev StatusCache := Cached ObjectKey StatusObject

/-- `received` are the responses of the servers so far, each with the scope and the URI it was
requested for. -/
structure StatusResolver where
  clock : Int
  loader : Loader ObjectKey String StatusObject StatusError
  received : List (String × String × HTTPResponse)

def newStatusResolver (now : Int) : StatusResolver := ⟨now, .empty, []⟩

def resolverLimits : LoadLimits := ⟨128, 16 * 1024 * 1024, 32, 4⟩

/-! ## Operations -/

/-- Operations of a fetch name the flight they are carried out for. `enter` has the time the
caller has read, or reads the clock itself. -/
inductive ResolverOp where
  | ctxErr
  | now
  | enter (key : ObjectKey) (scope : String) (at_ : Option Int)
  | await (f : StatusFlight)
  | get (f : StatusFlight) (uri : String)
  | fetchNow (f : StatusFlight)
  | leave (f : StatusFlight) (r : Except StatusError (Loaded StatusObject))

abbrev ResolverOp.Resp : ResolverOp → Type
  | .ctxErr => Bool
  | .now => Int
  | .enter .. => Int × Admission ObjectKey String StatusObject
  | .await _ => Option (Except StatusError StatusObject)
  | .get .. => Option HTTPResponse
  | .fetchNow _ => Int
  | .leave .. => Unit

structure ResolverEnv where
  cancelled : Bool := false
  response : Option HTTPResponse := none
  order : MapOrder StatusCache

def evictOrder (ord : MapOrder StatusCache) : MapOrder StatusCache where
  range i l := ord.range i (l.filter fun c => c.item.isList) ++ ord.range i (l.filter fun c => !c.item.isList)
  perm i l := ((ord.perm i _).append (ord.perm i _)).trans (List.filter_append_perm _ l)

def stampUse (now : Int) (l : Loaded StatusObject) : Loaded StatusObject :=
  if l.item.isList then { l with lastUse := now } else l

def resolverSem (env : ResolverEnv) : (op : ResolverOp) → StatusResolver → op.Resp × StatusResolver
  | .ctxErr, s => (env.cancelled, s)
  | .now, s => (s.clock, s)
  | .enter key scope at_, s =>
    ((at_.getD s.clock, (s.loader.enter resolverLimits key scope (at_.getD s.clock)).1),
      { s with loader := (s.loader.enter resolverLimits key scope (at_.getD s.clock)).2 })
  | .await f, s => (if env.cancelled then none else s.loader.outcome f, s)
  | .get f uri, s =>
    match env.response with
    | none => (none, s)
    | some response => (some response, { s with received := (f.scope, uri, response) :: s.received })
  | .fetchNow _, s => (s.clock, s)
  | .leave f r, s =>
    ((), { s with
      loader := s.loader.leave resolverLimits (evictOrder env.order) f s.clock (r.map (stampUse s.clock)) })

abbrev ResolverProg := Prog ResolverOp ResolverOp.Resp StatusError

/-! ## Looking an object up -/

structure Decision where
  decidedAt : Int
  cached : Bool

def settle (judge : StatusObject → Except StatusError Unit) (obj : StatusObject) : ResolverProg Decision := do
  let now ← Prog.call ResolverOp.now
  Prog.require (now < obj.freshUntil) .unavailable
  Prog.ofExcept (judge obj)
  .ret ⟨now, false⟩

def lookupObject (key : ObjectKey) (scope : String) (at_ : Option Int)
    (load : StatusFlight → ResolverProg (Loaded StatusObject)) (judge : StatusObject → Except StatusError Unit) :
    ResolverProg Decision := do
  match ← Prog.call (ResolverOp.enter key scope at_) with
  | (now, .hit c) => do
    Prog.ofExcept (judge c.item)
    .ret ⟨now, true⟩
  | (_, .wait f) => do
    match ← Prog.call (ResolverOp.await f) with
    | none => .fail .unavailable
    | some (.error e) => .fail e
    | some (.ok obj) => settle judge obj
  | (_, .busy) => .fail .unavailable
  | (_, .opened f) => do
    let r ← (load f).attempt
    Prog.call (ResolverOp.leave f r)
    match r with
    | .error e => .fail e
    | .ok l => settle judge l.item

section
variable {K : Type} (L : StatusLib K)

def readBody (limit : Nat) (medias : List String) (r : HTTPResponse) : Except StatusError Bytes :=
  if r.statusCode ≠ 200 then .error .unavailable
  else
    match L.parseMediaType r.contentType with
    | none => .error .invalid
    | some media =>
      if media ∉ medias then .error .invalid
      else if r.contentEncoding ≠ "" ∧ r.contentEncoding ≠ "identity" then .error .invalid
      else if (limit : Int) < r.contentLength then .error .invalid
      else if r.readFails then .error .unavailable
      else if limit < r.body.length then .error .invalid
      else .ok r.body

def fetchResponse (f : StatusFlight) (uri : String) : ResolverProg HTTPResponse :=
  match L.parseURL uri with
  | none => .fail .invalid
  | some _ => do
    match ← Prog.call (ResolverOp.get f uri) with
    | none => .fail .unavailable
    | some response => .ret response

def cacheTime (seconds : Option Int) : Int := seconds.getD 60 * nsPerSecond

/-! ## Status lists -/

def StatusSource.maxAge (s : StatusSource) : Int :=
  (if s.maxAgeSeconds = 0 then 300 else s.maxAgeSeconds) * nsPerSecond

def StatusSource.policy (s : StatusSource) : StatusValidationPolicy := ⟨s.requireIssuerClaim, s.requireExpiration⟩

def statusBody (r : HTTPResponse) : Except StatusError Bytes :=
  readBody L (512 * 1024) ["application/statuslist+jwt"] r

def validateFor (source : StatusSource) (uri : String) (body : Bytes) (key : K) (now : Int) :
    Except StatusError ValidatedStatusList :=
  validateStatusListToken L body (buildStatusClaim uri 0) source.statusIssuer key now source.maxAge source.policy

def tryKeys (f : StatusFlight) (source : StatusSource) (uri : String) (body : Bytes) (kid : String) :
    List (StatusJWK K) → ResolverProg ValidatedStatusList
  | [] => .fail .invalid
  | key :: keys =>
    if kid ≠ "" ∧ key.kid ≠ kid then tryKeys f source uri body kid keys
    else
      match key.raw with
      | none => tryKeys f source uri body kid keys
      | some public_ => do
        let now ← Prog.call (ResolverOp.fetchNow f)
        match validateFor L source uri body public_ now with
        | .ok list => .ret list
        | .error _ => tryKeys f source uri body kid keys

def fetchDeadline (f : StatusFlight) (source : StatusSource) (list : ValidatedStatusList) (response : HTTPResponse) :
    ResolverProg (Loaded StatusObject) := do
  let cacheAt ← Prog.call (ResolverOp.fetchNow f)
  let httpAt ← Prog.call (ResolverOp.fetchNow f)
  let deadline ← Prog.ofExcept
    (httpCacheDeadline response.caching httpAt (earlier (cacheAt + cacheTime source.cacheSeconds) list.freshUntil))
  .ret ⟨.list list, list.data.length, deadline, httpAt⟩

def fetch (source : StatusSource) (uri : String) (f : StatusFlight) : ResolverProg (Loaded StatusObject) := do
  let response ← fetchResponse L f uri
  let body ← Prog.ofExcept (statusBody L response)
  match L.parseJWS body with
  | some [head] =>
    match source.keys L with
    | none => .fail .unavailable
    | some keys => do
      let list ← tryKeys L f source uri body head.kid keys
      fetchDeadline f source list response
  | _ => .fail .invalid

def judgeList (index : Int) : StatusObject → Except StatusError Unit
  | .list l => l.check index
  | .crl _ => .error .unknown

def check (scope : String) (source : StatusSource) (ref : StatusClaim) : ResolverProg Decision := do
  let cancelled ← Prog.call ResolverOp.ctxErr
  Prog.require (cancelled = false) .unavailable
  Prog.require (scope ≠ "" ∧ scope.utf8ByteSize ≤ 1024) .invalid
  Prog.require (source.validate L = true) (.detailed .unavailable "invalid status policy")
  Prog.require (ref.statusList.uri ∈ source.listURIs) .invalid
  Prog.require ((statusURL L ref.statusList.uri).isSome = true) .invalid
  let now ← Prog.call ResolverOp.now
  lookupObject (.list, statusCacheKey L scope source ref.statusList.uri) scope (some now)
    (fetch L source ref.statusList.uri) (judgeList ref.statusList.idx)

/-! ## Certificate revocation lists -/

variable (X : CRLLib)

def crlURL (raw : String) : Bool :=
  match L.parseURL raw with
  | none => false
  | some u =>
    decide (raw.utf8ByteSize ≤ 2048) && decide (u.hostname ≠ "") && decide (u.scheme = "https" ∨ u.scheme = "http") &&
      !u.hasUser && decide (u.rawQuery = "") && decide (u.fragment = "") && decide (u.opaquePart = "")

def serialOK (n : Int) : Bool := decide (0 < n) && decide (n < 2 ^ 160)

def uriIssuingDistributionPoint (uri : String) : Option Bytes := do
  let encoded ← X.marshalASN1 { cls := 2, tag := 6, bytes := utf8 uri }
  let encoded ← X.marshalASN1 { cls := 2, tag := 0, isCompound := true, bytes := encoded }
  let encoded ← X.marshalASN1 { cls := 2, tag := 0, isCompound := true, bytes := encoded }
  X.marshalASN1 { tag := 16, isCompound := true, bytes := encoded }

def crlExtensions (uri : String) : Option Bytes → List X509Extension → Except StatusError (Option Bytes)
  | point, [] => .ok point
  | point, x :: xs =>
    if x.id = [2, 5, 29, 27] then
      .error (.detailed .invalid "delta CRL is unsupported by the direct-CRL profile")
    else if x.id = [2, 5, 29, 28] then
      match uriIssuingDistributionPoint X uri with
      | none => .error (.detailed .invalid "unsupported or mismatched CRL distribution point")
      | some expected =>
        if point.isSome ∨ x.value ≠ expected then
          .error (.detailed .invalid "unsupported or mismatched CRL distribution point")
        else
          match X.marshalASN1 { tag := 16, isCompound := true, bytes := expected } with
          | none => .error .invalid
          | some point => crlExtensions uri (some point) xs
    else if x.critical ∧ x.id ≠ [2, 5, 29, 35] ∧ x.id ≠ [2, 5, 29, 20] then .error .invalid
    else crlExtensions uri point xs

def parseCRL (issuer : X509Certificate) (body : Bytes) : Except StatusError (Bytes × RevocationList) :=
  let der : Except StatusError Bytes :=
    match X.pemDecode body with
    | none => .ok body
    | some block => if block.type ≠ "X509 CRL" ∨ block.restBlank = false then .error .invalid else .ok block.bytes
  match der with
  | .error e => .error e
  | .ok der =>
    match X.parseRevocationList der with
    | none => .error .invalid
    | some crl =>
      if X.checkSignatureFrom crl issuer = false ∨ crl.rawIssuer ≠ issuer.rawSubject then .error .invalid
      else if crl.signatureAlgorithm = .other then .error .invalid
      else if crl.authorityKeyID ≠ [] ∧ crl.authorityKeyID ≠ issuer.subjectKeyID then .error .invalid
      else .ok (der, crl)

def revokedSerials (f : StatusFlight) : List Int → List RevokedCertificate → ResolverProg (List Int)
  | seen, [] => .ret seen
  | seen, r :: rs =>
    match r.serialNumber with
    | none => .fail .invalid
    | some n => do
      Prog.require (serialOK n = true ∧ r.reasonCode ≠ 8) .invalid
      let now ← Prog.call (ResolverOp.fetchNow f)
      Prog.require (r.revocationTime ≤ now + 30 * nsPerSecond) .invalid
      Prog.require (r.extensions.all (fun x => !x.critical && decide (x.id ≠ [2, 5, 29, 29])) = true) .invalid
      Prog.require (n ∉ seen) .invalid
      revokedSerials f (n :: seen) rs

def CRLSource.maxAge (s : CRLSource) : Int :=
  (if s.maxAgeSeconds = 0 then 86400 else s.maxAgeSeconds) * nsPerSecond

def crlBody (r : HTTPResponse) : Except StatusError Bytes :=
  readBody L (2 * 1024 * 1024) ["application/pkix-crl", "application/x-pkcs7-crl", "application/octet-stream"] r

def crlWindow (f : StatusFlight) (source : CRLSource) (crl : RevocationList) : ResolverProg Unit := do
  let now ← Prog.call (ResolverOp.fetchNow f)
  Prog.require (crl.thisUpdate ≠ zeroTime ∧ crl.nextUpdate ≠ zeroTime ∧ crl.thisUpdate ≤ now + 30 * nsPerSecond ∧
    crl.thisUpdate < crl.nextUpdate) .invalid
  let now ← Prog.call (ResolverOp.fetchNow f)
  Prog.require (now < crl.nextUpdate) .invalid
  let now ← Prog.call (ResolverOp.fetchNow f)
  Prog.require (now < crl.thisUpdate + source.maxAge) .invalid

def fetchCRL (source : CRLSource) (issuer : X509Certificate) (f : StatusFlight) : ResolverProg (Loaded StatusObject) := do
  let response ← fetchResponse L f source.uri
  let body ← Prog.ofExcept (crlBody L response)
  let parsed ← Prog.ofExcept (parseCRL X issuer body)
  crlWindow f source parsed.2
  let point ← Prog.ofExcept (crlExtensions X source.uri none parsed.2.extensions)
  Prog.require (parsed.2.revoked.length ≤ 100000) .invalid
  let lastUse ← Prog.call (ResolverOp.fetchNow f)
  let freshUntil := earlier (parsed.2.thisUpdate + source.maxAge) parsed.2.nextUpdate
  let cacheAt ← Prog.call (ResolverOp.fetchNow f)
  let revoked ← revokedSerials f [] parsed.2.revoked
  let httpAt ← Prog.call (ResolverOp.fetchNow f)
  let deadline ← Prog.ofExcept
    (httpCacheDeadline response.caching httpAt (earlier (cacheAt + cacheTime source.cacheSeconds) freshUntil))
  let now ← Prog.call (ResolverOp.fetchNow f)
  Prog.require (now < freshUntil) .unavailable
  let entry : CachedCRL := ⟨revoked, point.getD [], freshUntil, parsed.1.length + parsed.2.revoked.length * 256⟩
  .ret ⟨.crl entry, entry.size, deadline, lastUse⟩

def CachedCRL.checkCertificate (e : CachedCRL) (cert : X509Certificate) : Except StatusError Unit :=
  let covered := cert.extensions.foldl
    (fun m x => if x.id = [2, 5, 29, 31] then decide (x.value = e.distributionPoint) else m) false
  if e.distributionPoint ≠ [] ∧ covered = false then .error .invalid
  else if cert.serialNumber.any (fun n => decide (n ∈ e.revoked)) then .error .revoked
  else .ok ()

def judgeCRL (cert : X509Certificate) : StatusObject → Except StatusError Unit
  | .crl c => c.checkCertificate cert
  | .list _ => .error .unknown

def crlCacheKey (scope : String) (source : CRLSource) : String :=
  L.digest (.arr [.str "crl", .str scope, source.json])

def checkCRL (scope : String) (source : CRLSource) (issuer cert : X509Certificate) : ResolverProg Decision := do
  Prog.require (crlURL L source.uri = true ∧ source.issuerSHA256 = X.fingerprint issuer.raw ∧
    cert.serialNumber.any serialOK = true) .invalid
  lookupObject (.crl, crlCacheKey L scope source) scope none (fetchCRL L X source issuer) (judgeCRL cert)

/-! ## Concurrent calls -/

inductive StatusReq where
  | check (scope : String) (source : StatusSource) (ref : StatusClaim)
  | crl (scope : String) (source : CRLSource) (issuer cert : X509Certificate)

def resolverSystem : System StatusReq ResolverOp ResolverOp.Resp StatusError Decision StatusResolver ResolverEnv Nat where
  main
    | .check scope source ref => check L scope source ref
    | .crl scope source issuer cert => checkCRL L X scope source issuer cert
  sem := resolverSem
  other := fun n s => { s with clock := s.clock + n }

abbrev ResolverPool := Pool StatusReq ResolverOp ResolverOp.Resp StatusError Decision StatusResolver

abbrev ResolverMove := PoolMove StatusReq ResolverEnv Nat

def ResolverOp.flight : ResolverOp → Option StatusFlight
  | .get f _ | .fetchNow f | .leave f _ => some f
  | _ => none

def fetching (p : ResolverPool) (i : Nat) : Option StatusFlight := (p.next i).bind fun x => x.2.flight

end

end Clavex
