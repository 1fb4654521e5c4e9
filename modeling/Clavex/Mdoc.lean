import Clavex.Json
import Clavex.Merkle
import Clavex.Rows

/-!
# Mobile documents

`VerifyDeviceResponse` checks the documents a wallet sends: the issuer's COSE signature over the
mobile security object (MSO) and its certificate chain, the digests of the disclosed items, and
the signature of the device over the session. CBOR, hashes, ECDSA and X.509 are left to the
libraries. Times are in nanoseconds since the zero time.
-/

namespace Clavex

/-! ## Values -/

/-- What is encoded. `raw` is a `cbor.RawMessage`, which is written as it is. -/
inductive CborValue where
  | text (s : String)
  | bytes (b : Bytes)
  | raw (b : Bytes)
  | arr (items : List CborValue)
  | tag (number : Nat) (content : CborValue)

/-- What is decoded into an `any`. `scalar` is a value without parts, other than text; members of
maps are in the order in which they are ranged over. -/
inductive CborAny where
  | text (s : String)
  | scalar (raw : Bytes)
  | arr (items : List CborAny)
  | strMap (members : List (String × CborAny))
  | anyMap (members : List (CborAny × CborAny))
  | tag (number : Nat) (content : CborAny)

structure RawTag where
  number : Nat
  content : Bytes

structure CoseSign1 where
  (protectedHeader unprotected payload signature : Bytes := [])

structure COSEKey where
  (keyType curve : Int := 0)
  (x y : Bytes := [])

structure ValidityInfo where
  (signed validFrom validUntil : Int := 0)

abbrev DigestMap := Finmap fun _ : Nat => Bytes

structure MSO where
  (version digestAlgorithm : String := "")
  valueDigests : GoMap DigestMap := ∅
  deviceKey : COSEKey := {}
  docType : String := ""
  validityInfo : ValidityInfo := {}
  (status statusList : Bytes := [])

structure IssuerSignedItem where
  digestID : Nat
  elementIdentifier : String
  elementValue : Bytes

structure MdocDocument where
  docType : String
  nameSpaces : Rows fun kv : String × List Bytes => kv.1
  (issuerAuth deviceNameSpaces : Bytes)
  (deviceSignature deviceMac errors : Bytes := [])

structure DeviceResponse where
  version : String
  documents : List MdocDocument
  documentErrors : Bytes := []
  status : Nat := 0

inductive EllipticCurve where
  | p224
  | p256
  | p384
  | p521
deriving DecidableEq

def EllipticCurve.bitSize : EllipticCurve → Nat
  | .p224 => 224
  | .p256 => 256
  | .p384 => 384
  | .p521 => 521

def EllipticCurve.size (c : EllipticCurve) : Nat := (c.bitSize + 7) / 8

structure ECPublicKey where
  curve : EllipticCurve
  point : Bytes

inductive CertKey where
  | ecdsa (key : ECPublicKey)
  | other

structure SignerCertificate where
  raw : Bytes
  (notBefore notAfter : Int)
  (isCA digitalSignature : Bool)
  publicKey : CertKey

structure ChainOptions (R : Type) where
  roots : R
  intermediates : List SignerCertificate
  currentTime : Int

structure MdocOptions (R : Type) where
  trustedRoots : Option R := none
  expectedNonce : String := ""
  sessionTranscript : Bytes := []
  (requireTrustedIssuer requireDeviceAuth : Bool := false)
  now : Option Int := none
  allowExpiredDocuments : Bool := false

structure VerifiedDocument where
  docType : String
  attributes : GoMap (GoMap CborAny)
  issuerCert : SignerCertificate
  deviceKey : Option ECPublicKey
  (validFrom validUntil : Int)
  verifiedChains : List (List SignerCertificate)
  status : Option Json
  issuerAuthHash : String

/-- `Unmarshal` for every type it is called with, `Marshal`, and what else is left to libraries.
Where a value is decoded into again after an error, `Unmarshal` takes the value that is there
and gives the one that is there then, with the error. -/
structure MdocLib (R : Type) where
  unmarshalSign1 : CoseSign1 → Bytes → CoseSign1 × Option String
  unmarshalMSO : MSO → Bytes → MSO × Option String
  unmarshalTag : Bytes → Except String RawTag
  unmarshalHeaders : Bytes → Except String (Finmap fun _ : Int => Bytes)
  unmarshalBytes : Bytes → Except String Bytes
  unmarshalByteStrings : Bytes → Except String (List Bytes)
  unmarshalInt : Bytes → Except String Int
  unmarshalItem : Bytes → Except String IssuerSignedItem
  unmarshalString : Bytes → Except String String
  unmarshalAny : Bytes → Except String CborAny
  unmarshalArray : Bytes → Except String (List Bytes)
  unmarshalMap : Bytes → Except String (GoMap Bytes)
  unmarshalUnique : Bytes → Option (GoMap Bytes)
  unmarshalStatusRef : Bytes → Option (Option Nat × Option String)
  marshal : CborValue → Except String Bytes
  sprint : CborAny → String
  formatTime : Int → String
  (sum256 sum384 sum512 : Bytes → Bytes)
  parseCertificate : Bytes → Except String SignerCertificate
  verifyChain : ChainOptions R → SignerCertificate → Except String (List (List SignerCertificate))
  parsePoint : EllipticCurve → Bytes → Except String ECPublicKey
  pointBytes : ECPublicKey → Except String Bytes
  verifySignature : ECPublicKey → Bytes → Nat → Nat → Bool

/-! ## Errors -/

def refuseIf (c : Prop) [Decidable c] (msg : String) : Except String Unit := if c then .error msg else .ok ()

def wrapError {α : Type} (msg : String) (x : Except String α) : Except String α := x.mapError (msg ++ ·)

theorem refuseIf_ok {c} [Decidable c] {msg} {u} (h : refuseIf c msg = .ok u) : ¬ c := by
  intro hc
  rw [refuseIf, if_pos hc] at h
  cases h

theorem wrapError_ok {α} {msg} {x} {a : α} (h : wrapError msg x = .ok a) : x = .ok a := by
  cases x with
  | error e => cases h
  | ok b => exact h

section
variable {R : Type} (L : MdocLib R)

/-! ## COSE -/

variable (raw : Bytes)

def decodeCOSESign1 : Except String CoseSign1 :=
  match L.unmarshalSign1 {} raw with
  | (sig, none) => if 0 < sig.protectedHeader.length then .ok sig else stripped sig
  | (sig, some _) => stripped sig
where
  stripped (sig : CoseSign1) : Except String CoseSign1 := do
    let tagged ← wrapError "COSE_Sign1 decode: " (L.unmarshalTag raw)
    refuseIf (tagged.number ≠ 18) ("COSE_Sign1: unexpected tag " ++ toString tagged.number ++ " (want 18)")
    match L.unmarshalSign1 sig tagged.content with
    | (sig, none) => return sig
    | (_, some e) => .error ("COSE_Sign1 inner decode: " ++ e)

def extractX5ChainCerts : Except String (List Bytes) :=
  if raw = [] then .ok []
  else do
    let headers ← wrapError "mdoc: malformed COSE headers: " (L.unmarshalHeaders raw)
    match headers.lookup 33 with
    | none => return []
    | some value =>
      match L.unmarshalBytes value with
      | .ok (b :: bs) => return [b :: bs]
      | _ =>
        match L.unmarshalByteStrings value with
        | .error _ => .error "mdoc: invalid x5chain"
        | .ok chain =>
          refuseIf (chain = [] ∨ 10 < chain.length) "mdoc: invalid x5chain"
          refuseIf ([] ∈ chain) "mdoc: empty x5chain certificate"
          return chain

def certificateChain (sig1 : CoseSign1) : Except String (List Bytes) := do
  let chain ← extractX5ChainCerts L sig1.protectedHeader
  let other ← extractX5ChainCerts L sig1.unprotected
  refuseIf (0 < chain.length ∧ 0 < other.length) "mdoc: ambiguous x5chain"
  return if chain.length = 0 then other else chain

def extractIssuerCert (sig1 : CoseSign1) (roots : Option R) (now : Int) :
    Except String (SignerCertificate × List (List SignerCertificate)) := do
  match ← certificateChain L sig1 with
  | [] => .error "mdoc: issuer x5chain is required"
  | leaf :: rest =>
    let cert ← L.parseCertificate leaf
    refuseIf (now < cert.notBefore ∨ cert.notAfter < now ∨ cert.isCA = true ∨ cert.digitalSignature = false)
      "mdoc: invalid document signer certificate"
    match roots with
    | none => return (cert, [])
    | some roots =>
      let intermediates ← rest.mapM L.parseCertificate
      let chains ← wrapError "mdoc: issuer certificate trust: " (L.verifyChain ⟨roots, intermediates, now⟩ cert)
      return (cert, chains)

def protectedAlgorithm : Except String Int := do
  let headers ← L.unmarshalHeaders raw
  refuseIf ((headers.lookup 2).isSome = true) "mdoc: unsupported critical COSE headers"
  match L.unmarshalInt ((headers.lookup 1).getD []) with
  | .error _ => .error "mdoc: protected algorithm is required"
  | .ok algorithm => return algorithm

def beNat (b : Bytes) : Nat := b.foldl (fun n x => n * 256 + x.toNat) 0

def coseAlgorithm (alg : Int) : Option (EllipticCurve × (Bytes → Bytes)) :=
  if alg = -7 then some (.p256, L.sum256)
  else if alg = -35 then some (.p384, L.sum384)
  else if alg = -36 then some (.p521, L.sum512)
  else none

def sigStructure (protectedHeader payload : Bytes) : CborValue :=
  .arr [.text "Signature1", .bytes protectedHeader, .bytes [], .raw payload]

def verifyCOSESign1 (sig1 : CoseSign1) (alg : Int) (pub : CertKey) : Except String Unit := do
  let toBeSigned ← wrapError "Sig_Structure encode: " (L.marshal (sigStructure sig1.protectedHeader sig1.payload))
  match pub with
  | .other => .error "issuer public key is not ECDSA"
  | .ecdsa key =>
    match coseAlgorithm L alg with
    | none => .error ("unsupported COSE algorithm: " ++ toString alg)
    | some (curve, hash) =>
      refuseIf (key.curve ≠ curve ∨ sig1.signature.length ≠ 2 * curve.size) "mdoc: invalid ECDSA key, curve or signature length"
      let _ ← wrapError "mdoc: invalid issuer public point: " (L.pointBytes key)
      refuseIf (sig1.signature.length < 2) "signature too short"
      let half := sig1.signature.length / 2
      refuseIf (L.verifySignature key (hash toBeSigned) (beNat (sig1.signature.take half)) (beNat (sig1.signature.drop half)) = false)
        "ECDSA signature verification failed"

/-! ## The mobile security object -/

def untagged (payload : Bytes) : Bytes :=
  match L.unmarshalTag payload with
  | .ok tag => if tag.number = 24 then tag.content else payload
  | .error _ => payload

def decodeMSO (payload : Bytes) : Except String MSO :=
  match L.unmarshalBytes (untagged L payload) with
  | .error err =>
    match L.unmarshalMSO {} (untagged L payload) with
    | (mso, none) => .ok mso
    | (_, some err2) => .error ("MSO decode (bstr path: " ++ err ++ ", map path: " ++ err2 ++ ")")
  | .ok msoBytes =>
    match L.unmarshalMSO {} msoBytes with
    | (mso, none) => .ok mso
    | (mso, some err) =>
      match L.unmarshalBytes msoBytes with
      | .error _ => .error ("MSO inner decode: " ++ err)
      | .ok msoBytes2 =>
        match L.unmarshalMSO mso msoBytes2 with
        | (mso, none) => .ok mso
        | (_, some err3) => .error ("MSO inner decode: " ++ err3)

/-! ## Disclosed items -/

mutual
def sanitizeCBORValue : CborAny → CborAny
  | .tag number content =>
    if number = 0 ∨ number = 1004 then
      match content with
      | .text s => .text s
      | content => sanitizeCBORValue content
    else sanitizeCBORValue content
  | .anyMap members => .strMap (sanitizeKeyed members)
  | .strMap members => .strMap (sanitizeMembers members)
  | .arr items => .arr (sanitizeItems items)
  | .text s => .text s
  | .scalar raw => .scalar raw
def sanitizeItems : List CborAny → List CborAny
  | [] => []
  | v :: items => sanitizeCBORValue v :: sanitizeItems items
def sanitizeMembers : List (String × CborAny) → List (String × CborAny)
  | [] => []
  | (k, v) :: members => (k, sanitizeCBORValue v) :: sanitizeMembers members
def sanitizeKeyed : List (CborAny × CborAny) → List (String × CborAny)
  | [] => []
  | (k, v) :: members => (L.sprint k, sanitizeCBORValue v) :: sanitizeKeyed members
end

def taggedDate : Option String :=
  match L.unmarshalTag raw with
  | .error _ => none
  | .ok tag =>
    if tag.number = 0 ∨ tag.number = 1004 then
      match L.unmarshalString tag.content with
      | .ok s => some s
      | .error _ => none
    else none

def decodeCBORValue : Except String CborAny :=
  match taggedDate L raw with
  | some s => .ok (.text s)
  | none =>
    match L.unmarshalAny raw with
    | .error e => .error e
    | .ok v => .ok (sanitizeCBORValue L v)

def decodeIssuerSignedItem : Except String (IssuerSignedItem × Bytes) := do
  let tag ← wrapError "IssuerSignedItem tag: " (L.unmarshalTag raw)
  refuseIf (tag.number ≠ 24) ("IssuerSignedItem: expected tag 24, got " ++ toString tag.number)
  let itemBytes ← wrapError "IssuerSignedItem bstr: " (L.unmarshalBytes tag.content)
  let item ← wrapError "IssuerSignedItem decode: " (L.unmarshalItem itemBytes)
  return (item, itemBytes)

def digestIssuerSignedItem (algorithm : String) : Except String Bytes :=
  if algorithm = "SHA-256" then .ok (L.sum256 raw)
  else if algorithm = "SHA-384" then .ok (L.sum384 raw)
  else if algorithm = "SHA-512" then .ok (L.sum512 raw)
  else .error ("unsupported digest algorithm: " ++ quote algorithm)

def verifyItems (ns algorithm : String) (digests : DigestMap) : List Bytes → List Nat → GoMap CborAny → Except String (GoMap CborAny)
  | [], _, nsAttrs => .ok nsAttrs
  | rawItem :: items, seenDigests, nsAttrs => do
    let (item, _) ← wrapError ("namespace " ++ quote ns ++ ": ") (decodeIssuerSignedItem L rawItem)
    refuseIf (item.digestID ∈ seenDigests) "mdoc: duplicate disclosed digest ID"
    refuseIf (item.elementIdentifier ∈ nsAttrs) "mdoc: duplicate disclosed element"
    let digest ← wrapError ("namespace " ++ quote ns ++ " digestID " ++ toString item.digestID ++ ": ")
      (digestIssuerSignedItem L rawItem algorithm)
    match digests.lookup item.digestID with
    | none => .error ("namespace " ++ quote ns ++ ": digestID " ++ toString item.digestID ++ " not in MSO")
    | some expected =>
      refuseIf (digest ≠ expected) ("namespace " ++ quote ns ++ ": digestID " ++ toString item.digestID ++ " digest mismatch")
      let val ← wrapError ("namespace " ++ quote ns ++ ": elementIdentifier " ++ quote item.elementIdentifier ++ " value: ")
        (decodeCBORValue L item.elementValue)
      verifyItems ns algorithm digests items (item.digestID :: seenDigests) (nsAttrs.insert item.elementIdentifier val)

def verifyAndExtractNameSpaces (mso : MSO) :
    List (String × List Bytes) → GoMap (GoMap CborAny) → Except String (GoMap (GoMap CborAny))
  | [], result => .ok result
  | (ns, items) :: rest, result =>
    match mso.valueDigests.lookup ns with
    | none => .error ("namespace " ++ quote ns ++ " not found in MSO valueDigests")
    | some digests => do
      let nsAttrs ← verifyItems L ns mso.digestAlgorithm digests items [] ∅
      verifyAndExtractNameSpaces mso rest (result.insert ns nsAttrs)

/-! ## Device authentication -/

def deviceAuthentication (transcript : Bytes) (docType : String) (nameSpaces : Bytes) : CborValue :=
  .arr [.text "DeviceAuthentication", .raw transcript, .text docType, .raw nameSpaces]

variable (doc : MdocDocument)

def deviceAuthenticationBytes (transcript : Bytes) : Except String Bytes := do
  match L.unmarshalArray transcript with
  | .error _ => .error "mdoc: invalid expected transcript"
  | .ok session =>
    refuseIf (session.length ≠ 3) "mdoc: invalid expected transcript"
    match L.unmarshalTag doc.deviceNameSpaces with
    | .error _ => .error "mdoc: DeviceNameSpacesBytes is required"
    | .ok namespaces =>
      refuseIf (namespaces.number ≠ 24) "mdoc: DeviceNameSpacesBytes is required"
      let nsBytes ← L.unmarshalBytes namespaces.content
      match L.unmarshalMap nsBytes with
      | .error _ => .error "mdoc: invalid device namespaces"
      | .ok _ =>
        let auth ← L.marshal (deviceAuthentication transcript doc.docType doc.deviceNameSpaces)
        L.marshal (.tag 24 (.bytes auth))

def verifyDeviceSignature (transcript : Bytes) : Option ECPublicKey → Except String Unit
  | none => .error "mdoc: device key is required"
  | some deviceKey => do
    refuseIf (0 < doc.deviceMac.length) "mdoc: DeviceMAC is not supported for this profile"
    refuseIf (doc.deviceSignature.length = 0) "mdoc: DeviceSignature is required"
    let sig ← decodeCOSESign1 L doc.deviceSignature
    refuseIf (sig.payload ≠ [0xf6]) "mdoc: device signature must use a detached payload"
    let algorithm ← protectedAlgorithm L sig.protectedHeader
    let auth ← deviceAuthenticationBytes L doc transcript
    let payload ← L.marshal (.bytes auth)
    wrapError "mdoc: device authentication: " (verifyCOSESign1 L { sig with payload } algorithm (.ecdsa deviceKey))

def coseCurve (curve : Int) : Option EllipticCurve :=
  if curve = 1 then some .p256 else if curve = 2 then some .p384 else if curve = 3 then some .p521 else none

def coseKeyToECDSA (k : COSEKey) : Except String ECPublicKey := do
  refuseIf (k.keyType ≠ 2) ("mdoc: COSE_Key kty=" ++ toString k.keyType ++ " is not EC2 (2)")
  refuseIf (k.x.length = 0 ∨ k.y.length = 0) "mdoc: COSE_Key missing X or Y coordinate"
  match coseCurve k.curve with
  | none => .error ("mdoc: unsupported COSE_Key curve " ++ toString k.curve)
  | some curve =>
    refuseIf (k.x.length ≠ curve.size ∨ k.y.length ≠ curve.size) "mdoc: invalid device public point"
    wrapError "mdoc: invalid device public point: " (L.parsePoint curve (4 :: k.x ++ k.y))

/-! ## Status reference and identity of a document -/

def statusReference (value : Bytes) : Except String (Option Json) :=
  match L.unmarshalStatusRef value with
  | some (some idx, some uri) =>
    if idx ≤ 2147483647 then .ok (some (.obj [("status_list", .obj [("idx", .num idx 0), ("uri", .str uri)])]))
    else .error "mdoc: invalid status reference"
  | _ => .error "mdoc: invalid status reference"

def msoStatusReference (mso : MSO) : Except String (Option Json) :=
  if mso.status.length = 0 ∧ mso.statusList.length = 0 then .ok none
  else if 0 < mso.status.length ∧ 0 < mso.statusList.length then .error "mdoc: ambiguous status extensions"
  else if 0 < mso.status.length then
    match (L.unmarshalUnique mso.status).bind fun mechanisms => mechanisms.lookup "status_list" with
    | none => .error "mdoc: unsupported status mechanism"
    | some value => statusReference L value
  else statusReference L mso.statusList

def issuerAuthenticationHash : Except String String := do
  let signed ← decodeCOSESign1 L raw
  let canonical ← L.marshal (.arr [.bytes signed.protectedHeader, .bytes signed.payload, .bytes signed.signature])
  return encodeToHex (L.sum256 canonical)

/-! ## Documents and responses -/

def oneMinute : Int := 60 * 1000000000

def checkValidity (mso : MSO) (now : Int) (opts : MdocOptions R) : Except String Unit :=
  if opts.allowExpiredDocuments then .ok ()
  else do
    refuseIf (now < mso.validityInfo.validFrom)
      ("document not yet valid (validFrom=" ++ L.formatTime mso.validityInfo.validFrom ++ ")")
    refuseIf (mso.validityInfo.validUntil < now) ("document expired (validUntil=" ++ L.formatTime mso.validityInfo.validUntil ++ ")")

def badValidityInfo (mso : MSO) (now : Int) : Prop :=
  mso.version ≠ "1.0" ∨ mso.validityInfo.signed = 0 ∨ mso.validityInfo.validFrom = 0 ∨ mso.validityInfo.validUntil = 0 ∨
    mso.validityInfo.validUntil < mso.validityInfo.validFrom ∨ now + oneMinute < mso.validityInfo.signed ∨
    mso.validityInfo.validUntil < mso.validityInfo.signed

instance (mso : MSO) (now : Int) : Decidable (badValidityInfo mso now) := inferInstanceAs (Decidable (_ ∨ _))

def authenticateDevice (mso : MSO) (opts : MdocOptions R) : Except String (Option ECPublicKey) :=
  if opts.requireDeviceAuth ∨ 0 < opts.sessionTranscript.length then do
    let deviceKey ← coseKeyToECDSA L mso.deviceKey
    verifyDeviceSignature L doc opts.sessionTranscript (some deviceKey)
    return some deviceKey
  else .ok (coseKeyToECDSA L mso.deviceKey).toOption

def verifyDocument (now : Int) (opts : MdocOptions R) : Except String VerifiedDocument := do
  refuseIf (0 < doc.errors.length) "mdoc: document contains errors"
  let sig1 ← wrapError "IssuerAuth: " (decodeCOSESign1 L doc.issuerAuth)
  let algorithm ← protectedAlgorithm L sig1.protectedHeader
  let (issuerCert, verifiedChains) ← extractIssuerCert L sig1 opts.trustedRoots now
  wrapError "COSE_Sign1 signature: " (verifyCOSESign1 L sig1 algorithm issuerCert.publicKey)
  let mso ← wrapError "MSO: " (decodeMSO L sig1.payload)
  checkValidity L mso now opts
  refuseIf (mso.docType ≠ doc.docType)
    ("docType mismatch: MSO=" ++ quote mso.docType ++ " document=" ++ quote doc.docType)
  let attributes ← verifyAndExtractNameSpaces L mso doc.nameSpaces.list ∅
  refuseIf (badValidityInfo mso now) "mdoc: invalid MSO validity information"
  let deviceKey ← authenticateDevice L doc mso opts
  let status ← msoStatusReference L mso
  let issuerAuthHash ← issuerAuthenticationHash L doc.issuerAuth
  return {
    docType := doc.docType
    attributes, issuerCert, deviceKey
    validFrom := mso.validityInfo.validFrom
    validUntil := mso.validityInfo.validUntil
    verifiedChains, status, issuerAuthHash }

def verifyDocuments (now : Int) (opts : MdocOptions R) : Nat → List MdocDocument → List VerifiedDocument × List String
  | _, [] => ([], [])
  | i, doc :: docs =>
    match verifyDocument L doc now opts with
    | .error e =>
      ((verifyDocuments now opts (i + 1) docs).1,
        ("document[" ++ toString i ++ "] " ++ quote doc.docType ++ ": " ++ e) :: (verifyDocuments now opts (i + 1) docs).2)
    | .ok vd => (vd :: (verifyDocuments now opts (i + 1) docs).1, (verifyDocuments now opts (i + 1) docs).2)

def verifyDeviceResponse (clock : Int) (dr : Option DeviceResponse) (opts : MdocOptions R) :
    List VerifiedDocument × List String :=
  match dr with
  | none => ([], ["mdoc: invalid or unsuccessful DeviceResponse"])
  | some dr =>
    if dr.status ≠ 0 ∨ dr.version ≠ "1.0" ∨ dr.documents.length = 0 ∨ 0 < dr.documentErrors.length then
      ([], ["mdoc: invalid or unsuccessful DeviceResponse"])
    else if opts.requireTrustedIssuer ∧ opts.trustedRoots.isNone then ([], ["mdoc: trusted issuer roots are required"])
    else if opts.expectedNonce ≠ "" then ([], ["mdoc: use SessionTranscript instead of ExpectedNonce"])
    else if opts.requireDeviceAuth ∧ opts.sessionTranscript.length = 0 then
      ([], ["mdoc: expected session transcript is required"])
    else verifyDocuments L (opts.now.getD clock) opts 0 dr.documents

end

/-! ## OIDC claims

Both functions range over Go maps, in an order that is not defined. They are given the entries in
the order of one run. -/

section
variable {V : Type}

def extractAttributes (ns : String) (attributes : List (String × List (String × V))) : GoMap V :=
  .ofMembers ((attributes.filter fun e => ns = "" ∨ e.1 = ns).flatMap (·.2))

def pidClaims : List (String × String) :=
  [("family_name", "family_name"), ("given_name", "given_name"), ("birth_date", "birthdate"),
    ("age_over_18", "age_over_18"), ("resident_country", "address.country"), ("nationality", "nationality"),
    ("personal_identifier_no", "sub"), ("issuing_country", "iss_country"), ("issuing_authority", "iss_authority")]

def mdlClaims : List (String × String) :=
  [("family_name", "family_name"), ("given_name", "given_name"), ("birth_date", "birthdate"),
    ("age_over_18", "age_over_18"), ("document_number", "document_number"), ("issuing_country", "iss_country"),
    ("issuing_authority", "iss_authority"), ("driving_privileges", "driving_privileges")]

def oidcKey (docType k : String) : String :=
  if docType = "eu.europa.ec.eudi.pid.1" then (pidClaims.lookup k).getD k
  else if docType = "org.iso.18013.5.1.mDL" then (mdlClaims.lookup k).getD k
  else k

def toOIDCClaims (attrs : List (String × V)) (docType : String) : GoMap V :=
  .ofMembers (attrs.map fun e => (oidcKey docType e.1, e.2))

end

end Clavex
