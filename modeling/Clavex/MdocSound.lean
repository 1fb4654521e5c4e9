import Clavex.Mdoc

/-!
# What a verified document is good for

A document that `VerifyDeviceResponse` returns for given roots and a given session has passed
every check, whatever CBOR the wallet sent: the issuer signed the MSO, the disclosed values are
those the MSO has digests of, and the device of the MSO signed this session.
-/

namespace Clavex

open List Finmap

section
variable {R : Type} (L : MdocLib R)

/-! ## Signatures and certificates -/

def CoseSigned (key : ECPublicKey) (protectedHeader payload signature : Bytes) : Prop :=
  ∃ alg hash toBeSigned, protectedAlgorithm L protectedHeader = .ok alg ∧ coseAlgorithm L alg = some (key.curve, hash) ∧
    L.marshal (sigStructure protectedHeader payload) = .ok toBeSigned ∧ signature.length = 2 * key.curve.size ∧
    L.verifySignature key (hash toBeSigned) (beNat (signature.take key.curve.size)) (beNat (signature.drop key.curve.size)) = true

/-- An end-entity certificate for signatures that is valid at `now`, and that leads by the
intermediates of the header to one of the roots. -/
structure TrustedSigner (roots : R) (now : Int) (sig1 : CoseSign1) (cert : SignerCertificate)
    (chains : List (List SignerCertificate)) : Prop where
  chain : ∃ leaf rest intermediates, certificateChain L sig1 = .ok (leaf :: rest) ∧ L.parseCertificate leaf = .ok cert ∧
    rest.mapM L.parseCertificate = .ok intermediates ∧ L.verifyChain ⟨roots, intermediates, now⟩ cert = .ok chains
  valid : cert.notBefore ≤ now ∧ now ≤ cert.notAfter
  endEntity : cert.isCA = false ∧ cert.digitalSignature = true

/-! ## Items -/

structure DisclosedItem (algorithm : String) (digests : DigestMap) (raw : Bytes) (item : IssuerSignedItem) : Prop where
  decoded : ∃ itemBytes, decodeIssuerSignedItem L raw = .ok (item, itemBytes)
  digest : ∃ sum ∈ [("SHA-256", L.sum256), ("SHA-384", L.sum384), ("SHA-512", L.sum512)], sum.1 = algorithm ∧
    digests.lookup item.digestID = some (sum.2 raw)

def Disclosed (mso : MSO) (ns : String) (raws : List Bytes) (attrs : GoMap CborAny) : Prop :=
  ∃ digests items, mso.valueDigests.lookup ns = some digests ∧
    List.Forall₂ (DisclosedItem L mso.digestAlgorithm digests) raws items ∧
    (items.map (·.digestID)).Nodup ∧ (items.map (·.elementIdentifier)).Nodup ∧
    ∀ element value, attrs.lookup element = some value ↔
      ∃ item ∈ items, item.elementIdentifier = element ∧ decodeCBORValue L item.elementValue = .ok value

/-! ## The device -/

def DeviceSigned (key : ECPublicKey) (transcript : Bytes) (doc : MdocDocument) : Prop :=
  ∃ sig auth authBytes payload, decodeCOSESign1 L doc.deviceSignature = .ok sig ∧
    L.marshal (deviceAuthentication transcript doc.docType doc.deviceNameSpaces) = .ok auth ∧
    L.marshal (.tag 24 (.bytes auth)) = .ok authBytes ∧ L.marshal (.bytes authBytes) = .ok payload ∧
    CoseSigned L key sig.protectedHeader payload sig.signature

structure Genuine (roots : R) (now : Int) (opts : MdocOptions R) (doc : MdocDocument) (sig1 : CoseSign1) (mso : MSO)
    (vd : VerifiedDocument) : Prop where
  issuerAuth : decodeCOSESign1 L doc.issuerAuth = .ok sig1
  payload : decodeMSO L sig1.payload = .ok mso
  trusted : TrustedSigner L roots now sig1 vd.issuerCert vd.verifiedChains
  signed : ∃ key, vd.issuerCert.publicKey = .ecdsa key ∧ CoseSigned L key sig1.protectedHeader sig1.payload sig1.signature
  window : opts.allowExpiredDocuments = false → mso.validityInfo.validFrom ≤ now ∧ now ≤ mso.validityInfo.validUntil
  docType : vd.docType = doc.docType ∧ mso.docType = doc.docType
  attributes : ∀ ns attrs, vd.attributes.lookup ns = some attrs →
    ∃ raws, (ns, raws) ∈ doc.nameSpaces.list ∧ Disclosed L mso ns raws attrs
  device : ∃ key, vd.deviceKey = some key ∧ coseKeyToECDSA L mso.deviceKey = .ok key ∧
    DeviceSigned L key opts.sessionTranscript doc

variable {L}

/-! ## From the checks -/

variable {sig1 : CoseSign1} {u : Unit} {roots : R} {now : Int} {ns : String} {attrs : GoMap CborAny} {mso : MSO}
  {doc : MdocDocument} {transcript : Bytes} {opts : MdocOptions R} {vd : VerifiedDocument}

theorem verifyCOSESign1_ok {alg} {pub} (h : verifyCOSESign1 L sig1 alg pub = .ok u)
    (halg : protectedAlgorithm L sig1.protectedHeader = .ok alg) :
    ∃ key, pub = .ecdsa key ∧ CoseSigned L key sig1.protectedHeader sig1.payload sig1.signature := by
  obtain ⟨toBeSigned, hmarshal, h⟩ := except_bind_ok h
  cases pub with
  | other => cases h
  | ecdsa key =>
    refine ⟨key, rfl, ?_⟩
    cases hcose : coseAlgorithm L alg with
    | none =>
      simp only [hcose] at h
      cases h
    | some ch =>
      obtain ⟨curve, hash⟩ := ch
      simp only [hcose] at h
      obtain ⟨_, hcheck, h⟩ := except_bind_ok h
      obtain ⟨_, _, h⟩ := except_bind_ok h
      obtain ⟨_, _, h⟩ := except_bind_ok h
      have hsig := refuseIf_ok h
      have hlen := refuseIf_ok hcheck
      rw [not_or, not_not, not_not] at hlen
      obtain ⟨hcurve, hlen⟩ := hlen
      have hhalf : sig1.signature.length / 2 = key.curve.size := by
        rw [hcurve]
        omega
      rw [hhalf, Bool.not_eq_false] at hsig
      exact ⟨alg, hash, toBeSigned, halg, hcurve ▸ hcose, wrapError_ok hmarshal, hcurve ▸ hlen, hsig⟩

theorem extractIssuerCert_ok {cert} {chains} (h : extractIssuerCert L sig1 (some roots) now = .ok (cert, chains)) :
    TrustedSigner L roots now sig1 cert chains := by
  obtain ⟨chain, hchain, h⟩ := except_bind_ok h
  cases chain with
  | nil => cases h
  | cons leaf rest =>
    obtain ⟨cert', hcert, h⟩ := except_bind_ok h
    obtain ⟨_, hvalid, h⟩ := except_bind_ok h
    obtain ⟨intermediates, hinter, h⟩ := except_bind_ok h
    obtain ⟨chains', hchains, h⟩ := except_bind_ok h
    cases h
    have hv := refuseIf_ok hvalid
    simp only [not_or, Int.not_lt, Bool.not_eq_true, Bool.not_eq_false] at hv
    exact ⟨⟨leaf, rest, intermediates, hchain, hcert, hinter, wrapError_ok hchains⟩, ⟨hv.1, hv.2.1⟩, hv.2.2⟩

theorem digestIssuerSignedItem_ok {raw algorithm digest} (h : digestIssuerSignedItem L raw algorithm = .ok digest) :
    ∃ sum ∈ [("SHA-256", L.sum256), ("SHA-384", L.sum384), ("SHA-512", L.sum512)], sum.1 = algorithm ∧
      digest = sum.2 raw := by
  unfold digestIssuerSignedItem at h
  repeat' split at h
  all_goals cases h
  all_goals simp [*]

theorem verifyItems_ok {algorithm} {digests raws seen} {attrs'}
    (h : verifyItems L ns algorithm digests raws seen attrs = .ok attrs') :
    ∃ items, List.Forall₂ (DisclosedItem L algorithm digests) raws items ∧
      (∀ item ∈ items, item.digestID ∉ seen ∧ item.elementIdentifier ∉ attrs) ∧
      (items.map (·.digestID)).Nodup ∧ (items.map (·.elementIdentifier)).Nodup ∧
      ∀ element value, attrs'.lookup element = some value ↔ attrs.lookup element = some value ∨
        ∃ item ∈ items, item.elementIdentifier = element ∧ decodeCBORValue L item.elementValue = .ok value := by
  induction raws generalizing seen attrs with
  | nil =>
    cases h
    exact ⟨[], .nil, nofun, nodup_nil, nodup_nil, fun _ _ => by simp⟩
  | cons raw raws ih =>
    obtain ⟨⟨item, itemBytes⟩, hitem, h⟩ := except_bind_ok h
    obtain ⟨_, hseen, h⟩ := except_bind_ok h
    obtain ⟨_, hnew, h⟩ := except_bind_ok h
    obtain ⟨digest, hdigest, h⟩ := except_bind_ok h
    cases hlookup : digests.lookup item.digestID with
    | none =>
      simp only [hlookup] at h
      cases h
    | some expected =>
      simp only [hlookup] at h
      obtain ⟨_, heq, h⟩ := except_bind_ok h
      obtain ⟨val, hval, h⟩ := except_bind_ok h
      obtain ⟨items, hall, hfresh, hids, helems, hattrs⟩ := ih h
      have hmatch : digest = expected := not_not.mp (refuseIf_ok heq)
      obtain ⟨sum, hsum, halg, hsumdigest⟩ := digestIssuerSignedItem_ok (wrapError_ok hdigest)
      have hdisclosed : DisclosedItem L algorithm digests raw item :=
        ⟨⟨itemBytes, wrapError_ok hitem⟩, sum, hsum, halg, hsumdigest ▸ hmatch ▸ hlookup⟩
      -- the items after this one have other ids and other elements
      have hid : ∀ other ∈ items, other.digestID ≠ item.digestID := by
        intro other hother heq
        exact (hfresh other hother).1 (heq ▸ mem_cons_self ..)
      have helem : ∀ other ∈ items, other.elementIdentifier ≠ item.elementIdentifier := by
        intro other hother heq
        exact (hfresh other hother).2 (heq ▸ mem_insert.mpr (.inl rfl))
      refine ⟨item :: items, .cons hdisclosed hall, ?_, ?_, ?_, ?_⟩
      · intro other hother
        rcases mem_cons.mp hother with rfl | hother
        · exact ⟨refuseIf_ok hseen, refuseIf_ok hnew⟩
        · obtain ⟨h1, h2⟩ := hfresh other hother
          exact ⟨fun hmem => h1 (mem_cons_of_mem _ hmem), fun hmem => h2 (mem_insert.mpr (.inr hmem))⟩
      · simpa [hids] using hid
      · simpa [helems] using helem
      · intro element value
        have hnone : attrs.lookup item.elementIdentifier = none := lookup_eq_none.mpr (refuseIf_ok hnew)
        have hdec := wrapError_ok hval
        rw [hattrs element value]
        by_cases he : element = item.elementIdentifier
        · subst he
          simp [lookup_insert, hnone, hdec]
        · rw [lookup_insert_of_ne _ he]
          simp [Ne.symm he]

theorem verifyAndExtractNameSpaces_ok {list result result'}
    (h : verifyAndExtractNameSpaces L mso list result = .ok result') (hattrs : result'.lookup ns = some attrs) :
    result.lookup ns = some attrs ∨ ∃ raws, (ns, raws) ∈ list ∧ Disclosed L mso ns raws attrs := by
  induction list generalizing result with
  | nil =>
    cases h
    exact .inl hattrs
  | cons entry rest ih =>
    obtain ⟨ns', raws⟩ := entry
    rw [verifyAndExtractNameSpaces] at h
    cases hdigests : mso.valueDigests.lookup ns' with
    | none =>
      simp only [hdigests] at h
      cases h
    | some digests =>
      simp only [hdigests] at h
      obtain ⟨nsAttrs, hitems, h⟩ := except_bind_ok h
      rcases ih h with hold | ⟨raws', hmem, hdisclosed⟩
      · by_cases hns : ns = ns'
        · subst hns
          rw [lookup_insert] at hold
          cases hold
          obtain ⟨items, hall, _, hids, helems, hvalues⟩ := verifyItems_ok hitems
          refine .inr ⟨raws, mem_cons_self .., digests, items, hdigests, hall, hids, helems, fun element value => ?_⟩
          rw [hvalues element value, lookup_empty]
          simp only [reduceCtorEq, false_or]
        · rw [lookup_insert_of_ne _ hns] at hold
          exact .inl hold
      · exact .inr ⟨raws', mem_cons_of_mem _ hmem, hdisclosed⟩

theorem deviceAuthenticationBytes_ok {authBytes}
    (h : deviceAuthenticationBytes L doc transcript = .ok authBytes) :
    ∃ auth, L.marshal (deviceAuthentication transcript doc.docType doc.deviceNameSpaces) = .ok auth ∧
      L.marshal (.tag 24 (.bytes auth)) = .ok authBytes := by
  unfold deviceAuthenticationBytes at h
  split at h
  · cases h
  obtain ⟨_, _, h⟩ := except_bind_ok h
  split at h
  · cases h
  obtain ⟨_, _, h⟩ := except_bind_ok h
  obtain ⟨nsBytes, _, h⟩ := except_bind_ok h
  split at h
  · cases h
  · obtain ⟨auth, hauth, h⟩ := except_bind_ok h
    exact ⟨auth, hauth, h⟩

theorem verifyDeviceSignature_ok {key} (h : verifyDeviceSignature L doc transcript (some key) = .ok u) :
    DeviceSigned L key transcript doc := by
  obtain ⟨_, _, h⟩ := except_bind_ok h
  obtain ⟨_, _, h⟩ := except_bind_ok h
  obtain ⟨sig, hsig, h⟩ := except_bind_ok h
  obtain ⟨_, _, h⟩ := except_bind_ok h
  obtain ⟨alg, halg, h⟩ := except_bind_ok h
  obtain ⟨authBytes, hauthBytes, h⟩ := except_bind_ok h
  obtain ⟨payload, hpayload, h⟩ := except_bind_ok h
  obtain ⟨auth, hauth, htagged⟩ := deviceAuthenticationBytes_ok hauthBytes
  obtain ⟨key', hkey, hsigned⟩ := verifyCOSESign1_ok (wrapError_ok h) halg
  cases hkey
  exact ⟨sig, auth, authBytes, payload, hsig, hauth, htagged, hpayload, hsigned⟩

theorem checkValidity_ok (h : checkValidity L mso now opts = .ok u)
    (hexpired : opts.allowExpiredDocuments = false) :
    mso.validityInfo.validFrom ≤ now ∧ now ≤ mso.validityInfo.validUntil := by
  simp only [checkValidity, hexpired] at h
  obtain ⟨_, hfrom, h⟩ := except_bind_ok h
  exact ⟨Int.not_lt.mp (refuseIf_ok hfrom), Int.not_lt.mp (refuseIf_ok h)⟩

theorem verifyDocument_ok
    (hroots : opts.trustedRoots = some roots) (hauth : opts.requireDeviceAuth = true)
    (h : verifyDocument L doc now opts = .ok vd) :
    ∃ sig1 mso, Genuine L roots now opts doc sig1 mso vd := by
  obtain ⟨_, _, h⟩ := except_bind_ok h
  obtain ⟨sig1, hsig1, h⟩ := except_bind_ok h
  obtain ⟨alg, halg, h⟩ := except_bind_ok h
  obtain ⟨⟨cert, chains⟩, hcert, h⟩ := except_bind_ok h
  obtain ⟨_, hsigned, h⟩ := except_bind_ok h
  obtain ⟨mso, hmso, h⟩ := except_bind_ok h
  obtain ⟨_, hwindow, h⟩ := except_bind_ok h
  obtain ⟨_, hdocType, h⟩ := except_bind_ok h
  obtain ⟨attributes, hattributes, h⟩ := except_bind_ok h
  obtain ⟨_, _, h⟩ := except_bind_ok h
  obtain ⟨deviceKey, hdevice, h⟩ := except_bind_ok h
  obtain ⟨status, _, h⟩ := except_bind_ok h
  obtain ⟨issuerAuthHash, _, h⟩ := except_bind_ok h
  cases h
  rw [hroots] at hcert
  rw [authenticateDevice, if_pos (.inl hauth)] at hdevice
  obtain ⟨key, hkey, hdevice⟩ := except_bind_ok hdevice
  obtain ⟨_, hproof, hdevice⟩ := except_bind_ok hdevice
  cases hdevice
  refine ⟨sig1, mso, ?_⟩
  exact {
    issuerAuth := wrapError_ok hsig1
    payload := wrapError_ok hmso
    trusted := extractIssuerCert_ok hcert
    signed := verifyCOSESign1_ok (wrapError_ok hsigned) halg
    window := checkValidity_ok hwindow
    docType := ⟨rfl, not_not.mp (refuseIf_ok hdocType)⟩
    attributes := fun ns attrs hattrs =>
      (verifyAndExtractNameSpaces_ok hattributes hattrs).resolve_left (by rw [lookup_empty]; exact nofun)
    device := ⟨key, rfl, hkey, verifyDeviceSignature_ok hproof⟩ }

theorem mem_verifyDocuments {i} {docs} (h : vd ∈ (verifyDocuments L now opts i docs).1) :
    ∃ doc ∈ docs, verifyDocument L doc now opts = .ok vd := by
  induction docs generalizing i with
  | nil => cases h
  | cons doc docs ih =>
    rw [verifyDocuments] at h
    cases hdoc : verifyDocument L doc now opts with
    | error e =>
      simp only [hdoc] at h
      obtain ⟨doc', hmem, hok⟩ := ih h
      exact ⟨doc', mem_cons_of_mem _ hmem, hok⟩
    | ok vd' =>
      simp only [hdoc] at h
      rcases mem_cons.mp h with rfl | h
      · exact ⟨doc, mem_cons_self .., hdoc⟩
      · obtain ⟨doc', hmem, hok⟩ := ih h
        exact ⟨doc', mem_cons_of_mem _ hmem, hok⟩

/-- Every document that is returned where a trusted issuer and the device's authentication are asked for. -/
theorem verified_documents_genuine (L : MdocLib R) (clock : Int) (dr : DeviceResponse) (opts : MdocOptions R)
    (hissuer : opts.requireTrustedIssuer = true) (hauth : opts.requireDeviceAuth = true) :
    ∀ vd ∈ (verifyDeviceResponse L clock (some dr) opts).1, ∃ roots, opts.trustedRoots = some roots ∧
      ∃ doc ∈ dr.documents, ∃ sig1 mso, Genuine L roots (opts.now.getD clock) opts doc sig1 mso vd := by
  intro vd hvd
  simp only [verifyDeviceResponse] at hvd
  split at hvd
  · cases hvd
  split at hvd
  · cases hvd
  rename_i hroots
  split at hvd
  · cases hvd
  split at hvd
  · cases hvd
  obtain ⟨roots, hroots⟩ : ∃ roots, opts.trustedRoots = some roots := by
    rw [not_and, Option.isNone_iff_eq_none] at hroots
    exact Option.ne_none_iff_exists'.mp (hroots hissuer)
  obtain ⟨doc, hdoc, hok⟩ := mem_verifyDocuments hvd
  exact ⟨roots, hroots, doc, hdoc, verifyDocument_ok hroots hauth hok⟩

end

/-! ## One document -/

mutual
def plainEncode : CborValue → Bytes
  | .text s => [0x60, UInt8.ofNat s.length]
  | .bytes b => 0x40 :: b
  | .raw b => b
  | .arr items => 0x80 :: plainEncodeItems items
  | .tag number content => UInt8.ofNat number :: plainEncode content
def plainEncodeItems : List CborValue → Bytes
  | [] => []
  | v :: items => plainEncode v ++ plainEncodeItems items
end

def plainSignature (r s : UInt8) : Bytes := List.replicate 31 0 ++ r :: List.replicate 31 0 ++ [s]

def plainIssuerKey : ECPublicKey := ⟨.p256, [1]⟩

def plainCertificate : SignerCertificate := ⟨[13], 1, 100, false, true, .ecdsa plainIssuerKey⟩

def plainMSO : MSO where
  version := "1.0"
  digestAlgorithm := "SHA-256"
  valueDigests := Finmap.singleton "org.iso.18013.5.1" (Finmap.singleton 5 [0, 30])
  deviceKey := ⟨2, 1, List.replicate 32 2, List.replicate 32 2⟩
  docType := "org.iso.18013.5.1.mDL"
  validityInfo := ⟨1, 1, 100⟩

def plainMdocLib : MdocLib Unit where
  unmarshalSign1 sig raw :=
    if raw = [1] then (⟨[10], [11], [20], plainSignature 8 1⟩, none)
    else if raw = [2] then (⟨[10], [], [0xf6], plainSignature 17 4⟩, none)
    else (sig, some "EOF")
  unmarshalMSO mso raw := if raw = [21] then (plainMSO, none) else (mso, some "EOF")
  unmarshalTag raw :=
    if raw = [30] then .ok ⟨24, [31]⟩ else if raw = [40] then .ok ⟨24, [41]⟩ else .error "no tag"
  unmarshalHeaders raw :=
    if raw = [10] then .ok (Finmap.singleton 1 [7]) else if raw = [11] then .ok (Finmap.singleton 33 [12]) else .error "no map"
  unmarshalBytes raw :=
    match raw with
    | [b] => .ok [b + 1]
    | _ => .error "no bytes"
  unmarshalByteStrings _ := .error "no array"
  unmarshalInt raw := if raw = [7] then .ok (-7) else .error "no integer"
  unmarshalItem raw := if raw = [32] then .ok ⟨5, "given_name", [33]⟩ else .error "no item"
  unmarshalString _ := .error "no text"
  unmarshalAny raw := if raw = [33] then .ok (.text "Ada") else .error "no value"
  unmarshalArray raw := if raw = [50] then .ok [[51], [51], [52]] else .error "no array"
  unmarshalMap raw := if raw = [42] then .ok ∅ else .error "no map"
  unmarshalUnique _ := none
  unmarshalStatusRef _ := none
  marshal v := .ok (plainEncode v)
  sprint _ := ""
  formatTime _ := ""
  sum256 b := 0 :: b
  sum384 b := b
  sum512 b := b
  parseCertificate raw := if raw = [13] then .ok plainCertificate else .error "no certificate"
  verifyChain o cert := if o.currentTime ≤ cert.notAfter then .ok [[cert]] else .error "expired"
  parsePoint curve point := .ok ⟨curve, point⟩
  pointBytes key := .ok key.point
  verifySignature key digest r s := decide (r = digest.length) && decide (key.point.head? = some (UInt8.ofNat s))

def plainDocument : MdocDocument where
  docType := "org.iso.18013.5.1.mDL"
  nameSpaces := Rows.empty.set ("org.iso.18013.5.1", [[30]])
  issuerAuth := [1]
  deviceNameSpaces := [40]
  deviceSignature := [2]

def plainMdocOptions : MdocOptions Unit where
  trustedRoots := some ()
  sessionTranscript := [50]
  requireTrustedIssuer := true
  requireDeviceAuth := true
  now := some 10

theorem verified_documents_genuine_for_one :
    let verified := (verifyDeviceResponse plainMdocLib 0 (some ⟨"1.0", [plainDocument], [], 0⟩) plainMdocOptions).1
    verified.length = 1 ∧ ∀ vd ∈ verified, ∃ roots, plainMdocOptions.trustedRoots = some roots ∧
      ∃ doc ∈ [plainDocument], ∃ sig1 mso, Genuine plainMdocLib roots 10 plainMdocOptions doc sig1 mso vd :=
  ⟨by decide +kernel, verified_documents_genuine plainMdocLib 0 _ plainMdocOptions rfl rfl⟩

/-! ## The claims that are read off -/

section
variable {vd : VerifiedDocument} {ns : String} {claims claims' : GoMap CborAny}

/-- The entries of a map in some order. -/
def Ranges {V : Type} (m : GoMap V) (es : List (String × V)) : Prop := ∀ k v, (k, v) ∈ es ↔ m.lookup k = some v

/-- What `ToOIDCClaims` makes of `ExtractAttributes` in some run. -/
def OIDCClaims (vd : VerifiedDocument) (ns : String) (claims : GoMap CborAny) : Prop :=
  ∃ namespaces attrs, (∀ e ∈ namespaces, ∃ m, vd.attributes.lookup e.1 = some m ∧ Ranges m e.2) ∧
    (∀ n m, vd.attributes.lookup n = some m → ∃ es, (n, es) ∈ namespaces) ∧
    Ranges (extractAttributes ns namespaces) attrs ∧ claims = toOIDCClaims attrs vd.docType

def Attribute (vd : VerifiedDocument) (ns k : String) (v : CborAny) : Prop :=
  ∃ n m, (ns = "" ∨ n = ns) ∧ vd.attributes.lookup n = some m ∧ m.lookup k = some v

def Unmixed (vd : VerifiedDocument) (ns : String) : Prop :=
  ∀ k v k' v', Attribute vd ns k v → Attribute vd ns k' v' → oidcKey vd.docType k = oidcKey vd.docType k' → v = v'

theorem lookup_oidcClaims (hunmixed : Unmixed vd ns) (h : OIDCClaims vd ns claims) (c v) :
    claims.lookup c = some v ↔ ∃ k, Attribute vd ns k v ∧ oidcKey vd.docType k = c := by
  obtain ⟨namespaces, attrs, hsound, hall, hattrs, rfl⟩ := h
  have hmem : ∀ k v, (k, v) ∈ (namespaces.filter fun e => ns = "" ∨ e.1 = ns).flatMap (·.2) ↔ Attribute vd ns k v := by
    intro k v
    simp only [mem_flatMap, mem_filter, decide_eq_true_eq]
    constructor
    · rintro ⟨e, ⟨he, hns⟩, hkv⟩
      obtain ⟨m, hm, hes⟩ := hsound e he
      exact ⟨e.1, m, hns, hm, (hes k v).mp hkv⟩
    · rintro ⟨n, m, hns, hm, hkv⟩
      obtain ⟨es, he⟩ := hall n m hm
      obtain ⟨m', hm', hes⟩ := hsound _ he
      cases hm.symm.trans hm'
      exact ⟨(n, es), ⟨he, hns⟩, (hes k v).mpr hkv⟩
  have hextract : ∀ k v, (k, v) ∈ attrs ↔ Attribute vd ns k v := by
    intro k v
    rw [hattrs k v, extractAttributes, GoMap.lookup_ofMembers, hmem]
    intro k v v' hv hv'
    exact hunmixed k v k v' ((hmem k v).mp hv) ((hmem k v').mp hv') rfl
  rw [toOIDCClaims, GoMap.lookup_ofMembers]
  · simp [hextract]
  · intro c v v' hv hv'
    obtain ⟨e, he, hc⟩ := mem_map.mp hv
    obtain ⟨e', he', hc'⟩ := mem_map.mp hv'
    rw [Prod.mk.injEq] at hc hc'
    rw [← hc.2, ← hc'.2]
    exact hunmixed e.1 e.2 e'.1 e'.2 ((hextract _ _).mp he) ((hextract _ _).mp he') (hc.1.trans hc'.1.symm)

theorem exists_ranges {V} (m : GoMap V) : ∃ es, Ranges m es := by
  refine ⟨m.entries.toList.map fun e => (e.1, e.2), fun k v => ?_⟩
  rw [← Option.mem_def, Finmap.mem_lookup_iff]
  simp

theorem exists_oidcClaims (vd : VerifiedDocument) (ns : String) : ∃ claims, OIDCClaims vd ns claims := by
  obtain ⟨maps, hmaps⟩ := exists_ranges vd.attributes
  choose entries hentries using fun m : GoMap CborAny => exists_ranges m
  let namespaces := maps.map fun e => (e.1, entries e.2)
  obtain ⟨attrs, hattrs⟩ := exists_ranges (extractAttributes ns namespaces)
  refine ⟨_, namespaces, attrs, fun e he => ?_, fun n m hm => ?_, hattrs, rfl⟩
  · obtain ⟨e, hmem, rfl⟩ := mem_map.mp he
    exact ⟨e.2, (hmaps e.1 e.2).mp hmem, hentries e.2⟩
  · exact ⟨entries m, mem_map.mpr ⟨(n, m), (hmaps n m).mpr hm, rfl⟩⟩

/-- The claims are the same in every run, and have every disclosed attribute, exactly if no two
attributes of different values get the same name. -/
theorem oidc_claims_ordered (vd : VerifiedDocument) (ns : String) :
    (∀ claims claims', OIDCClaims vd ns claims → OIDCClaims vd ns claims' →
      claims = claims' ∧ ∀ k v, Attribute vd ns k v → claims.lookup (oidcKey vd.docType k) = some v) ↔ Unmixed vd ns := by
  constructor
  · intro hall k v k' v' hk hk' hkey
    obtain ⟨claims, h⟩ := exists_oidcClaims vd ns
    obtain ⟨-, hkept⟩ := hall claims claims h h
    exact Option.some.inj ((hkept k v hk).symm.trans (hkey ▸ hkept k' v' hk'))
  · intro hunmixed claims claims' h h'
    refine ⟨ext_lookup fun c => Option.ext fun v => ?_, fun k v hk => ?_⟩
    · rw [lookup_oidcClaims hunmixed h, lookup_oidcClaims hunmixed h']
    · exact (lookup_oidcClaims hunmixed h _ v).mpr ⟨k, hk, rfl⟩

end

def pidOf (attrs : List (String × CborAny)) : VerifiedDocument :=
  ⟨"eu.europa.ec.eudi.pid.1", Finmap.singleton "pid" (.ofMembers attrs), plainCertificate, none, 0, 0, [], none, ""⟩

theorem pidOf_claims {es es'} (h : ∀ k v v', (k, v) ∈ es → (k, v') ∈ es → v = v')
    (hes : es'.Perm es) : OIDCClaims (pidOf es) "pid" (toOIDCClaims es' (pidOf es).docType) := by
  refine ⟨[("pid", es)], es', ?_, fun n m hm => ?_, fun k v => ?_, rfl⟩
  · rw [forall_mem_singleton]
    exact ⟨_, lookup_singleton_eq, fun k v => (GoMap.lookup_ofMembers h k v).symm⟩
  · obtain rfl := (Finmap.mem_singleton ..).mp (Finmap.mem_of_lookup_eq_some hm)
    exact ⟨es, mem_singleton_self _⟩
  · rw [hes.mem_iff, ← GoMap.lookup_ofMembers h]
    simp [extractAttributes]

/-- `birth_date` gets the name that another attribute has. -/
theorem oidc_claims_overwritten :
    let vd := pidOf [("birth_date", .text "1999"), ("birthdate", .text "2001")]
    ∃ claims claims', OIDCClaims vd "pid" claims ∧ OIDCClaims vd "pid" claims' ∧
      claims.lookup "birthdate" = some (.text "2001") ∧ claims'.lookup "birthdate" = some (.text "1999") :=
  have hfun : ∀ k v v', (k, v) ∈ [("birth_date", CborAny.text "1999"), ("birthdate", .text "2001")] →
      (k, v') ∈ [("birth_date", .text "1999"), ("birthdate", .text "2001")] → v = v' := by grind
  ⟨_, _, pidOf_claims hfun (.refl _), pidOf_claims hfun (.swap ..), rfl, rfl⟩

end Clavex
