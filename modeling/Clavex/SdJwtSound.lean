import Clavex.SdJwtTable

/-!
# From the issuer of a credential to its verifier

A credential that is presented with some of its disclosures yields its plain claims and what
is disclosed, for every choice of disclosures, exactly if the names, values and times the
issuer was given are such that the verifier takes them. The issuer does not check that.
-/

namespace Clavex

open List Option Finmap

variable {k : String} {ds : List Disclosure}

section
variable {S K : Type} {L : SDJWTLib S K}

/-! ## Serialization -/

def Segment (s : String) : Prop := s ≠ "" ∧ '~' ∉ s.toList

variable {jwt name token : String} {raws sdSet : List String} {value : Json} {claims : GoMap Json}
  {p : SDJWTParams S} {env : IssueEnv}

theorem splitRune_serialize (hjwt : Segment jwt) (hraws : ∀ r ∈ raws, Segment r) :
    splitRune '~' (serializeSDJWT jwt raws) = jwt :: (raws ++ [""]) := by
  refine splitRune_intercalate rfl (cons_ne_nil _ _) fun s hs => ?_
  rcases mem_cons.mp hs with rfl | hs
  · exact hjwt.2
  · rcases mem_append.mp hs with hs | hs
    · exact (hraws s hs).2
    · rw [mem_singleton.mp hs]
      exact not_mem_nil

theorem parseSDJWT_serialize (hjwt : Segment jwt) (hraws : ∀ r ∈ raws, Segment r) :
    parseSDJWT (serializeSDJWT jwt raws) = .ok (jwt, raws, "") := by
  have hfilter : (raws ++ [""]).filter (· ≠ "") = raws := by
    rw [filter_append, filter_eq_self.mpr fun r hr => decide_eq_true (hraws r hr).1]
    simp
  unfold parseSDJWT
  rw [splitRune_serialize hjwt hraws]
  dsimp only
  rw [if_neg hjwt.1, getLast?_append, hfilter]
  rfl

/-! ## Disclosures -/

structure Made (L : SDJWTLib S K) (d : Disclosure) : Prop where
  hash_eq : d.hash = disclosureHash L d.raw
  decodes : ∃ salt, decodeDisclosure L d.raw = .ok (salt, d.name, L.read d.value)
  segment : Segment d.raw

theorem encodeToString_segment (L : SDJWTLib S K) {b : Bytes} (hb : b ≠ []) : Segment (L.encodeToString b) := by
  refine ⟨fun h => ?_, fun h => absurd (L.encode_rune b _ h) (by decide)⟩
  have hdecode := L.decode_encode b
  rw [h, ← L.encode_nil, L.decode_encode] at hdecode
  exact hb (some.inj hdecode).symm

theorem newDisclosure_made {salt d} (h : newDisclosure L salt name value = .ok d) :
    (d.name, d.value) = (name, value) ∧ Made L d := by
  unfold newDisclosure at h
  split at h
  · cases h
  rename_i salt
  split at h
  · cases h
  rename_i b hb
  cases h
  have hjson := L.parse_marshal hb
  have hne : b ≠ [] := by
    intro he
    rw [he, L.parseJSON_nil] at hjson
    cases hjson
  refine ⟨rfl, rfl, ⟨L.encodeToString salt, ?_⟩, encodeToString_segment L hne⟩
  unfold decodeDisclosure
  simp only [L.decode_encode, hjson, decText]

theorem newDisclosures_made {salts i cs} (h : newDisclosures L salts i cs = .ok ds) :
    ds.map (fun d => (d.name, d.value)) = cs ∧ ∀ d ∈ ds, Made L d := by
  induction cs generalizing i ds with
  | nil =>
    cases h
    exact ⟨rfl, fun d hd => by cases hd⟩
  | cons c cs ih =>
    obtain ⟨name, value⟩ := c
    unfold newDisclosures at h
    split at h
    · cases h
    rename_i d hd
    split at h
    · cases h
    rename_i ds' hds
    cases h
    obtain ⟨heq, hmade⟩ := newDisclosure_made hd
    obtain ⟨hrest, hall⟩ := ih hds
    refine ⟨by rw [map_cons, heq, hrest], fun d' hd' => ?_⟩
    rcases mem_cons.mp hd' with rfl | hd'
    · exact hmade
    · exact hall d' hd'

structure Discloses (L : SDJWTLib S K) (sdSet : List String) (claims : GoMap Json) (raws : List String)
    (disclosed : List (String × Json)) : Prop where
  digests : ∀ raw ∈ raws, disclosureHash L raw ∈ sdSet
  decoded : List.Forall₂ (fun raw nv => ∃ salt, decodeDisclosure L raw = .ok (salt, nv.1, nv.2)) raws disclosed
  nodup : (disclosed.map (·.1)).Nodup
  fresh : ∀ nv ∈ disclosed, nv.1 ∉ claims ∧ nv.1 ∉ reservedNames

theorem Discloses.nil (sdSet claims) : Discloses L sdSet claims [] [] where
  digests := fun r hr => by cases hr
  decoded := .nil
  nodup := nodup_nil
  fresh := fun nv hnv => by cases hnv

theorem Discloses.cons_iff {raw disclosed} :
    Discloses L sdSet claims (raw :: raws) ((name, value) :: disclosed) ↔
      disclosureHash L raw ∈ sdSet ∧ (∃ salt, decodeDisclosure L raw = .ok (salt, name, value)) ∧
        (name ∉ claims ∧ name ∉ reservedNames) ∧ Discloses L sdSet (claims.insert name value) raws disclosed := by
  constructor
  · intro h
    obtain ⟨hhead, htail⟩ := forall₂_cons.mp h.decoded
    have hnodup := h.nodup
    rw [map_cons, nodup_cons] at hnodup
    refine ⟨h.digests raw (mem_cons_self ..), hhead, h.fresh _ (mem_cons_self ..), ?_⟩
    refine ⟨fun r hr => h.digests r (mem_cons_of_mem _ hr), htail, hnodup.2, fun nv hnv => ?_⟩
    have hfresh := h.fresh nv (mem_cons_of_mem _ hnv)
    refine ⟨fun hmem => ?_, hfresh.2⟩
    rcases mem_insert.mp hmem with heq | hmem
    · exact hnodup.1 (mem_map.mpr ⟨nv, hnv, heq⟩)
    · exact hfresh.1 hmem
  · intro ⟨hdigest, hhead, hfresh, h⟩
    refine ⟨fun r hr => ?_, forall₂_cons.mpr ⟨hhead, h.decoded⟩, ?_, fun nv hnv => ?_⟩
    · rcases mem_cons.mp hr with rfl | hr
      · exact hdigest
      · exact h.digests r hr
    · rw [map_cons, nodup_cons]
      refine ⟨fun hmem => ?_, h.nodup⟩
      obtain ⟨nv, hnv, heq⟩ := mem_map.mp hmem
      exact (h.fresh nv hnv).1 (mem_insert.mpr (.inl heq))
    · rcases mem_cons.mp hnv with rfl | hnv
      · exact hfresh
      · have hrest := h.fresh nv hnv
        exact ⟨fun hmem => hrest.1 (mem_insert.mpr (.inr hmem)), hrest.2⟩

theorem applyDisclosures_ok_iff {out} :
    applyDisclosures L sdSet claims raws = .ok out ↔
      ∃ disclosed, Discloses L sdSet claims raws disclosed ∧
        ∀ n, out.lookup n = (disclosed.lookup n).or (claims.lookup n) := by
  induction raws generalizing claims with
  | nil =>
    unfold applyDisclosures
    constructor
    · intro h
      cases h
      exact ⟨[], .nil sdSet out, fun n => rfl⟩
    · intro ⟨disclosed, h, hout⟩
      cases h.decoded
      rw [ext_lookup hout]
  | cons raw raws ih =>
    have hlookup : ∀ (name : String) (value : Json) (disclosed : List (String × Json)), name ∉ disclosed.map (·.1) →
        ∀ n, (disclosed.lookup n).or ((claims.insert name value).lookup n) =
          (((name, value) :: disclosed).lookup n).or (claims.lookup n) := by
      intro name value disclosed hname n
      rw [lookup_cons]
      by_cases hn : n = name
      · subst hn
        have hnone : disclosed.lookup n = none := by
          rw [lookup_eq_none_iff]
          intro nv hnv
          exact bne_iff_ne.mpr fun heq => hname (mem_map.mpr ⟨nv, hnv, heq.symm⟩)
        rw [hnone, lookup_insert]
        simp
      · rw [lookup_insert_of_ne _ hn, beq_eq_false_iff_ne.mpr hn]
    unfold applyDisclosures
    constructor
    · intro h
      split at h
      · cases h
      rename_i hdigest
      split at h
      · cases h
      rename_i salt name value hdecode
      split at h
      · cases h
      rename_i hfresh
      rw [not_or] at hfresh
      obtain ⟨disclosed, hd, hout⟩ := ih.mp h
      have hall := Discloses.cons_iff.mpr ⟨not_not.mp hdigest, ⟨salt, hdecode⟩, hfresh, hd⟩
      refine ⟨(name, value) :: disclosed, hall, fun n => ?_⟩
      have hnodup := hall.nodup
      rw [map_cons, nodup_cons] at hnodup
      rw [hout n, hlookup name value disclosed hnodup.1]
    · intro ⟨disclosed, h, hout⟩
      cases disclosed with
      | nil => cases h.decoded
      | cons nv disclosed =>
        obtain ⟨name, value⟩ := nv
        have hnodup := h.nodup
        rw [map_cons, nodup_cons] at hnodup
        obtain ⟨hdigest, ⟨salt, hdecode⟩, hfresh, hd⟩ := Discloses.cons_iff.mp h
        rw [if_neg (not_not_intro hdigest), hdecode]
        dsimp only
        rw [if_neg (not_or.mpr hfresh)]
        exact ih.mpr ⟨disclosed, hd, fun n => by rw [hout n, hlookup name value disclosed hnodup.1]⟩

/-! ## The issuer's token -/

theorem issueSDJWT_ok
    (h : issueSDJWT L p env = .ok (token, ds)) :
    ∃ times holder tok signed, issueTimes p env.now = .ok times ∧ holderClaim L p = .ok holder ∧
      newDisclosures L env.salts 0 p.disclosableClaims.list = .ok ds ∧
      buildRange L.toJwtLib (issuerClaims p times ++ sdClaims (ds.map (·.hash))) p.plainClaims holder = some tok ∧
      L.sign p.algorithm p.signer p.headers tok = some signed ∧ token = serializeSDJWT signed (ds.map (·.raw)) := by
  unfold issueSDJWT at h
  split at h
  · cases h
  rename_i times htimes
  split at h
  · cases h
  rename_i ds' hds
  split at h
  · cases h
  rename_i holder hholder
  split at h
  · cases h
  rename_i tok htok
  split at h
  · cases h
  · rename_i signed hsigned
    cases h
    exact ⟨times, holder, tok, signed, htimes, hholder, hds, htok, hsigned, rfl⟩

theorem plain_issuerClaims (J) (p : SDJWTParams S) (times) (hashes : List String) :
    Plain J (issuerClaims p times ++ sdClaims hashes) := by
  refine ⟨?_, ?_⟩
  · unfold issuerClaims sdClaims
    simp [J.set_text, J.set_time, J.set_other, registeredClaims]
  · show ["iss", "sub", "iat", "exp", "vct", "_sd_alg", "_sd"].Nodup
    decide

theorem plain_holderClaim {holder} (h : holderClaim L p = .ok holder) :
    Plain L.toJwtLib holder ∧ ∀ k, k ≠ "cnf" → holder.lookup k = none := by
  unfold holderClaim at h
  split at h
  · cases h
    exact ⟨plain_nil, fun k _ => rfl⟩
  · split at h
    · cases h
    cases h
    refine ⟨⟨?_, nodup_singleton _⟩, fun k hk => ?_⟩
    · intro kv hkv
      rw [mem_singleton.mp hkv]
      exact L.set_other "cnf" (by decide) _
    · rw [lookup_cons, beq_eq_false_iff_ne.mpr hk]
      rfl

structure SignedAs (L : SDJWTLib S K) (p : SDJWTParams S) (times : Int × Int) (holder : List (String × Json))
    (ds : List Disclosure) (signed : String) (tok : GoMap Json) : Prop where
  sign : L.sign p.algorithm p.signer p.headers tok = some signed
  holder_eq : holderClaim L p = .ok holder
  made : ∀ d ∈ ds, Made L d
  names : ds.map (fun d => (d.name, d.value)) = p.disclosableClaims.list
  lookup : ∀ k, tok.lookup k = (holder.lookup k).or (match p.plainClaims.lookup k with
    | some v => L.set k v
    | none => (issuerClaims p times ++ sdClaims (ds.map (·.hash))).lookup k)
  taken : ∀ k v, p.plainClaims.lookup k = some v → ∃ w, L.set k v = some w

theorem issueSDJWT_signed
    (h : issueSDJWT L p env = .ok (token, ds)) :
    ∃ times holder signed tok, issueTimes p env.now = .ok times ∧ SignedAs L p times holder ds signed tok ∧
      token = serializeSDJWT signed (ds.map (·.raw)) := by
  obtain ⟨times, holder, tok, signed, htimes, hholder, hds, htok, hsigned, htoken⟩ := issueSDJWT_ok h
  obtain ⟨hnames, hmade⟩ := newDisclosures_made hds
  have hbase := plain_issuerClaims L.toJwtLib p times (ds.map (·.hash))
  have hrest := (plain_holderClaim hholder).1
  refine ⟨times, holder, signed, tok, htimes, ⟨hsigned, hholder, hmade, hnames, fun k => ?_, fun k v hv => ?_⟩, htoken⟩
  · exact lookup_buildRange hbase hrest htok
  · cases hset : L.set k v with
    | some w => exact ⟨w, rfl⟩
    | none =>
      have hnone := (buildRange_eq_none hbase hrest).mpr ⟨k, v, hv, hset⟩
      rw [hnone] at htok
      cases htok

def ownClaims (L : SDJWTLib S K) (p : SDJWTParams S) (now : Int) : List (String × Json) :=
  match issueTimes p now, holderClaim L p with
  | .ok times, .ok holder => holder ++ issuerClaims p times
  | _, _ => []

section
variable {p : SDJWTParams S} {times : Int × Int} {holder : List (String × Json)} {signed : String}
  {tok : GoMap Json}

theorem SignedAs.ownClaims_eq (h : SignedAs L p times holder ds signed tok) {now}
    (htimes : issueTimes p now = .ok times) : ownClaims L p now = holder ++ issuerClaims p times := by
  unfold ownClaims
  rw [htimes, h.holder_eq]

theorem lookup_sdClaims (hk : k ∉ reservedNames) (hashes : List String) : (sdClaims hashes).lookup k = none := by
  simp only [reservedNames, mem_cons, not_mem_nil, or_false, not_or] at hk
  unfold sdClaims
  rw [lookup_cons, beq_eq_false_iff_ne.mpr hk.2, lookup_cons, beq_eq_false_iff_ne.mpr hk.1]
  rfl

theorem SignedAs.lookup_eq (h : SignedAs L p times holder ds signed tok) (hk : k ∉ reservedNames) :
    tok.lookup k = (holder.lookup k).or (match p.plainClaims.lookup k with
      | some v => L.set k v
      | none => (issuerClaims p times).lookup k) := by
  rw [h.lookup k, lookup_append, lookup_sdClaims hk, or_none]

theorem isSome_lookup {l : List (String × Json)} : (l.lookup k).isSome = true ↔ k ∈ l.map (·.1) := by
  rw [List.lookup_isSome_iff, List.mem_map]
  simp only [beq_iff_eq, eq_comm (a := k)]

theorem SignedAs.isSome_iff (h : SignedAs L p times holder ds signed tok) (hk : k ∉ reservedNames) :
    (tok.lookup k).isSome = true ↔ k ∈ p.plainClaims ∨ k ∈ (holder ++ issuerClaims p times).map (·.1) := by
  rw [h.lookup_eq hk, ← isSome_lookup, lookup_append, ← lookup_isSome, isSome_or, isSome_or]
  cases hv : p.plainClaims.lookup k with
  | none => simp
  | some v =>
    obtain ⟨w, hw⟩ := h.taken k v hv
    simp [hw]

/-! ## The verifier -/

theorem parseValid_signed {alg key jwt tok' t} (algs)
    (hparse : L.parse alg key jwt = some tok') (hother : ∀ alg', alg' ≠ alg → L.parse alg' key jwt = none) :
    parseValid L key jwt t algs = if alg ∈ algs ∧ timesValid tok'.claims.lookup t = true then some tok' else none := by
  induction algs with
  | nil => simp [parseValid]
  | cons a algs ih =>
    unfold parseValid
    by_cases ha : a = alg
    · subst ha
      rw [hparse]
      dsimp only
      by_cases hvalid : timesValid tok'.claims.lookup t = true
      · simp [hvalid]
      · rw [if_neg hvalid, ih]
        simp [hvalid]
    · rw [hother a ha]
      rw [ih]
      simp [Ne.symm ha]

theorem timesValid_congr {get get'} (h : ∀ k ∈ ["exp", "iat", "nbf"], get k = get' k) (t) :
    timesValid get t = timesValid get' t := by
  unfold timesValid
  rw [h "exp" (by decide), h "iat" (by decide), h "nbf" (by decide)]

def initialClaim (L : SDJWTLib S K) (tok : GoMap Json) (k : String) : Option Json :=
  if k ∈ reservedNames then none else (tok.lookup k).map L.read

theorem lookup_withoutReserved (claims k) :
    (withoutReserved claims).lookup k = if k ∈ reservedNames then none else claims.lookup k := by
  unfold withoutReserved
  by_cases halg : k = "_sd_alg"
  · subst halg
    rw [lookup_erase, if_pos (by decide)]
  · rw [lookup_erase_ne halg]
    by_cases hsd : k = "_sd"
    · subst hsd
      rw [lookup_erase, if_pos (by decide)]
    · simp [reservedNames, halg, hsd]

theorem SignedAs.verify_iff (h : SignedAs L p times holder ds signed tok) {raws t claims} :
    verifyAndExtractClaims L signed raws (L.publicKey p.signer) t = .ok claims ↔
      p.algorithm ∈ ["PS256", "RS256", "ES256"] ∧ timesValid tok.lookup t = true ∧
        ∃ initial, (∀ k, initial.lookup k = initialClaim L tok k) ∧
          applyDisclosures L (sdDigests ((tok.lookup "_sd").map L.read)) initial raws = .ok claims := by
  obtain ⟨tok', hparse, hlookup⟩ := L.parse_sign h.sign
  have htimes : timesValid tok'.claims.lookup t = timesValid tok.lookup t := by
    refine timesValid_congr (fun k hk => ?_) t
    rw [hlookup, if_pos]
    revert k
    decide
  have hsd : tok'.claims.lookup "_sd" = (tok.lookup "_sd").map L.read := by
    rw [hlookup, if_neg (by decide)]
  have hinitial : ∀ k, (withoutReserved (tok'.claims.mapValues L.read)).lookup k = initialClaim L tok k := by
    intro k
    rw [lookup_withoutReserved, GoMap.lookup_mapValues, hlookup]
    unfold initialClaim
    by_cases hk : k ∈ registeredClaims
    · rw [if_pos hk]
    · rw [if_neg hk, Option.map_map]
      congr 2
      exact funext L.read_read
  unfold verifyAndExtractClaims
  rw [parseValid_signed _ hparse fun alg' ha => L.parse_other h.sign ha, htimes]
  by_cases hok : p.algorithm ∈ ["PS256", "RS256", "ES256"] ∧ timesValid tok.lookup t = true
  · rw [if_pos hok]
    dsimp only
    rw [hsd]
    constructor
    · intro happly
      exact ⟨hok.1, hok.2, _, hinitial, happly⟩
    · intro ⟨_, _, initial, heq, happly⟩
      have hsame : initial = withoutReserved (tok'.claims.mapValues L.read) :=
        ext_lookup fun k => (heq k).trans (hinitial k).symm
      rw [← hsame]
      exact happly
  · rw [if_neg hok]
    constructor
    · intro happly
      cases happly
    · intro ⟨halg, hvalid, _⟩
      exact absurd ⟨halg, hvalid⟩ hok

end

/-! ## Presenting some of the disclosures -/

def presentSDJWT (token : String) (chosen : List Disclosure) : String :=
  serializeSDJWT ((splitRune '~' token).headD "") (chosen.map (·.raw))

def expectedClaim (L : SDJWTLib S K) (p : SDJWTParams S) (now : Int) (chosen : List Disclosure) (n : String) : Option Json :=
  match chosen.find? (fun d => d.name = n) with
  | some d => some d.value
  | none =>
    match p.plainClaims.lookup n with
    | some v => some v
    | none => ((ownClaims L p now).lookup n).map L.read

def PresentsAs (L : SDJWTLib S K) (p : SDJWTParams S) (now t : Int) (token : String) (chosen : List Disclosure) : Prop :=
  ∃ jwt raws claims, parseSDJWT (presentSDJWT token chosen) = .ok (jwt, raws, "") ∧
    verifyAndExtractClaims L jwt raws (L.publicKey p.signer) t = .ok claims ∧
    ∀ n, claims.lookup n = expectedClaim L p now chosen n

/-- What the issuer would have to check. No disclosable claim has a reserved name or that of a
plain claim or of a claim the issuer sets itself; no plain claim has a reserved name or is
replaced by the holder's key; the values are kept by JSON and by the JWT library; the
verifier accepts the algorithm, and the times at time `t`. -/
structure Presentable (L : SDJWTLib S K) (p : SDJWTParams S) (now t : Int) : Prop where
  disclosable : ∀ kv ∈ p.disclosableClaims.list, kv.1 ∉ reservedNames ∧ kv.1 ∉ p.plainClaims ∧
    kv.1 ∉ (ownClaims L p now).map (·.1) ∧ L.read kv.2 = kv.2
  plain : ∀ k v, p.plainClaims.lookup k = some v → k ∉ reservedNames ∧ (∃ w, L.set k v = some w ∧ L.read w = v) ∧
    ∀ holder c, holderClaim L p = .ok holder → holder.lookup k = some c → L.read c = v
  algorithm : p.algorithm ∈ ["PS256", "RS256", "ES256"]
  times : timesValid (fun k => match p.plainClaims.lookup k with
    | some v => L.set k v
    | none => (ownClaims L p now).lookup k) t = true

section
variable {p : SDJWTParams S} {times : Int × Int} {holder : List (String × Json)} {chosen : List Disclosure}
  {signed : String} {tok : GoMap Json} {now t : Int}

def readDisclosed (L : SDJWTLib S K) (chosen : List Disclosure) : List (String × Json) :=
  chosen.map fun d => (d.name, L.read d.value)

theorem forall₂_made (hmade : ∀ d ∈ chosen, Made L d) {disclosed} :
    Forall₂ (fun raw nv => ∃ salt, decodeDisclosure L raw = .ok (salt, nv.1, nv.2)) (chosen.map (·.raw)) disclosed ↔
      disclosed = readDisclosed L chosen := by
  induction chosen generalizing disclosed with
  | nil =>
    rw [map_nil, forall₂_nil_left_iff]
    rfl
  | cons d chosen ih =>
    have ih' := @ih fun d' hd' => hmade d' (mem_cons_of_mem _ hd')
    obtain ⟨salt, hsalt⟩ := (hmade d (mem_cons_self ..)).decodes
    rw [map_cons, forall₂_cons_left_iff]
    constructor
    · intro ⟨nv, rest, ⟨salt', hdecode⟩, hrest, heq⟩
      rw [hsalt] at hdecode
      obtain ⟨name, value⟩ := nv
      cases hdecode
      rw [heq, ih'.mp hrest]
      rfl
    · intro heq
      exact ⟨(d.name, L.read d.value), readDisclosed L chosen, ⟨salt, hsalt⟩, ih'.mpr rfl, heq⟩

theorem lookup_readDisclosed (n) :
    (readDisclosed L chosen).lookup n = (chosen.find? fun d => d.name = n).map fun d => L.read d.value := by
  induction chosen with
  | nil => rfl
  | cons d chosen ih =>
    unfold readDisclosed at ih ⊢
    rw [map_cons, lookup_cons, find?_cons, ih]
    by_cases hn : n = d.name
    · subst hn
      simp
    · rw [beq_eq_false_iff_ne.mpr hn, decide_eq_false (Ne.symm hn)]

theorem lookup_foldr_insert (claims : GoMap Json) (disclosed : List (String × Json)) (n) :
    (disclosed.foldr (fun nv m => m.insert nv.1 nv.2) claims).lookup n = (disclosed.lookup n).or (claims.lookup n) := by
  induction disclosed with
  | nil => rfl
  | cons nv disclosed ih =>
    rw [foldr_cons, lookup_cons]
    by_cases hn : n = nv.1
    · subst hn
      simp
    · rw [lookup_insert_of_ne _ hn, ih, beq_eq_false_iff_ne.mpr hn]

section
variable (h : SignedAs L p times holder ds signed tok)
include h

theorem SignedAs.segment : Segment signed := L.sign_text h.sign

theorem SignedAs.parse_present (hchosen : chosen ⊆ ds) :
    parseSDJWT (presentSDJWT (serializeSDJWT signed (ds.map (·.raw))) chosen) = .ok (signed, chosen.map (·.raw), "") := by
  have hsegments : ∀ ds' : List Disclosure, ds' ⊆ ds → ∀ r ∈ ds'.map (·.raw), Segment r := by
    intro ds' hsub r hr
    obtain ⟨d, hd, rfl⟩ := mem_map.mp hr
    exact (h.made d (hsub hd)).segment
  unfold presentSDJWT
  rw [splitRune_serialize h.segment (hsegments ds (Subset.refl _)), headD_cons]
  exact parseSDJWT_serialize h.segment (hsegments chosen hchosen)

theorem SignedAs.presentsAs_iff (hchosen : chosen ⊆ ds) :
    PresentsAs L p now t (serializeSDJWT signed (ds.map (·.raw))) chosen ↔
      p.algorithm ∈ ["PS256", "RS256", "ES256"] ∧ timesValid tok.lookup t = true ∧
        (∃ initial, (∀ k, initial.lookup k = initialClaim L tok k) ∧
          Discloses L (sdDigests ((tok.lookup "_sd").map L.read)) initial (chosen.map (·.raw)) (readDisclosed L chosen)) ∧
        ∀ n, ((readDisclosed L chosen).lookup n).or (initialClaim L tok n) = expectedClaim L p now chosen n := by
  have hmade : ∀ d ∈ chosen, Made L d := fun d hd => h.made d (hchosen hd)
  constructor
  · intro ⟨jwt, raws, claims, hparse, hverify, hclaims⟩
    rw [h.parse_present hchosen] at hparse
    cases hparse
    obtain ⟨halg, hvalid, initial, hinitial, happly⟩ := h.verify_iff.mp hverify
    obtain ⟨disclosed, hd, hout⟩ := applyDisclosures_ok_iff.mp happly
    obtain rfl := (forall₂_made hmade).mp hd.decoded
    refine ⟨halg, hvalid, ⟨initial, hinitial, hd⟩, fun n => ?_⟩
    rw [← hinitial, ← hout, hclaims]
  · intro ⟨halg, hvalid, ⟨initial, hinitial, hd⟩, hexpected⟩
    have hout := lookup_foldr_insert initial (readDisclosed L chosen)
    have happly := applyDisclosures_ok_iff.mpr ⟨_, hd, hout⟩
    have hverify := h.verify_iff.mpr ⟨halg, hvalid, initial, hinitial, happly⟩
    exact ⟨signed, _, _, h.parse_present hchosen, hverify, fun n => by rw [hout, hinitial, hexpected]⟩

/-! ## The round trip -/

theorem SignedAs.lookup_sd (hsd : "_sd" ∉ p.plainClaims) :
    sdDigests ((tok.lookup "_sd").map L.read) = ds.map (·.hash) := by
  have hlookup : tok.lookup "_sd" = some (.arr ((ds.map (·.hash)).map .str)) := by
    rw [h.lookup, (plain_holderClaim h.holder_eq).2 _ (by decide), lookup_eq_none.mpr hsd]
    rfl
  rw [hlookup, map_some, L.read_texts]
  show ((ds.map (·.hash)).map Json.str).filterMap Json.asString = ds.map (·.hash)
  rw [filterMap_map]
  exact filterMap_some

theorem SignedAs.times_iff (htimes : issueTimes p now = .ok times) :
    timesValid tok.lookup t = timesValid (fun k => match p.plainClaims.lookup k with
      | some v => L.set k v
      | none => (ownClaims L p now).lookup k) t := by
  refine timesValid_congr (fun k hk => ?_) t
  have hnames : k ∉ reservedNames ∧ k ≠ "cnf" := by
    revert k
    decide
  have hholder := (plain_holderClaim h.holder_eq).2 k hnames.2
  rw [h.lookup_eq hnames.1, h.ownClaims_eq htimes, lookup_append, hholder]
  rfl

theorem SignedAs.lookup_own_reserved (hk : k ∈ reservedNames) : (holder ++ issuerClaims p times).lookup k = none := by
  have hcnf : k ≠ "cnf" := by
    revert k
    decide
  rw [lookup_append, (plain_holderClaim h.holder_eq).2 k hcnf]
  have hnames : k ∉ (issuerClaims p times).map (·.1) := by
    show k ∉ ["iss", "sub", "iat", "exp", "vct"]
    revert k
    decide
  by_contra hsome
  exact hnames (isSome_lookup.mp (isSome_iff_ne_none.mpr hsome))

theorem SignedAs.initialClaim_iff (htimes : issueTimes p now = .ok times) :
    (∀ n, initialClaim L tok n = expectedClaim L p now [] n) ↔
      ∀ k v, p.plainClaims.lookup k = some v → k ∉ reservedNames ∧ (∃ w, L.set k v = some w ∧ L.read w = v) ∧
        ∀ holder c, holderClaim L p = .ok holder → holder.lookup k = some c → L.read c = v := by
  have hown := h.ownClaims_eq htimes
  constructor
  · intro hall k v hv
    have hk := hall k
    unfold expectedClaim initialClaim at hk
    rw [find?_nil, hv] at hk
    split at hk
    · cases hk
    rename_i hreserved
    rw [h.lookup_eq hreserved, hv] at hk
    obtain ⟨w, hw⟩ := h.taken k v hv
    refine ⟨hreserved, ?_, fun holder' c hholder hc => ?_⟩
    · cases hc : holder.lookup k with
      | none =>
        rw [hc, none_or] at hk
        dsimp only at hk
        rw [hw] at hk
        exact ⟨w, hw, some.inj hk⟩
      | some c =>
        have hcnf : k = "cnf" := by
          by_contra hne
          rw [(plain_holderClaim h.holder_eq).2 k hne] at hc
          cases hc
        rw [hc, some_or] at hk
        have hread : L.read c = v := some.inj hk
        refine ⟨v, L.set_other k (by rw [hcnf]; decide) v, ?_⟩
        rw [← hread, L.read_read]
    · rw [h.holder_eq] at hholder
      cases hholder
      rw [hc, some_or] at hk
      exact some.inj hk
  · intro hplain n
    unfold expectedClaim initialClaim
    rw [find?_nil]
    cases hv : p.plainClaims.lookup n with
    | none =>
      rw [hown]
      by_cases hreserved : n ∈ reservedNames
      · rw [if_pos hreserved, h.lookup_own_reserved hreserved]
        rfl
      · rw [if_neg hreserved, h.lookup_eq hreserved, hv, lookup_append]
    | some v =>
      obtain ⟨hreserved, ⟨w, hw, hread⟩, hholder⟩ := hplain n v hv
      rw [if_neg hreserved, h.lookup_eq hreserved, hv]
      cases hc : holder.lookup n with
      | none =>
        dsimp only
        rw [none_or, hw, map_some, hread]
      | some c => rw [some_or, map_some, hholder holder c h.holder_eq hc]

theorem SignedAs.nodup_names (hchosen : List.Subperm chosen ds) : (chosen.map (·.name)).Nodup := by
  have hrows := p.disclosableClaims.nodup
  rw [← h.names, List.map_map] at hrows
  obtain ⟨l, hperm, hl⟩ := hchosen
  exact (hperm.map _).nodup_iff.mp ((hl.map _).nodup hrows)

theorem SignedAs.discloses_iff (hsd : "_sd" ∉ p.plainClaims) (hchosen : chosen ⊆ ds)
    (hnodup : (chosen.map (·.name)).Nodup) :
    (∃ initial, (∀ k, initial.lookup k = initialClaim L tok k) ∧
      Discloses L (sdDigests ((tok.lookup "_sd").map L.read)) initial (chosen.map (·.raw)) (readDisclosed L chosen)) ↔
      ∀ d ∈ chosen, d.name ∉ reservedNames ∧ d.name ∉ p.plainClaims ∧
        d.name ∉ (holder ++ issuerClaims p times).map (·.1) := by
  have hfresh : ∀ {initial : GoMap Json}, (∀ k, initial.lookup k = initialClaim L tok k) → ∀ k ∉ reservedNames,
      (k ∉ initial ↔ k ∉ p.plainClaims ∧ k ∉ (holder ++ issuerClaims p times).map (·.1)) := by
    intro initial hinitial k hk
    rw [← not_or, ← h.isSome_iff hk, ← lookup_isSome, hinitial]
    unfold initialClaim
    rw [if_neg hk, isSome_map]
  constructor
  · intro ⟨initial, hinitial, hd⟩ d hmem
    have hd := hd.fresh (d.name, L.read d.value) (mem_map.mpr ⟨d, hmem, rfl⟩)
    exact ⟨hd.2, (hfresh hinitial d.name hd.2).mp hd.1⟩
  · intro hnames
    have hinitial : ∀ k, (withoutReserved (tok.mapValues L.read)).lookup k = initialClaim L tok k := by
      intro k
      rw [lookup_withoutReserved, GoMap.lookup_mapValues]
      rfl
    refine ⟨_, hinitial, ⟨fun raw hraw => ?_, (forall₂_made fun d hd => h.made d (hchosen hd)).mpr rfl, ?_, ?_⟩⟩
    · obtain ⟨d, hd, rfl⟩ := mem_map.mp hraw
      rw [h.lookup_sd hsd, ← (h.made d (hchosen hd)).hash_eq]
      exact mem_map.mpr ⟨d, hchosen hd, rfl⟩
    · unfold readDisclosed
      rw [List.map_map]
      exact hnodup
    · intro nv hnv
      obtain ⟨d, hd, rfl⟩ := mem_map.mp hnv
      obtain ⟨hreserved, hrest⟩ := hnames d hd
      exact ⟨(hfresh hinitial d.name hreserved).mpr hrest, hreserved⟩

end

def demoCredential (name : String) : SDJWTParams UInt8 where
  issuer := "https://id/acme"
  subject := "alice"
  vct := "identity"
  disclosableClaims := ⟨[(name, .str "Ada")], List.nodup_singleton _⟩
  plainClaims := Finmap.singleton "loa" (.str "high")
  ttl := 24 * nsPerHour
  signer := 7
  holderKey := some (.obj [("k", .num 5 0)])

def demoValues (name : String) : List Json :=
  [.arr [.str "01", .str name, .str "Ada"],
    .obj [("iss", .str "https://id/acme"), ("sub", .str "alice"), ("iat", .num 0 0), ("exp", .num 86400 0),
      ("vct", .str "identity"), ("_sd_alg", .str "sha-256"), ("_sd", .arr [.str (encodeToHex (sumPoly (utf8 "00")))]),
      ("loa", .str "high"), ("cnf", .obj [("jwk", .obj [("k", .num 5 0)])])]]

def demoNow : Int := 60 * 1000000000

def demoDisclosure (name : String) : Disclosure := ⟨"01", name, .str "Ada", "00", encodeToHex (sumPoly (utf8 "00"))⟩

theorem demoCredential_presentable :
    Presentable (tableLib (demoValues "given_name")) (demoCredential "given_name") demoNow demoNow where
  disclosable := by
    intro kv hkv
    rw [mem_singleton.mp hkv]
    refine ⟨by decide, ?_, ?_, rfl⟩
    · exact fun hmem => absurd (Finmap.mem_singleton .. |>.mp hmem) (by decide)
    · decide
  plain := by
    intro k v hv
    have hk : k = "loa" := (Finmap.mem_singleton ..).mp (Finmap.mem_of_lookup_eq_some hv)
    subst hk
    cases hv
    refine ⟨by decide, ⟨_, rfl, rfl⟩, fun holder c hholder hc => ?_⟩
    cases hholder
    cases hc
  algorithm := by decide
  times := by with_unfolding_all rfl

/-- What an issuer has issued is accepted with any of its disclosures and yields its claims
exactly if what it was given is presentable, which the issuer does not check. -/
theorem issueSDJWT_presents_iff {p : SDJWTParams S} {env : IssueEnv} {token : String} {ds : List Disclosure}
    (hissue : issueSDJWT L p env = .ok (token, ds)) (t : Int) :
    (∀ chosen, List.Subperm chosen ds → PresentsAs L p env.now t token chosen) ↔ Presentable L p env.now t := by
  obtain ⟨times, holder, signed, tok, htimes, h, rfl⟩ := issueSDJWT_signed hissue
  have hown := h.ownClaims_eq htimes
  have hmem : ∀ kv, kv ∈ p.disclosableClaims.list ↔ ∃ d ∈ ds, (d.name, d.value) = kv := by
    intro kv
    rw [← h.names, List.mem_map]
  have hreserved : (∀ k v, p.plainClaims.lookup k = some v → k ∉ reservedNames) → "_sd" ∉ p.plainClaims := by
    intro hplain hsd
    obtain ⟨v, hv⟩ := mem_iff.mp hsd
    exact hplain "_sd" v hv (by decide)
  constructor
  · intro hall
    obtain ⟨halg, hvalid, _, hempty⟩ := (h.presentsAs_iff (nil_subset _)).mp (hall [] (nil_subperm))
    have hplain := (h.initialClaim_iff htimes).mp hempty
    have hsd := hreserved fun k v hv => (hplain k v hv).1
    refine ⟨fun kv hkv => ?_, hplain, halg, ?_⟩
    · obtain ⟨d, hd, rfl⟩ := (hmem kv).mp hkv
      have hsub : [d] ⊆ ds := cons_subset.mpr ⟨hd, nil_subset _⟩
      obtain ⟨_, _, hdisclose, hclaims⟩ := (h.presentsAs_iff hsub).mp (hall [d] (singleton_subperm_iff.mpr hd))
      have hnames := (h.discloses_iff hsd hsub (nodup_singleton _)).mp hdisclose d (mem_singleton.mpr rfl)
      rw [hown]
      refine ⟨hnames.1, hnames.2.1, hnames.2.2, ?_⟩
      have hvalue := hclaims d.name
      rw [lookup_readDisclosed] at hvalue
      unfold expectedClaim at hvalue
      simpa using hvalue
    · rw [← h.times_iff htimes]
      exact hvalid
  · intro hp chosen hsub
    have hchosen : chosen ⊆ ds := hsub.subset
    have hsd := hreserved fun k v hv => (hp.plain k v hv).1
    refine (h.presentsAs_iff hchosen).mpr ⟨hp.algorithm, ?_, ?_, fun n => ?_⟩
    · rw [h.times_iff htimes]
      exact hp.times
    · refine (h.discloses_iff hsd hchosen (h.nodup_names hsub)).mpr fun d hd => ?_
      obtain ⟨hreserved, hplain, hfresh, _⟩ := hp.disclosable _ ((hmem _).mpr ⟨d, hchosen hd, rfl⟩)
      rw [hown] at hfresh
      exact ⟨hreserved, hplain, hfresh⟩
    · rw [lookup_readDisclosed]
      cases hfind : chosen.find? (fun d => d.name = n) with
      | none =>
        rw [map_none, none_or, (h.initialClaim_iff htimes).mpr hp.plain n]
        unfold expectedClaim
        rw [hfind, find?_nil]
      | some d =>
        have hd := hchosen (mem_of_find?_eq_some hfind)
        obtain ⟨_, _, _, hread⟩ := hp.disclosable _ ((hmem _).mpr ⟨d, hd, rfl⟩)
        unfold expectedClaim
        rw [hfind, map_some, some_or, hread]

theorem demoCredential_presents :
    issueSDJWT (tableLib (demoValues "given_name")) (demoCredential "given_name") ⟨demoNow, fun _ => some [1]⟩ =
        .ok ("PS256.0000.07~00~", [demoDisclosure "given_name"]) ∧
      ∀ chosen, List.Subperm chosen [demoDisclosure "given_name"] →
        PresentsAs (tableLib (demoValues "given_name")) (demoCredential "given_name") demoNow demoNow
          "PS256.0000.07~00~" chosen :=
  have hissue : issueSDJWT (tableLib (demoValues "given_name")) (demoCredential "given_name")
      ⟨demoNow, fun _ => some [1]⟩ = .ok ("PS256.0000.07~00~", [demoDisclosure "given_name"]) := by
    with_unfolding_all rfl
  ⟨hissue, (issueSDJWT_presents_iff hissue demoNow).mpr demoCredential_presentable⟩

/-- With a mapping to a disclosable `sub` a credential is issued that is rejected when that is disclosed. -/
theorem disclosable_subject_rejected :
    issueSDJWT (tableLib (demoValues "sub")) (demoCredential "sub") ⟨demoNow, fun _ => some [1]⟩ =
        .ok ("PS256.0000.07~00~", [demoDisclosure "sub"]) ∧
      parseSDJWT (presentSDJWT "PS256.0000.07~00~" [demoDisclosure "sub"]) = .ok ("PS256.0000.07", ["00"], "") ∧
      verifyAndExtractClaims (tableLib (demoValues "sub")) "PS256.0000.07" ["00"] 7 demoNow =
        .error "disclosure duplicates an existing or reserved claim" := by
  refine ⟨?_, ?_, ?_⟩ <;> with_unfolding_all rfl

end

end

end Clavex
