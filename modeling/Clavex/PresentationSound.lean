import Clavex.Presentation
import Clavex.SdJwtSound

/-!
# What an accepted presentation guarantees

For a token in compact serialization the claims that are read before the signature is checked
are those of the signed payload and of disclosures with a digest in it. They satisfy the query,
and a key binding JWT is one of the holder for this verifier, this session and this presentation.
-/

namespace Clavex

open List Finmap

section
variable {S K : Type} {L : SDJWTLib S K}

/-! ## What is presented -/

def Assembles (vpToken issuerJWT : String) (raws : List String) (kbJWT : String) : Prop :=
  issuerJWT ≠ "" ∧ ∃ parts, splitRune '~' vpToken = issuerJWT :: parts ∧
    parts.filter (· ≠ "") = raws ++ if kbJWT = "" then [] else [kbJWT]

variable {vpToken issuerJWT kbJWT jwt : String} {raws : List String} {claims : GoMap Json} {key : K} {path : List Json}
  {qs : List DCQLClaimQuery} {query : List (String × Json)} {q : SDJWTCredentialQuery} {kbNow : Int} {r : PresentationRequest K}

theorem parseSDJWT_assembles
    (h : parseSDJWT vpToken = .ok (issuerJWT, raws, kbJWT)) : Assembles vpToken issuerJWT raws kbJWT := by
  unfold parseSDJWT at h
  split at h
  · cases h
  rename_i jwt parts hsplit
  split at h
  · cases h
  rename_i hne
  dsimp only at h
  split at h
  · rename_i hlast
    cases h
    refine ⟨hne, parts, hsplit, ?_⟩
    rw [if_neg hlast.1]
    cases hp : parts.getLast? with
    | none =>
      rw [hp] at hlast
      exact absurd rfl hlast.1
    | some last =>
      rw [hp] at hlast
      have hparts := dropLast_append_getLast? last hp
      have hkept : [last].filter (· ≠ "") = [last] := filter_eq_self.mpr fun s hs => by
        rw [mem_singleton.mp hs]
        exact decide_eq_true hlast.1
      conv_lhs => rw [← hparts]
      rw [filter_append, hkept]
      rfl
  · cases h
    refine ⟨hne, parts, hsplit, ?_⟩
    rw [if_pos rfl, append_nil]

/-! ## The claims -/

theorem extractSDJWTClaimsNoSigCheck_ok
    (h : extractSDJWTClaimsNoSigCheck L issuerJWT raws = .ok claims) :
    ∃ b payload disclosed, payloadSegment L.decodeString issuerJWT = some b ∧
      (L.parseJSON b).bind decMembers = some payload ∧
      Discloses L (sdDigests ((payload.lookup "_sd").map L.read)) (withoutReserved (payload.mapValues L.read)) raws
        disclosed ∧
      ∀ n, claims.lookup n = (disclosed.lookup n).or (initialClaim L payload n) := by
  unfold extractSDJWTClaimsNoSigCheck at h
  split at h
  · cases h
  rename_i b hb
  split at h
  · cases h
  rename_i payload hpayload
  dsimp only at h
  rw [GoMap.lookup_mapValues] at h
  obtain ⟨disclosed, hd, hclaims⟩ := applyDisclosures_ok_iff.mp h
  refine ⟨b, payload, disclosed, hb, hpayload, hd, fun n => ?_⟩
  rw [hclaims, lookup_withoutReserved, GoMap.lookup_mapValues]
  rfl

theorem verifyJWTSignature_ok (h : verifyJWTSignature L jwt key = .ok ()) :
    ∃ alg ∈ ["ES256", "PS256", "RS256"], ∃ tok, L.parse alg key jwt = some tok := by
  unfold verifyJWTSignature at h
  split at h
  · rename_i hany
    obtain ⟨alg, halg, hsome⟩ := any_eq_true.mp hany
    exact ⟨alg, halg, Option.isSome_iff_exists.mp hsome⟩
  · cases h

theorem checkIssuer_ok {trusted iss} (h : checkIssuer L trusted true jwt iss = .ok ()) :
    ∃ key, trusted.lookup iss = some key ∧ ∃ alg ∈ ["ES256", "PS256", "RS256"], ∃ tok, L.parse alg key jwt = some tok := by
  unfold checkIssuer at h
  split at h
  · rename_i key hkey
    exact ⟨key, hkey, verifyJWTSignature_ok (except_mapError_ok h)⟩
  · cases h

/-! ## The query -/

inductive Selects : Json → List Json → Json → Prop where
  | here (v : Json) : Selects v [] v
  | member {value next v k rest} :
      value.member k = some next → Selects next rest v → Selects value (.str k :: rest) v
  | index {items rest : List Json} {i e : Nat} {next v : Json} :
      items[i]? = some next → Selects next rest v → Selects (.arr items) (.num (i * 10 ^ e) e :: rest) v
  | each {items rest item v} :
      item ∈ items → Selects item rest v → Selects (.arr items) (.null :: rest) v

theorem eq_index {m e} (h : ¬ (m < 0 ∨ m % 10 ^ e ≠ 0)) : m = ((m / 10 ^ e).toNat : Int) * 10 ^ e := by
  rw [not_or, not_not] at h
  have hpow : (0 : Int) < 10 ^ e := Int.pow_pos (by decide)
  have hnonneg : 0 ≤ m / 10 ^ e := Int.ediv_nonneg (not_lt.mp h.1) hpow.le
  rw [Int.toNat_of_nonneg hnonneg, Int.ediv_mul_cancel (Int.dvd_of_emod_eq_zero h.2)]

theorem dcqlPathExists_iff {value} : dcqlPathExists path value = true ↔ ∃ v, Selects value path v := by
  induction path generalizing value with
  | nil => exact ⟨fun _ => ⟨value, .here value⟩, fun _ => rfl⟩
  | cons component rest ih =>
    constructor
    · intro h
      unfold dcqlPathExists at h
      split at h
      · contradiction
      · rename_i heq
        cases heq
        split at h
        · cases h
        · rename_i next hnext
          obtain ⟨v, hv⟩ := ih.mp h
          exact ⟨v, .member hnext hv⟩
      · rename_i m e _ items heq
        cases heq
        split at h
        · cases h
        rename_i hindex
        split at h
        · cases h
        rename_i next hnext
        obtain ⟨v, hv⟩ := ih.mp h
        refine ⟨v, ?_⟩
        rw [eq_index hindex]
        exact .index hnext hv
      · rename_i items heq
        cases heq
        obtain ⟨item, hitem, hv⟩ := any_eq_true.mp h
        obtain ⟨v, hv⟩ := ih.mp hv
        exact ⟨v, .each hitem hv⟩
      · cases h
    · intro ⟨v, h⟩
      cases h with
      | member hnext hv =>
        unfold dcqlPathExists
        rw [hnext]
        exact ih.mpr ⟨v, hv⟩
      | @index items _ i e next _ hnext hv =>
        have hpow : (0 : Int) < 10 ^ e := Int.pow_pos (by decide)
        have hindex : ¬ ((i : Int) * 10 ^ e < 0 ∨ (i : Int) * 10 ^ e % 10 ^ e ≠ 0) := by
          rw [Int.mul_emod_left, not_or]
          exact ⟨not_lt.mpr (Int.mul_nonneg (Int.natCast_nonneg i) hpow.le), not_not_intro rfl⟩
        unfold dcqlPathExists
        rw [if_neg hindex, Int.mul_ediv_cancel _ hpow.ne', Int.toNat_natCast, hnext]
        exact ih.mpr ⟨v, hv⟩
      | each hitem hv =>
        exact any_eq_true.mpr ⟨_, hitem, ih.mpr ⟨v, hv⟩⟩

def HasClaim (claims : GoMap Json) (path : List Json) : Prop :=
  ∃ k rest next v, path = .str k :: rest ∧ claims.lookup k = some next ∧ Selects next rest v

theorem dcqlClaimExists_iff (hpath : path ≠ []) : dcqlClaimExists claims path = true ↔ HasClaim claims path := by
  unfold dcqlClaimExists
  constructor
  · intro h
    split at h
    · contradiction
    · rename_i k rest
      split at h
      · cases h
      · rename_i next hnext
        obtain ⟨v, hv⟩ := dcqlPathExists_iff.mp h
        exact ⟨k, rest, next, v, rfl, hnext, hv⟩
    · cases h
  · intro ⟨k, rest, next, v, heq, hnext, hv⟩
    subst heq
    dsimp only
    rw [hnext]
    exact dcqlPathExists_iff.mpr ⟨v, hv⟩

structure Satisfies (q : SDJWTCredentialQuery) (claims : GoMap Json) : Prop where
  type : q.vctValues ≠ [] → textClaim claims "vct" ∈ q.vctValues
  all : q.claimSets = none → ∀ c ∈ q.claims.getD [], HasClaim claims c.path
  some_set : ∀ sets, q.claimSets = some sets →
    ∃ set ∈ sets, ∀ id ∈ set, ∃ c ∈ q.claims.getD [], c.id = id ∧ HasClaim claims c.path

theorem checkClaimQueries_ok {hasSets ids ids' paths}
    (h : checkClaimQueries L hasSets ids paths qs = .ok ids') :
    (∀ c ∈ qs, c.path ≠ []) ∧ (hasSets = true → (qs.map (·.id)).Nodup ∧ ∀ c ∈ qs, c.id ∉ ids) := by
  induction qs generalizing ids paths with
  | nil =>
    have hnone : ∀ {P : DCQLClaimQuery → Prop}, ∀ c ∈ [], P c := fun c hc => absurd hc not_mem_nil
    exact ⟨hnone, fun _ => ⟨nodup_nil, hnone⟩⟩
  | cons claim rest ih =>
    unfold checkClaimQueries at h
    split at h
    · cases h
    rename_i hpath
    obtain ⟨-, -, h⟩ := except_bind_ok h
    dsimp only at h
    split at h
    · cases h
    split at h
    · split at h
      · cases h
      rename_i hid
      obtain ⟨hpaths, hsets⟩ := ih h
      refine ⟨forall_mem_cons.mpr ⟨hpath, hpaths⟩, fun hs => ?_⟩
      obtain ⟨hnodup, hfresh⟩ := hsets hs
      refine ⟨?_, forall_mem_cons.mpr ⟨fun hmem => hid (.inr hmem), fun c hc hmem => ?_⟩⟩
      · rw [map_cons, nodup_cons]
        refine ⟨fun hmem => ?_, hnodup⟩
        obtain ⟨c, hc, heq⟩ := mem_map.mp hmem
        exact hfresh c hc (mem_cons.mpr (.inl heq))
      · exact hfresh c hc (mem_cons_of_mem _ hmem)
    · split at h
      · cases h
      · rename_i hs
        exact ⟨forall_mem_cons.mpr ⟨hpath, (ih h).1⟩, fun hs' => absurd hs' hs⟩

theorem lookup_presentClaims (hnodup : (qs.map (·.id)).Nodup) (id) :
    ((presentClaims claims qs).lookup id).getD false = true ↔
      ∃ c ∈ qs, c.id = id ∧ dcqlClaimExists claims c.path = true := by
  have hfold : ∀ present : GoMap Bool, (∀ c ∈ qs, c.id ∉ present) →
      (((qs.foldl (fun present claim => present.insert claim.id (dcqlClaimExists claims claim.path)) present).lookup
        id).getD false = true ↔
      (present.lookup id).getD false = true ∨ ∃ c ∈ qs, c.id = id ∧ dcqlClaimExists claims c.path = true) := by
    induction qs with
    | nil => simp
    | cons c qs ih =>
      intro present hfresh
      rw [map_cons, nodup_cons] at hnodup
      have hstep := ih hnodup.2 (present.insert c.id (dcqlClaimExists claims c.path)) fun c' hc' hmem => by
        rcases mem_insert.mp hmem with heq | hmem
        · exact hnodup.1 (mem_map.mpr ⟨c', hc', heq⟩)
        · exact hfresh c' (mem_cons_of_mem _ hc') hmem
      rw [foldl_cons, hstep]
      by_cases hid : c.id = id
      · have hnone : present.lookup id = none :=
          lookup_eq_none.mpr (hid ▸ hfresh c (mem_cons_self ..))
        rw [← hid, lookup_insert, hid, hnone]
        simp [hid]
      · rw [lookup_insert_of_ne _ (Ne.symm hid)]
        simp [hid]
  have hstart := hfold ∅ fun c _ => notMem_empty
  unfold presentClaims
  rw [hstart]
  simp

theorem parseSDJWTDCQL_ok
    (h : parseSDJWTDCQL L query = .ok q) :
    ∃ ids, checkClaimQueries L q.claimSets.isSome [] [] (q.claims.getD []) = .ok ids := by
  unfold parseSDJWTDCQL at h
  dsimp only at h
  split at h
  · cases h
  split at h
  · obtain ⟨_, hcheck, h⟩ := except_bind_ok h
    cases h
    unfold checkCredentialQuery at hcheck
    split at hcheck
    · cases hcheck
    split at hcheck
    · cases hcheck
    · split at hcheck
      · cases hcheck
      · obtain ⟨ids, hids, -⟩ := except_bind_ok hcheck
        exact ⟨ids, hids⟩
  · cases h

theorem matchClaims_ok_iff
    (h : parseSDJWTDCQL L query = .ok q) : q.matchClaims claims = .ok () ↔ Satisfies q claims := by
  obtain ⟨ids, hids⟩ := parseSDJWTDCQL_ok h
  obtain ⟨hpaths, hsets⟩ := checkClaimQueries_ok hids
  have hexists : ∀ c ∈ q.claims.getD [], (dcqlClaimExists claims c.path = true ↔ HasClaim claims c.path) :=
    fun c hc => dcqlClaimExists_iff (hpaths c hc)
  have hall : ((q.claims.getD []).all fun c => dcqlClaimExists claims c.path) = true ↔
      ∀ c ∈ q.claims.getD [], HasClaim claims c.path := by
    rw [all_eq_true]
    exact forall₂_congr hexists
  have hset : ∀ sets, q.claimSets = some sets →
      ((sets.any fun set => set.all fun id => ((presentClaims claims (q.claims.getD [])).lookup id).getD false) = true ↔
        ∃ set ∈ sets, ∀ id ∈ set, ∃ c ∈ q.claims.getD [], c.id = id ∧ HasClaim claims c.path) := by
    intro sets hsome
    have hnodup := (hsets (by rw [hsome]; rfl)).1
    simp only [any_eq_true, all_eq_true, lookup_presentClaims hnodup]
    refine exists_congr fun set => and_congr_right fun _ => forall₂_congr fun id _ => exists_congr fun c => ?_
    exact and_congr_right fun hc => and_congr_right fun _ => hexists c hc
  unfold SDJWTCredentialQuery.matchClaims
  dsimp only
  constructor
  · intro hok
    split at hok
    · cases hok
    rename_i htype
    have htype' : q.vctValues ≠ [] → textClaim claims "vct" ∈ q.vctValues :=
      fun hne => by_contra fun hnot => htype ⟨hne, hnot⟩
    split at hok
    · rename_i hnone
      split at hok
      · rename_i hq
        refine ⟨htype', fun _ => hall.mp hq, fun sets hsome => ?_⟩
        rw [hnone] at hsome
        cases hsome
      · cases hok
    · rename_i sets hsome
      split at hok
      · rename_i hq
        refine ⟨htype', fun hnone => ?_, fun sets' hsome' => ?_⟩
        · rw [hsome] at hnone
          cases hnone
        · rw [hsome] at hsome'
          cases hsome'
          exact (hset sets hsome).mp hq
      · cases hok
  · intro hsat
    rw [if_neg fun hand => hand.2 (hsat.type hand.1)]
    cases hsome : q.claimSets with
    | none => exact if_pos (hall.mpr (hsat.all hsome))
    | some sets => exact if_pos ((hset sets hsome).mpr (hsat.some_set sets hsome))

theorem textClaim_mem {vs : List String} {k} (hmem : textClaim claims k ∈ vs) :
    (∃ v ∈ vs, claims.lookup k = some (.str v)) ∨ "" ∈ vs ∧ ∀ v, claims.lookup k ≠ some (.str v) := by
  unfold textClaim at hmem
  cases hv : claims.lookup k with
  | none =>
    rw [hv] at hmem
    exact .inr ⟨hmem, fun _ h => by cases h⟩
  | some j =>
    rw [hv] at hmem
    cases j with
    | str v => exact .inl ⟨v, hmem, rfl⟩
    | _ => exact .inr ⟨hmem, fun _ h => by cases h⟩

/-- A credential without a type is taken for one of the empty type. So a query that asks for that
must fail for the claims it lists, if the credential has none. -/
theorem matchClaims_iff_satisfies (h : parseSDJWTDCQL L query = .ok q) :
    (q.matchClaims claims = .ok () ↔
      Satisfies q claims ∧ (q.vctValues ≠ [] → ∃ vct ∈ q.vctValues, claims.lookup "vct" = some (.str vct))) ↔
    ("" ∈ q.vctValues → Satisfies q claims → ∃ vct, claims.lookup "vct" = some (.str vct)) := by
  rw [matchClaims_ok_iff h, iff_self_and]
  constructor
  · intro htyped hmem hsat
    obtain ⟨vct, -, hvct⟩ := htyped hsat (ne_nil_of_mem hmem)
    exact ⟨vct, hvct⟩
  · intro hcond hsat hne
    rcases textClaim_mem (hsat.type hne) with hfound | ⟨hmem, hnone⟩
    · exact hfound
    · obtain ⟨vct, hvct⟩ := hcond hmem hsat
      exact absurd hvct (hnone vct)

def typeQuery (vct : String) : List (String × Json) :=
  [("credentials", .arr [.obj [("id", .str "name"), ("format", .str "dc+sd-jwt"),
    ("meta", .obj [("vct_values", .arr [.str vct])])]])]

theorem matchClaims_iff_satisfies_identity : ∃ q, parseSDJWTDCQL (tableLib []) (typeQuery "identity") = .ok q ∧
    (q.matchClaims ∅ = .ok () ↔
      Satisfies q ∅ ∧ (q.vctValues ≠ [] → ∃ vct ∈ q.vctValues, (∅ : GoMap Json).lookup "vct" = some (.str vct))) :=
  have hparse : parseSDJWTDCQL (tableLib []) (typeQuery "identity") =
      .ok ⟨"name", "dc+sd-jwt", false, none, ["identity"], none, none⟩ := by with_unfolding_all rfl
  ⟨_, hparse, (matchClaims_iff_satisfies hparse).mpr fun hmem => absurd hmem (by decide)⟩

theorem untyped_credential_matches : ∃ q, parseSDJWTDCQL (tableLib []) (typeQuery "") = .ok q ∧
    q.matchClaims ∅ = .ok () ∧ q.vctValues = [""] ∧ (∅ : GoMap Json).lookup "vct" = none :=
  ⟨⟨"name", "dc+sd-jwt", false, none, [""], none, none⟩, by with_unfolding_all rfl, by with_unfolding_all rfl, rfl, rfl⟩

/-! ## The key binding JWT -/

theorem boundText_eq (issuerJWT raws) : boundText issuerJWT raws = serializeSDJWT issuerJWT raws := by
  unfold boundText serializeSDJWT
  induction raws generalizing issuerJWT with
  | nil =>
    show issuerJWT ++ "~" = issuerJWT ++ "~" ++ ""
    rw [String.append_empty]
  | cons d raws ih =>
    rw [foldl_cons, ih]
    rfl

/-- The key binding JWT is one of the holder of these claims, by a key of theirs, and is for this
verifier, this session and what is presented. -/
structure KeyBound (L : SDJWTLib S K) (r : PresentationRequest K) (claims : GoMap Json) (issuerJWT : String)
    (raws : List String) (kbJWT : String) (kbNow : Int) (key : K) (tok : JWTToken) : Prop where
  presented : kbJWT ≠ ""
  confirmed : ∃ cnf jwk, claims.lookup "cnf" = some cnf ∧ cnf.member "jwk" = some jwk ∧ L.parseKey jwk = some key
  type : L.types kbJWT = some ["kb+jwt"]
  signed : ∃ alg ∈ ["ES256", "PS256"], L.parse alg key kbJWT = some tok
  recent : ∃ iat, dateClaim tok.claims "iat" = some iat ∧ iat * 1000000000 ≤ kbNow + 30 * 1000000000 ∧
    kbNow - iat * 1000000000 ≤ 300 * 1000000000
  nonce : textClaim tok.claims "nonce" = r.expectedNonce
  aud : r.expectedAud ∈ audience tok.claims
  sd_hash : tok.claims.lookup "sd_hash" = some (.str (disclosureHash L (serializeSDJWT issuerJWT raws)))

theorem extractHolderPublicKey_ok (h : extractHolderPublicKey L claims = .ok key) :
    ∃ cnf jwk, claims.lookup "cnf" = some cnf ∧ cnf.member "jwk" = some jwk ∧ L.parseKey jwk = some key := by
  unfold extractHolderPublicKey at h
  split at h
  · rename_i cnf hcnf
    split at h
    · rename_i jwk hjwk
      split at h
      · cases h
      · rename_i hkey
        cases h
        exact ⟨_, _, hcnf, hjwk, hkey⟩
    · cases h
  · cases h

theorem checkKBTime_ok (h : checkKBTime claims kbNow = .ok ()) :
    ∃ iat, dateClaim claims "iat" = some iat ∧ iat * 1000000000 ≤ kbNow + 30 * 1000000000 ∧
      kbNow - iat * 1000000000 ≤ 300 * 1000000000 := by
  unfold checkKBTime at h
  split at h
  · cases h
  rename_i iat hiat
  split at h
  · cases h
  rename_i hfuture
  split at h
  · cases h
  · rename_i hold
    exact ⟨iat, hiat, not_lt.mp hfuture, not_lt.mp hold⟩

theorem lookup_of_textClaim {k s} (h : textClaim claims k = s) (hne : s ≠ "") : claims.lookup k = some (.str s) := by
  unfold textClaim at h
  cases hk : claims.lookup k with
  | none =>
    rw [hk] at h
    exact absurd h.symm hne
  | some v =>
    rw [hk] at h
    cases v with
    | str t =>
      cases h
      rfl
    | _ => exact absurd h.symm hne

theorem checkKBClaims_ok {nonce aud}
    (h : checkKBClaims L claims nonce aud issuerJWT raws = .ok ()) :
    textClaim claims "nonce" = nonce ∧ aud ∈ audience claims ∧
      claims.lookup "sd_hash" = some (.str (disclosureHash L (serializeSDJWT issuerJWT raws))) := by
  unfold checkKBClaims at h
  split at h
  · cases h
  rename_i hnonce
  split at h
  · cases h
  rename_i haud
  split at h
  · cases h
  rename_i hne
  split at h
  · cases h
  rename_i hhash
  have heq := not_not.mp hhash
  refine ⟨not_not.mp hnonce, not_not.mp haud, lookup_of_textClaim ?_ ?_⟩
  · rw [← boundText_eq, heq]
  · rw [← boundText_eq, heq]
    exact hne

theorem checkKeyBinding_ok
    (h : checkKeyBinding L claims kbJWT r.expectedNonce r.expectedAud issuerJWT raws kbNow = .ok ()) (hne : kbJWT ≠ "") :
    ∃ key tok, KeyBound L r claims issuerJWT raws kbJWT kbNow key tok := by
  unfold checkKeyBinding at h
  rw [if_neg hne] at h
  obtain ⟨key, hkey, h⟩ := except_bind_ok h
  have hconfirmed := extractHolderPublicKey_ok (except_mapError_ok hkey)
  have h := except_mapError_ok h
  unfold verifyKBJWT at h
  split at h
  · cases h
  rename_i htype
  split at h
  · cases h
  rename_i tok htok
  obtain ⟨alg, halg, hparse⟩ := exists_of_findSome?_eq_some htok
  obtain ⟨_, htime, h⟩ := except_bind_ok h
  obtain ⟨hnonce, haud, hhash⟩ := checkKBClaims_ok h
  exact ⟨key, tok, hne, hconfirmed, not_not.mp htype, ⟨alg, halg, hparse⟩, checkKBTime_ok htime, hnonce, haud, hhash⟩

/-! ## The whole presentation -/

theorem verifiedSDJWTIdentity_holderBound {raw trusted isLocal bound identity}
    (h : verifiedSDJWTIdentity L raw trusted isLocal bound = .ok identity) : identity.holderBound = bound := by
  unfold verifiedSDJWTIdentity at h
  split at h
  · cases h
  split at h
  · cases h
    rfl
  · split at h
    · cases h
    · cases h
      rfl

theorem verifyDCQLPresentation_ok {now res} (h : verifyDCQLPresentation L r vpToken now kbNow = .ok res) :
    ∃ issuerJWT raws kbJWT query, parseSDJWT vpToken = .ok (issuerJWT, raws, kbJWT) ∧
      extractSDJWTClaimsNoSigCheck L issuerJWT raws = .ok res.claims ∧
      checkIssuer L r.trustedIssuers r.requireTrusted issuerJWT (textClaim res.claims "iss") = .ok () ∧
      parseSDJWTDCQL L r.dcqlQuery = .ok query ∧ (query.requiresBinding = true → kbJWT ≠ "") ∧
      query.matchClaims res.claims = .ok () ∧
      checkKeyBinding L res.claims kbJWT r.expectedNonce r.expectedAud issuerJWT raws kbNow = .ok () ∧
      (res.identity.holderBound = true ↔ kbJWT ≠ "") := by
  obtain ⟨⟨issuerJWT, raws, kbJWT⟩, hparse, h⟩ := except_bind_ok h
  obtain ⟨claims, hclaims, h⟩ := except_bind_ok h
  obtain ⟨_, hissuer, h⟩ := except_bind_ok h
  obtain ⟨-, -, h⟩ := except_bind_ok h
  obtain ⟨query, hquery, h⟩ := except_bind_ok h
  split at h
  · cases h
  rename_i hbinding
  obtain ⟨_, hmatch, h⟩ := except_bind_ok h
  obtain ⟨_, hkb, h⟩ := except_bind_ok h
  obtain ⟨identity, hidentity, h⟩ := except_bind_ok h
  cases h
  refine ⟨issuerJWT, raws, kbJWT, query, except_mapError_ok hparse, except_mapError_ok hclaims, hissuer, hquery,
    fun hreq hempty => hbinding ⟨hreq, hempty⟩, hmatch, hkb, ?_⟩
  rw [verifiedSDJWTIdentity_holderBound hidentity, decide_eq_true_iff]

/-- The issuer's JWT verifies under the key of its issuer, the disclosures have their digests in
its payload, and the claims are those of the payload and of the disclosures. -/
structure ClaimsSigned (L : SDJWTLib S K) (r : PresentationRequest K) (issuerJWT : String) (raws : List String)
    (claims : GoMap Json) (key : K) (tok : JWTToken) (payload : GoMap Json) (disclosed : List (String × Json)) : Prop where
  trusted : r.trustedIssuers.lookup (textClaim claims "iss") = some key
  signed : ∃ alg ∈ ["ES256", "PS256", "RS256"], L.parse alg key issuerJWT = some tok
  payload_eq : (L.parseJSON tok.payload).bind decMembers = some payload
  digests : ∀ raw ∈ raws, disclosureHash L raw ∈ sdDigests ((payload.lookup "_sd").map L.read)
  decoded : List.Forall₂ (fun raw nv => ∃ salt, decodeDisclosure L raw = .ok (salt, nv.1, nv.2)) raws disclosed
  disjoint : (disclosed.map (·.1)).Nodup ∧ ∀ nv ∈ disclosed, initialClaim L payload nv.1 = none ∧ nv.1 ∉ reservedNames
  claims_eq : ∀ n, claims.lookup n = (disclosed.lookup n).or (initialClaim L payload n)

def demoRequest (requireBinding : Json) : PresentationRequest UInt8 where
  dcqlQuery := [("credentials", .arr [.obj [("id", .str "name"), ("format", .str "dc+sd-jwt"),
    ("require_cryptographic_holder_binding", requireBinding), ("meta", .obj [("vct_values", .arr [.str "identity"])]),
    ("claims", .arr [.obj [("path", .arr [.str "given_name"])]])]])]
  expectedNonce := "n-0"
  expectedAud := "https://rp"
  trustedIssuers := Finmap.singleton "https://id/acme" 7
  requireTrusted := true

def demoHolderValues : List Json :=
  demoValues "given_name" ++ [.obj [("iat", .num 60 0), ("nonce", .str "n-0"), ("aud", .arr [.str "https://rp"]),
    ("sd_hash", .str (encodeToHex (sumPoly (utf8 "PS256.0000.07~00~"))))]]

/-- What is accepted from a verifier's trusted issuers, with the issuer's JWT in compact
serialization, is signed and satisfies the query. If the query does not do without holder binding,
or if a key binding JWT is presented all the same, then the holder has bound the presentation. -/
theorem verifyDCQLPresentation_sound {r : PresentationRequest K} {vpToken : String} {now kbNow : Int}
    {res : VerificationResult} (htrusted : r.requireTrusted = true)
    (hcompact : CompactJWT ((splitRune '~' vpToken).headD ""))
    (h : verifyDCQLPresentation L r vpToken now kbNow = .ok res) :
    ∃ issuerJWT raws kbJWT, Assembles vpToken issuerJWT raws kbJWT ∧
      (∃ key tok payload disclosed, ClaimsSigned L r issuerJWT raws res.claims key tok payload disclosed) ∧
      (∃ query, parseSDJWTDCQL L r.dcqlQuery = .ok query ∧ Satisfies query res.claims ∧
        (query.requireBinding ≠ some false ∨ kbJWT ≠ "" →
          ∃ key tok, KeyBound L r res.claims issuerJWT raws kbJWT kbNow key tok)) ∧
      (res.identity.holderBound = true ↔ kbJWT ≠ "") := by
  obtain ⟨issuerJWT, raws, kbJWT, query, hparse, hextract, hissuer, hquery, hbinding, hmatch, hkb, hbound⟩ :=
    verifyDCQLPresentation_ok h
  have hassembles := parseSDJWT_assembles hparse
  refine ⟨issuerJWT, raws, kbJWT, hassembles, ?_, ⟨query, hquery, (matchClaims_ok_iff hquery).mp hmatch, ?_⟩, hbound⟩
  · obtain ⟨b, payload, disclosed, hb, hpayload, hd, hclaims⟩ := extractSDJWTClaimsNoSigCheck_ok hextract
    rw [htrusted] at hissuer
    obtain ⟨key, hkey, alg, halg, tok, htok⟩ := checkIssuer_ok hissuer
    obtain ⟨-, parts, hsplit, -⟩ := hassembles
    rw [hsplit, headD_cons] at hcompact
    -- the segment that the claims were read from is the payload that was verified
    have hsame := L.parse_compact htok hcompact
    rw [hb] at hsame
    cases hsame
    refine ⟨key, tok, payload, disclosed, hkey, ⟨alg, halg, htok⟩, hpayload, hd.digests, hd.decoded, ⟨hd.nodup, ?_⟩, hclaims⟩
    intro nv hnv
    obtain ⟨hfresh, hreserved⟩ := hd.fresh nv hnv
    refine ⟨?_, hreserved⟩
    have hnone := lookup_eq_none.mpr hfresh
    rw [lookup_withoutReserved, GoMap.lookup_mapValues] at hnone
    exact hnone
  · intro hcase
    refine checkKeyBinding_ok hkb ?_
    rcases hcase with hreq | hne
    · refine hbinding ?_
      unfold SDJWTCredentialQuery.requiresBinding
      cases hb : query.requireBinding with
      | none => rfl
      | some b =>
        cases b with
        | true => rfl
        | false => exact absurd hb hreq
    · exact hne

theorem demo_presentation_bound :
    ∃ res, verifyDCQLPresentation (tableLib demoHolderValues) (demoRequest .null) "PS256.0000.07~00~ES256.000000.05"
        demoNow demoNow = .ok res ∧
      ∃ issuerJWT raws kbJWT, Assembles "PS256.0000.07~00~ES256.000000.05" issuerJWT raws kbJWT ∧
        (∃ key tok payload disclosed,
          ClaimsSigned (tableLib demoHolderValues) (demoRequest .null) issuerJWT raws res.claims key tok payload disclosed) ∧
        (∃ query, parseSDJWTDCQL (tableLib demoHolderValues) (demoRequest .null).dcqlQuery = .ok query ∧
          Satisfies query res.claims ∧ (query.requireBinding ≠ some false ∨ kbJWT ≠ "" →
            ∃ key tok, KeyBound (tableLib demoHolderValues) (demoRequest .null) res.claims issuerJWT raws kbJWT demoNow
              key tok)) ∧
        (res.identity.holderBound = true ↔ kbJWT ≠ "") :=
  have hok : (verifyDCQLPresentation (tableLib demoHolderValues) (demoRequest .null) "PS256.0000.07~00~ES256.000000.05"
      demoNow demoNow).isOk = true := by decide +kernel
  match hres : verifyDCQLPresentation (tableLib demoHolderValues) (demoRequest .null) "PS256.0000.07~00~ES256.000000.05"
      demoNow demoNow, hok with
  | .ok res, _ => ⟨res, rfl, verifyDCQLPresentation_sound rfl (by with_unfolding_all decide) hres⟩

/-- A credential that is bound to a key is accepted without a key binding JWT if the query says so. -/
theorem unbound_presentation_accepted :
    (verifyDCQLPresentation (tableLib demoHolderValues) (demoRequest (.bool false)) "PS256.0000.07~00~" demoNow
        demoNow).toOption.any (fun res => (res.claims.lookup "cnf").isSome && !res.identity.holderBound) = true ∧
      parseSDJWT "PS256.0000.07~00~" = .ok ("PS256.0000.07", ["00"], "") := by
  refine ⟨by decide +kernel, ?_⟩
  with_unfolding_all rfl

end

end Clavex
