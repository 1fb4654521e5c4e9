import Mathlib.Data.List.DropRight
import Clavex.SdJwt

/-!
# A library whose texts are places in a table

The laws that the model asks of the JWT, JSON and base64 libraries hold together: here the
text of a JSON value is its place in a table, bytes are written in hexadecimal, and a JWT is
its algorithm, its payload and its key.
-/

namespace Clavex

open List

theorem encodeToHex_rune (b) : ∀ c ∈ (encodeToHex b).toList, base64Rune c = true := by
  have hdigit : ∀ n, n < 16 → base64Rune (hexDigit n) = true := by decide
  intro c hc
  unfold encodeToHex at hc
  rw [String.toList_ofList] at hc
  obtain ⟨x, _, hx⟩ := mem_flatMap.mp hc
  have hlt : x.toNat < 256 := x.toNat_lt
  simp only [mem_cons, not_mem_nil, or_false] at hx
  rcases hx with rfl | rfl
  · exact hdigit _ (by omega)
  · exact hdigit _ (by omega)

theorem trimPadding_eq {s} (h : ∀ c ∈ s.toList, base64Rune c = true) : trimPadding s = s := by
  have hdrop : s.toList.rdropWhile (· == '=') = s.toList := by
    refine rdropWhile_eq_self_iff.mpr fun hne heq => ?_
    have hlast := h _ (getLast_mem hne)
    rw [beq_iff_eq.mp heq] at hlast
    exact absurd hlast (by decide)
  unfold trimPadding
  rw [← rdropWhile, hdrop, String.ofList_toList]

def tableMarshal (values : List Json) (v : Json) : Option Bytes :=
  if v ∈ values then some (List.replicate (values.idxOf v + 1) 0) else none

def tableParse (values : List Json) : Bytes → Option Json
  | [] => none
  | _ :: b => values[b.length]?

variable {values : List Json} {alg jwt : String} {key : UInt8} {claims : GoMap Json}

theorem tableParse_marshal {v b} (h : tableMarshal values v = some b) : tableParse values b = some v := by
  unfold tableMarshal at h
  split at h
  · rename_i hmem
    cases h
    rw [replicate_succ]
    show values[(replicate (values.idxOf v) 0).length]? = some v
    rw [length_replicate]
    exact getElem?_idxOf hmem
  · cases h

def claimsOf : Json → Option (GoMap Json)
  | .obj ms => some (GoMap.ofMembers ms)
  | _ => none

def tableJWT (alg : String) (b : Bytes) (key : UInt8) : String :=
  ".".intercalate [alg, encodeToHex b, encodeToHex [key]]

def tableSign (values : List Json) (alg : String) (key : UInt8) (claims : GoMap Json) : Option String :=
  match values.find? (fun v => claimsOf v = some claims) with
  | none => none
  | some v => if alg.toList.all base64Rune then (tableMarshal values v).map (tableJWT alg · key) else none

def tableVerify (values : List Json) (alg : String) (key : UInt8) (jwt : String) : Option JWTToken :=
  match splitDots jwt with
  | [alg', segment, signature] =>
    if alg' = alg ∧ signature = encodeToHex [key] then
      match demoDecode (trimPadding segment) with
      | none => none
      | some b => ((tableParse values b).bind claimsOf).map fun claims => ⟨b, claims⟩
    else none
  | _ => none

theorem tableSign_some
    (h : tableSign values alg key claims = some jwt) :
    ∃ b, (tableParse values b).bind claimsOf = some claims ∧ (∀ c ∈ alg.toList, base64Rune c = true) ∧
      jwt = tableJWT alg b key := by
  unfold tableSign at h
  split at h
  · cases h
  rename_i v hv
  have hclaims := find?_some hv
  split at h
  · rename_i halg
    obtain ⟨b, hb, rfl⟩ := Option.map_eq_some_iff.mp h
    refine ⟨b, ?_, all_eq_true.mp halg, rfl⟩
    rw [tableParse_marshal hb]
    exact of_decide_eq_true hclaims
  · cases h

theorem splitDots_tableJWT (h : ∀ c ∈ alg.toList, base64Rune c = true) (b key) :
    splitDots (tableJWT alg b key) = [alg, encodeToHex b, encodeToHex [key]] := by
  have hdot : ∀ s : String, (∀ c ∈ s.toList, base64Rune c = true) → '.' ∉ s.toList :=
    fun s hs hmem => absurd (hs _ hmem) (by decide)
  refine splitRune_intercalate rfl (cons_ne_nil _ _) fun s hs => ?_
  simp only [mem_cons, not_mem_nil, or_false] at hs
  rcases hs with rfl | rfl | rfl
  · exact hdot _ h
  · exact hdot _ (encodeToHex_rune b)
  · exact hdot _ (encodeToHex_rune [key])

theorem tableJWT_rune (h : ∀ c ∈ alg.toList, base64Rune c = true) (b key) :
    ∀ c ∈ (tableJWT alg b key).toList, (base64Rune c || c == '.') = true := by
  intro c hc
  unfold tableJWT at hc
  rw [String.toList_intercalate] at hc
  simp only [intercalate, map_cons, map_nil, intersperse_cons_cons, intersperse_singleton,
    flatten_cons, flatten_nil, append_nil, mem_append] at hc
  rw [Bool.or_eq_true]
  rcases hc with hc | hc | hc | hc | hc
  · exact .inl (h c hc)
  · rw [mem_singleton.mp hc]
    exact .inr rfl
  · exact .inl (encodeToHex_rune b c hc)
  · rw [mem_singleton.mp hc]
    exact .inr rfl
  · exact .inl (encodeToHex_rune [key] c hc)

theorem tableVerify_sign
    (h : tableSign values alg key claims = some jwt) (alg') :
    (tableVerify values alg' key jwt).map (·.claims) = if alg' = alg then some claims else none := by
  obtain ⟨b, hb, halg, rfl⟩ := tableSign_some h
  unfold tableVerify
  rw [splitDots_tableJWT halg]
  dsimp only
  by_cases heq : alg' = alg
  · rw [if_pos ⟨heq.symm, rfl⟩, if_pos heq, trimPadding_eq (encodeToHex_rune b), demoDecode_encode]
    dsimp only
    rw [hb]
    rfl
  · rw [if_neg fun hand => heq hand.1.symm, if_neg heq]
    rfl

def tableLib (values : List Json) : SDJWTLib UInt8 UInt8 where
  toJwtLib := jwx
  publicKey := id
  sum256 := sumPoly
  encodeToString := encodeToHex
  decodeString := demoDecode
  marshal := tableMarshal values
  parseJSON := tableParse values
  read := id
  sign alg s _ claims := tableSign values alg s claims
  parse := tableVerify values
  parseInsecure jwt :=
    match splitDots jwt with
    | [alg, _, signature] => (demoDecode signature).bind fun key => tableVerify values alg (key.headD 0) jwt
    | _ => none
  types _ := some ["kb+jwt"]
  parseKey
    | .obj [("k", .num key 0)] => some (UInt8.ofNat key.toNat)
    | _ => none
  publicJWK := some
  marshalKey key := some [key]
  decode_encode := demoDecode_encode
  encode_nil := rfl
  encode_rune := encodeToHex_rune
  parse_marshal := tableParse_marshal
  parseJSON_nil := rfl
  read_text := fun s => rfl
  read_texts := fun l => rfl
  read_read := fun v => rfl
  sign_text := by
    intro alg s _ claims jwt h
    obtain ⟨b, _, halg, rfl⟩ := tableSign_some h
    have hsplit := splitDots_tableJWT halg b s
    refine ⟨fun he => ?_, fun hmem => ?_⟩
    · have hlen : (splitDots "").length = 3 := by rw [← he, hsplit]; rfl
      exact absurd hlen (by decide)
    · exact absurd (tableJWT_rune halg b s _ hmem) (by decide)
  parse_sign := by
    intro alg s _ claims jwt h
    have hv := tableVerify_sign h alg
    rw [if_pos rfl] at hv
    obtain ⟨tok, htok, hclaims⟩ := Option.map_eq_some_iff.mp hv
    refine ⟨tok, htok, fun k => ?_⟩
    rw [hclaims, Option.map_id, id, ite_self]
  parse_other := by
    intro alg alg' s _ claims jwt h hne
    have hv := tableVerify_sign h alg'
    rw [if_neg hne] at hv
    exact Option.map_eq_none_iff.mp hv
  parse_compact := by
    intro alg key jwt tok h _
    unfold tableVerify at h
    split at h
    · rename_i alg' segment signature hsplit
      split at h
      · split at h
        · cases h
        rename_i b hb
        obtain ⟨claims, _, rfl⟩ := Option.map_eq_some_iff.mp h
        unfold payloadSegment
        rw [hsplit]
        exact hb
      · cases h
    · cases h

end Clavex
