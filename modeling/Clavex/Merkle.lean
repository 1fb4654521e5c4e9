import Clavex.HashTree
import Clavex.Strings
import Mathlib.Data.Set.Function

/-!
# Merkle roots and signed checkpoints

The hash tree over a batch of audit rows and the proof that is signed for it. SHA-256, the
RSA key of the sealer and base64 are parameters; digests are byte strings, the fields of a
proof are texts. `Verify` and `VerifyChain` read the two roots, the chain hash and the
signature of a proof and nothing else.
-/

namespace Clavex

open HTree

abbrev Bytes := List UInt8

instance : LawfulBEq Bytes := inferInstance

def utf8 (s : String) : Bytes := s.toUTF8.data.toList

theorem utf8_inj {s t} (h : utf8 s = utf8 t) : s = t := by
  have hbytes : s.toUTF8 = t.toUTF8 := ByteArray.ext (Array.toList_inj.mp h)
  exact String.toByteArray_inj.mp hbytes

def hexDigit (n : Nat) : Char := "0123456789abcdef".toList.getD n '0'

def encodeToHex (b : Bytes) : String :=
  String.ofList (b.flatMap fun x => [hexDigit (x.toNat / 16), hexDigit (x.toNat % 16)])

structure MerkleLib where
  sum256 : Bytes → Bytes
  length_sum256 : ∀ b, (sum256 b).length = 32
  signDigest : Bytes → Option Bytes
  verifyDigest : Bytes → Bytes → Bool
  verify_sign : ∀ {d sig}, signDigest d = some sig → verifyDigest d sig = true
  encodeToString : Bytes → String
  decodeString : String → Option Bytes
  decode_encode : ∀ b, decodeString (encodeToString b) = some b

section
variable (M : MerkleLib)

/-! ## Roots -/

def leafHash (rowJSON : Bytes) : Bytes := M.sum256 rowJSON

def hashPair (left right : Bytes) : Bytes := M.sum256 (left ++ right)

def merkleRoot (leaves : List Bytes) : Bytes := (treeRoot (hashPair M) leaves).getD []

def rebuildRoot (rowJSONs : List Bytes) : Bytes := merkleRoot M (rowJSONs.map (leafHash M))

/-! ## Proofs -/

structure MerkleProof where
  orgID : String
  (firstLogID lastLogID logCount : Nat)
  (merkleRoot prevRoot chainHash signature kid : String)

def MerkleProof.chainInput (p : MerkleProof) : Bytes := utf8 (p.prevRoot ++ p.merkleRoot)

def signProof (kid : String) (root : Bytes) (prevRoot orgID : String) (firstID lastID count : Nat) :
    Option MerkleProof :=
  let rootHex := encodeToHex root
  let chainHash := M.sum256 (utf8 (prevRoot ++ rootHex))
  match M.signDigest chainHash with
  | none => none
  | some sig =>
    some {
      orgID := orgID
      firstLogID := firstID
      lastLogID := lastID
      logCount := count
      merkleRoot := rootHex
      prevRoot := prevRoot
      chainHash := encodeToHex chainHash
      signature := M.encodeToString sig
      kid := kid }

def verifyProof (p : MerkleProof) : Except String Unit :=
  let chainHash := M.sum256 p.chainInput
  if encodeToHex chainHash ≠ p.chainHash then .error "merkle: chain hash mismatch"
  else
    match M.decodeString p.signature with
    | none => .error "merkle: signature base64"
    | some sig => if M.verifyDigest chainHash sig then .ok () else .error "merkle: signature invalid"

def verifyChainFrom : Nat → Option MerkleProof → List MerkleProof → Except String Unit
  | _, _, [] => .ok ()
  | i, prev, p :: proofs =>
    match verifyProof M p with
    | .error e => .error ("merkle: checkpoint[" ++ toString i ++ "]: " ++ e)
    | .ok () =>
      if prev.any (fun q => p.prevRoot != q.merkleRoot) then
        .error ("merkle: chain broken at checkpoint[" ++ toString i ++ "]: prev_root mismatch")
      else verifyChainFrom (i + 1) (some p) proofs

def verifyChain (proofs : List MerkleProof) : Except String Unit := verifyChainFrom M 0 none proofs

/-! ## What is accepted -/

def RootsLinked (proofs : List MerkleProof) : Prop := proofs.IsChain fun p q => q.prevRoot = p.merkleRoot

variable {p : MerkleProof} {proofs : List MerkleProof} {kid prevRoot orgID : String} {root : Bytes} {firstID lastID count : Nat}

theorem verifyProof_ok :
    verifyProof M p = .ok () ↔ encodeToHex (M.sum256 p.chainInput) = p.chainHash ∧
      ∃ sig, M.decodeString p.signature = some sig ∧ M.verifyDigest (M.sum256 p.chainInput) sig = true := by
  unfold verifyProof
  by_cases hc : encodeToHex (M.sum256 p.chainInput) = p.chainHash
  · rw [if_neg (not_not_intro hc)]
    cases M.decodeString p.signature with
    | none => simp
    | some sig =>
      by_cases hv : M.verifyDigest (M.sum256 p.chainInput) sig = true
      · simp [hc, hv]
      · simp [hv]
  · rw [if_pos hc]
    simp [hc]

theorem verifyChainFrom_ok {i} {prev} :
    verifyChainFrom M i prev proofs = .ok () ↔
      (∀ p ∈ proofs, verifyProof M p = .ok ()) ∧ RootsLinked (prev.toList ++ proofs) := by
  induction proofs generalizing i prev with
  | nil =>
    cases prev with
    | none | some q => simp [verifyChainFrom, RootsLinked]
  | cons p proofs ih =>
    unfold verifyChainFrom
    cases hp : verifyProof M p with
    | error e => simp [hp]
    | ok u =>
      have ih' := @ih (i + 1) (some p)
      cases prev with
      | none => simp [ih', hp]
      | some q =>
        by_cases hl : p.prevRoot = q.merkleRoot
        · simp [ih', hp, hl, RootsLinked]
        · simp [hl, RootsLinked]

theorem verifyChain_ok :
    verifyChain M proofs = .ok () ↔ (∀ p ∈ proofs, verifyProof M p = .ok ()) ∧ RootsLinked proofs :=
  verifyChainFrom_ok M

theorem signProof_some
    (h : signProof M kid root prevRoot orgID firstID lastID count = some p) :
    ∃ sig, M.signDigest (M.sum256 (utf8 (prevRoot ++ encodeToHex root))) = some sig ∧
      p = { orgID, firstLogID := firstID, lastLogID := lastID, logCount := count, merkleRoot := encodeToHex root,
            prevRoot, chainHash := encodeToHex (M.sum256 (utf8 (prevRoot ++ encodeToHex root))),
            signature := M.encodeToString sig, kid } := by
  simp only [signProof] at h
  split at h
  · cases h
  · rename_i sig hsig
    cases h
    exact ⟨sig, hsig, rfl⟩

theorem verifyProof_signProof
    (h : signProof M kid root prevRoot orgID firstID lastID count = some p) :
    verifyProof M p = .ok () := by
  obtain ⟨sig, hsig, rfl⟩ := signProof_some M h
  exact (verifyProof_ok M).mpr ⟨rfl, sig, M.decode_encode sig, M.verify_sign hsig⟩

end

/-! ## A digest to compute with -/

open List

def sumPoly (b : Bytes) : Bytes :=
  let n := b.foldl (fun acc x => (acc * 257 + x.toNat + 1) % 2 ^ 256) 0
  (List.range 32).map fun i => UInt8.ofNat (n / 256 ^ (31 - i) % 256)

def demoDecode (s : String) : Option Bytes :=
  let digit (c : Char) : Nat := "0123456789abcdef".toList.idxOf c
  let rec pairs : List Char → Bytes
    | a :: b :: l => UInt8.ofNat (digit a * 16 + digit b) :: pairs l
    | _ => []
  some (pairs s.toList)

theorem demoDecode_encode (b) : demoDecode (encodeToHex b) = some b := by
  have hdigit : ∀ n, n < 16 → "0123456789abcdef".toList.idxOf (hexDigit n) = n := by decide
  unfold demoDecode encodeToHex
  simp only [String.toList_ofList, Option.some.injEq]
  induction b with
  | nil => rfl
  | cons x b ih =>
    have hx : x.toNat < 256 := x.toNat_lt
    simp only [flatMap_cons, cons_append, nil_append, demoDecode.pairs, ih, List.cons.injEq, and_true]
    rw [hdigit _ (by omega), hdigit _ (by omega)]
    apply UInt8.toNat_inj.mp
    rw [UInt8.toNat_ofNat']
    omega

def demoMerkle : MerkleLib where
  sum256 := sumPoly
  length_sum256 := fun b => by simp [sumPoly]
  signDigest := some
  verifyDigest := fun d sig => d == sig
  verify_sign := fun h => by cases h; exact beq_self_eq_true _
  encodeToString := encodeToHex
  decodeString := demoDecode
  decode_encode := demoDecode_encode

/-! ## What a root determines -/

section
variable (M : MerkleLib)

def completed (rowJSONs : List Bytes) : List Bytes := ((HTree.build rowJSONs).map HTree.leaves).getD []

def nodeInputs (rowJSONs : List Bytes) : List Bytes :=
  match HTree.build rowJSONs with
  | none => []
  | some t => (t.pairs (leafHash M) (hashPair M)).map fun p => p.1 ++ p.2

def hashInputs (rowJSONs : List Bytes) : List Bytes := rowJSONs ++ nodeInputs M rowJSONs

variable {rowJSONs : List Bytes} {t : HTree Bytes} {p : Bytes × Bytes}

theorem rebuildRoot_eq_fold (h : build rowJSONs = some t) :
    rebuildRoot M rowJSONs = t.fold (leafHash M) (hashPair M) := by
  unfold rebuildRoot merkleRoot
  rw [treeRoot_map, h]
  rfl

theorem completed_eq_leaves (h : build rowJSONs = some t) : completed rowJSONs = t.leaves := by
  unfold completed
  rw [h]
  rfl

theorem length_fold (t : HTree Bytes) : (t.fold (leafHash M) (hashPair M)).length = 32 := by
  cases t with
  | leaf a => exact M.length_sum256 a
  | node l r => exact M.length_sum256 _

theorem length_of_mem_pairs (h : p ∈ t.pairs (leafHash M) (hashPair M)) : p.1.length = 32 ∧ p.2.length = 32 := by
  induction t with
  | leaf a => cases h
  | node l r ihl ihr =>
    rcases mem_cons.mp h with rfl | h
    · exact ⟨length_fold M l, length_fold M r⟩
    · rcases mem_append.mp h with h | h
      · exact ihl h
      · exact ihr h

theorem mem_of_mem_leaves (h : build rowJSONs = some t) {a}
    (ha : a ∈ t.leaves) : a ∈ rowJSONs := by
  obtain ⟨rest, heq, hmem⟩ := leaves_build h
  rw [heq] at ha
  exact (mem_append.mp ha).elim id (hmem a)

theorem mem_nodeInputs (h : build rowJSONs = some t)
    (hp : p ∈ t.pairs (leafHash M) (hashPair M)) : p.1 ++ p.2 ∈ nodeInputs M rowJSONs := by
  simp only [nodeInputs, h]
  exact mem_map_of_mem hp

theorem apart_of_injOn {rows rows' t'} (h : build rows = some t) (h' : build rows' = some t')
    (hsum : Set.InjOn M.sum256 {x | x ∈ hashInputs M rows ∨ x ∈ hashInputs M rows'})
    (hrow : ∀ x ∈ rows, x ∉ nodeInputs M rows') (hrow' : ∀ x ∈ rows', x ∉ nodeInputs M rows) :
    Apart (leafHash M) (hashPair M) t t' := by
  have hleaf : ∀ a ∈ t.leaves, a ∈ hashInputs M rows := fun a ha => mem_append_left _ (mem_of_mem_leaves h ha)
  have hleaf' : ∀ a ∈ t'.leaves, a ∈ hashInputs M rows' :=
    fun a ha => mem_append_left _ (mem_of_mem_leaves h' ha)
  have hnode : ∀ p ∈ t.pairs (leafHash M) (hashPair M), p.1 ++ p.2 ∈ hashInputs M rows :=
    fun p hp => mem_append_right _ (mem_nodeInputs M h hp)
  have hnode' : ∀ p ∈ t'.pairs (leafHash M) (hashPair M), p.1 ++ p.2 ∈ hashInputs M rows' :=
    fun p hp => mem_append_right _ (mem_nodeInputs M h' hp)
  constructor
  · intro a ha a' ha' heq
    exact hsum (.inl (hleaf a ha)) (.inr (hleaf' a' ha')) heq
  · intro p hp p' hp' heq
    have hcat : p.1 ++ p.2 = p'.1 ++ p'.2 := hsum (.inl (hnode p hp)) (.inr (hnode' p' hp')) heq
    -- digests have one length, so the two halves are known
    have hlen : p.1.length = p'.1.length := by rw [(length_of_mem_pairs M hp).1, (length_of_mem_pairs M hp').1]
    obtain ⟨h1, h2⟩ := append_inj hcat hlen
    exact Prod.ext h1 h2
  · intro a ha p hp heq
    have hcat : a = p.1 ++ p.2 := hsum (.inl (hleaf a ha)) (.inr (hnode' p hp)) heq
    exact hrow a (mem_of_mem_leaves h ha) (hcat ▸ mem_nodeInputs M h' hp)
  · intro p hp a ha heq
    have hcat : p.1 ++ p.2 = a := hsum (.inl (hnode p hp)) (.inr (hleaf' a ha)) heq
    exact hrow' a (mem_of_mem_leaves h' ha) (hcat ▸ mem_nodeInputs M h hp)

/-- A root determines the completed batch, and thereby the batch among those of one length
and among those without repeated rows. -/
theorem rebuildRoot_eq_iff_completed (rows rows' : List Bytes) (hne : rows ≠ []) (hne' : rows' ≠ [])
    (hsum : Set.InjOn M.sum256 {x | x ∈ hashInputs M rows ∨ x ∈ hashInputs M rows'})
    (hrow : ∀ x ∈ rows, x ∉ nodeInputs M rows') (hrow' : ∀ x ∈ rows', x ∉ nodeInputs M rows) :
    (rebuildRoot M rows = rebuildRoot M rows' ↔ completed rows = completed rows') ∧
      (rebuildRoot M rows = rebuildRoot M rows' →
        rows.length = rows'.length ∨ rows.Nodup ∧ rows'.Nodup → rows = rows') := by
  obtain ⟨t, ht⟩ := build_isSome hne
  obtain ⟨t', ht'⟩ := build_isSome hne'
  have hiff : rebuildRoot M rows = rebuildRoot M rows' ↔ t.leaves = t'.leaves := by
    rw [rebuildRoot_eq_fold M ht, rebuildRoot_eq_fold M ht']
    constructor
    · intro heq
      rw [eq_of_fold_eq (apart_of_injOn M ht ht' hsum hrow hrow') heq]
    · intro heq
      rw [build_eq_of_leaves ht ht' heq]
  rw [completed_eq_leaves ht, completed_eq_leaves ht']
  refine ⟨hiff, ?_⟩
  intro hroot hcase
  have heq := hiff.mp hroot
  have hlen : rows.length = rows'.length := by
    rcases hcase with hlen | ⟨hn, hn'⟩
    · exact hlen
    · exact Nat.le_antisymm (build_nodup ht' ht heq.symm hn) (build_nodup ht ht' heq hn')
  obtain ⟨rest, hl, -⟩ := leaves_build ht
  obtain ⟨rest', hl', -⟩ := leaves_build ht'
  rw [hl, hl'] at heq
  exact append_inj_left heq hlen

end

/-- Two batches of three rows that differ in the last one. -/
theorem rebuildRoot_last_row :
    rebuildRoot demoMerkle [[1], [2], [3]] ≠ rebuildRoot demoMerkle [[1], [2], [4]] := by
  intro heq
  have hsum : ∀ x ∈ hashInputs demoMerkle [[1], [2], [3]] ++ hashInputs demoMerkle [[1], [2], [4]],
      ∀ y ∈ hashInputs demoMerkle [[1], [2], [3]] ++ hashInputs demoMerkle [[1], [2], [4]],
        demoMerkle.sum256 x = demoMerkle.sum256 y → x = y := by decide +kernel
  have hinj := rebuildRoot_eq_iff_completed demoMerkle [[1], [2], [3]] [[1], [2], [4]]
    (by decide) (by decide) (fun x hx y hy => hsum x (mem_append.mpr hx) y (mem_append.mpr hy))
    (by decide +kernel) (by decide +kernel)
  exact absurd (hinj.2 heq (.inl rfl)) (by decide)

/-- A repeated last row, and a row that is the concatenation of two digests. -/
theorem rebuildRoot_not_injective :
    (([[1], [2], [3]] : List Bytes) ≠ [[1], [2], [3], [3]] ∧
      ∀ M, rebuildRoot M [[1], [2], [3]] = rebuildRoot M [[1], [2], [3], [3]]) ∧
    ∀ M, rebuildRoot M [leafHash M [1] ++ leafHash M [2]] = rebuildRoot M [[1], [2]] :=
  ⟨⟨by decide, fun _ => rfl⟩, fun _ => rfl⟩

end Clavex
