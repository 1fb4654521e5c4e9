import Clavex.Sealer

/-!
# Checkpoints of interleaved sealing calls

What a sealing call does is a short protocol: it reads the latest checkpoint once, then
reads a batch and inserts its checkpoint, again and again. Every stored checkpoint verifies,
in every run. They form one chain as long as each of them is inserted while the checkpoint
its call goes on from is still the latest.
-/

namespace Clavex

open List Option Prog AuditDB

variable {prevRoot : String} {afterID : Nat} {batch : LeafBatch} {o : SealOptions} {A : AuditLib}

/-! ## Batches -/

structure BatchAfter (afterID : Nat) (batch : LeafBatch) : Prop where
  nonempty : batch ≠ []
  sorted : (batch.map (·.1)).Pairwise (· < ·)
  above : ∀ id ∈ batch.map (·.1), afterID < id

structure Seals (A : AuditLib) (org : UUID) (prevRoot : String) (batch : LeafBatch) (cp : AuditMerkleCheckpoint) :
    Prop where
  org : cp.orgID = org
  firstLogID : cp.firstLogID = (batch.head?.map (·.1)).getD 0
  lastLogID : cp.lastLogID = (batch.getLast?.map (·.1)).getD 0
  logCount : cp.logCount = batch.length
  merkleRoot : cp.merkleRoot = encodeToHex (rebuildRoot A.toMerkleLib (batch.map (·.2)))
  prevRoot : cp.prevRoot = prevRoot
  verified : verifyProof A.toMerkleLib (cp.proof A) = .ok ()

variable {org : UUID} {cp : AuditMerkleCheckpoint} {db : AuditDB}

theorem sealBatch_seals
    (h : sealBatch A o org prevRoot batch = some cp) : Seals A org prevRoot batch cp := by
  simp only [sealBatch] at h
  split at h
  · cases h
  rename_i p hp
  have hv := verifyProof_signProof A.toMerkleLib hp
  obtain ⟨sig, -, rfl⟩ := signProof_some A.toMerkleLib hp
  cases h
  exact ⟨rfl, rfl, rfl, rfl, rfl, rfl, hv⟩

theorem rowsAfter_sorted (db : AuditDB) (org) (afterID) :
    (db.rowsAfter org afterID).Pairwise fun r r' => r.id < r'.id := db.sorted.filter _

theorem mem_rowsAfter {r} : r ∈ db.rowsAfter org afterID ↔ r ∈ db.rows ∧ r.orgID = org ∧ afterID < r.id := by
  unfold rowsAfter
  rw [mem_filter, Bool.and_eq_true, beq_iff_eq, decide_eq_true_eq]

def leafBatch (A : AuditLib) (rows : List AuditRow) : LeafBatch := rows.map fun r => (r.id, leafJSON A r)

theorem leafBatch_ids (A) (rows) : (leafBatch A rows).map (·.1) = rows.map (·.id) := by
  unfold leafBatch
  rw [List.map_map]
  rfl

theorem unsealedAuditRows_after {limit}
    (hne : unsealedAuditRows A db org afterID limit ≠ []) : BatchAfter afterID (unsealedAuditRows A db org afterID limit) := by
  have hids : (unsealedAuditRows A db org afterID limit).map (·.1) = ((db.rowsAfter org afterID).take limit).map (·.id) :=
    leafBatch_ids A _
  refine ⟨hne, ?_, ?_⟩
  · rw [hids, pairwise_map]
    exact (rowsAfter_sorted db org afterID).sublist (take_sublist ..)
  · rw [hids]
    intro id hid
    obtain ⟨r, hr, rfl⟩ := mem_map.mp hid
    exact (mem_rowsAfter.mp (mem_of_mem_take hr)).2.2

theorem Seals.range
    (h : Seals A org prevRoot batch cp) (hb : BatchAfter afterID batch) :
    afterID < cp.firstLogID ∧ cp.firstLogID ≤ cp.lastLogID ∧
      ∀ id ∈ batch.map (·.1), cp.firstLogID ≤ id ∧ id ≤ cp.lastLogID := by
  have hfirst : ∀ id ∈ batch.map (·.1), cp.firstLogID ≤ id := by
    rw [h.firstLogID]
    cases batch with
    | nil => exact nofun
    | cons x rest =>
      intro id hid
      rcases mem_cons.mp hid with rfl | hid
      · exact Nat.le_refl _
      · exact Nat.le_of_lt ((pairwise_cons.mp hb.sorted).1 id hid)
  have hlast : ∀ id ∈ batch.map (·.1), id ≤ cp.lastLogID := by
    rw [h.lastLogID]
    obtain ⟨init, x, rfl⟩ := eq_nil_or_concat batch |>.resolve_left hb.nonempty
    have hs := hb.sorted
    rw [concat_eq_append, map_append, pairwise_append] at hs
    intro id hid
    rw [concat_eq_append, map_append] at hid
    simp only [concat_eq_append, getLast?_append, getLast?_singleton, some_or, map_some,
      getD_some]
    rcases mem_append.mp hid with hid | hid
    · exact Nat.le_of_lt (hs.2.2 id hid x.1 (mem_singleton_self _))
    · exact Nat.le_of_eq (mem_singleton.mp hid)
  have hmem : cp.firstLogID ∈ batch.map (·.1) := by
    rw [h.firstLogID]
    cases batch with
    | nil => exact absurd rfl hb.nonempty
    | cons x rest => exact mem_cons_self ..
  exact ⟨hb.above _ hmem, hlast _ hmem, fun id hid => ⟨hfirst id hid, hlast id hid⟩⟩

/-! ## What a call does -/

inductive SealPhase where
  | start
  | reading (afterID : Nat) (prevRoot : String)
  | inserting (afterID : Nat) (cp : AuditMerkleCheckpoint) (batch : LeafBatch)
  | done

section
variable (A : AuditLib) (o : SealOptions)

def SealReq.takes : SealReq → LeafBatch → Prop
  | .sealOrg .., batch => o.batchSize ≤ batch.length
  | .sealPartial _, batch => batch ≠ []

instance (q : SealReq) (batch : LeafBatch) : Decidable (q.takes o batch) :=
  match q with
  | .sealOrg .. => inferInstanceAs (Decidable (o.batchSize ≤ batch.length))
  | .sealPartial _ => inferInstanceAs (Decidable (batch ≠ []))

def afterLatest : Option (Option AuditMerkleCheckpoint) → SealPhase
  | none => .done
  | some last => .reading (sealMark last).1 (sealMark last).2

def afterRows (q : SealReq) (afterID : Nat) (prevRoot : String) : Option LeafBatch → SealPhase
  | none => .done
  | some batch =>
    if q.takes o batch then
      match sealBatch A o q.org prevRoot batch with
      | none => .done
      | some cp => .inserting afterID cp batch
    else .done

def afterInsert (cp : AuditMerkleCheckpoint) : Bool → SealPhase
  | false => .done
  | true => .reading cp.lastLogID cp.merkleRoot

inductive SealStep : SealReq → SealPhase → (op : SealOp) → (op.Resp → SealPhase) → Prop
  | latest (q : SealReq) : SealStep q .start (.latestCheckpoint q.org) afterLatest
  | rows (q : SealReq) (afterID : Nat) (prevRoot : String) :
      SealStep q (.reading afterID prevRoot) (.unsealedAuditRows q.org afterID o.batchSize) (afterRows A o q afterID prevRoot)
  | insert (q : SealReq) (afterID : Nat) (cp : AuditMerkleCheckpoint) (batch : LeafBatch) :
      SealStep q (.inserting afterID cp batch) (.insertMerkleCheckpoint cp afterID batch) (afterInsert cp)

def sealProtocol : Protocol SealReq SealOp SealOp.Resp := ⟨SealPhase, SealStep A o⟩

def SealEnded (φ : SealPhase) (_ : Except String Nat) : Prop := ∀ afterID cp batch, φ ≠ .inserting afterID cp batch

section
variable {q : SealReq}

theorem afterRows_skip (h : ¬ q.takes o batch) : afterRows A o q afterID prevRoot (some batch) = .done := if_neg h

theorem afterRows_unsigned (h : q.takes o batch) (hcp : sealBatch A o q.org prevRoot batch = none) :
    afterRows A o q afterID prevRoot (some batch) = .done := by
  simp only [afterRows, if_pos h, hcp]

theorem afterRows_take (h : q.takes o batch) {cp} (hcp : sealBatch A o q.org prevRoot batch = some cp) :
    afterRows A o q afterID prevRoot (some batch) = .inserting afterID cp batch := by
  simp only [afterRows, if_pos h, hcp]

end

theorem afterRows_cases {q r a cp b} (h : afterRows A o q afterID prevRoot r = .inserting a cp b) :
    r = some b ∧ a = afterID ∧ q.takes o b ∧ sealBatch A o q.org prevRoot b = some cp := by
  unfold afterRows at h
  split at h
  · cases h
  split at h
  · rename_i ht
    split at h
    · cases h
    · rename_i cp' hcp
      cases h
      exact ⟨rfl, rfl, ht, hcp⟩
  · cases h

theorem SealReq.takes_nonempty {q : SealReq} (h : q.takes o batch) : batch ≠ [] := by
  cases q with
  | sealOrg org fuel =>
    intro hnil
    rw [hnil] at h
    exact absurd h (Nat.not_le_of_lt o.batchSize_pos)
  | sealPartial org => exact h

theorem sealLoop_follows (org n fuel afterID prevRoot created) :
    (sealLoop A o org fuel afterID prevRoot created).Follows (sealProtocol A o) (.sealOrg org n) SealEnded
      (.reading afterID prevRoot) := by
  induction fuel generalizing afterID prevRoot created with
  | zero => exact nofun
  | succ fuel ih =>
    simp only [sealLoop, call_bind]
    refine .ask (SealStep.rows (.sealOrg org n) afterID prevRoot) ?_
    intro r
    cases r with
    | none => exact nofun
    | some batch =>
      dsimp only
      by_cases hlen : batch.length < o.batchSize
      · have hskip : ¬ (SealReq.sealOrg org n).takes o batch := Nat.not_le_of_lt hlen
        rw [if_pos hlen, afterRows_skip A o hskip]
        exact nofun
      · rw [if_neg hlen]
        have htakes : (SealReq.sealOrg org n).takes o batch := Nat.le_of_not_lt hlen
        cases hcp : sealBatch A o org prevRoot batch with
        | none =>
          rw [afterRows_unsigned A o htakes hcp]
          exact nofun
        | some cp =>
          rw [afterRows_take A o htakes hcp]
          refine .ask (SealStep.insert (.sealOrg org n) afterID cp batch) ?_
          intro ok
          cases ok with
          | false => exact nofun
          | true => exact ih cp.lastLogID cp.merkleRoot (created + 1)

theorem sealPartial_follows (org) :
    (sealPartial A o org).Follows (sealProtocol A o) (.sealPartial org) SealEnded .start := by
  simp only [sealPartial, call_bind]
  refine .ask (SealStep.latest (.sealPartial org)) ?_
  intro r
  cases r with
  | none => exact nofun
  | some last =>
    refine .ask (SealStep.rows (.sealPartial org) (sealMark last).1 (sealMark last).2) ?_
    intro r
    cases r with
    | none => exact nofun
    | some batch =>
      dsimp only
      by_cases hnil : batch = []
      · have hskip : ¬ (SealReq.sealPartial org).takes o batch := not_not_intro hnil
        rw [if_pos hnil, afterRows_skip A o hskip]
        exact nofun
      · rw [if_neg hnil]
        have htakes : (SealReq.sealPartial org).takes o batch := hnil
        cases hcp : sealBatch A o org (sealMark last).2 batch with
        | none =>
          rw [afterRows_unsigned A o htakes hcp]
          exact nofun
        | some cp =>
          rw [afterRows_take A o htakes hcp]
          refine .ask (SealStep.insert (.sealPartial org) (sealMark last).1 cp batch) ?_
          intro ok
          cases ok with
          | false | true => exact nofun

theorem sealMain_follows (q) : ((sealSystem A o).main q).Follows (sealProtocol A o) q SealEnded .start := by
  cases q with
  | sealPartial org => exact sealPartial_follows A o org
  | sealOrg org fuel =>
    refine .ask (SealStep.latest (.sealOrg org fuel)) ?_
    intro r
    cases r with
    | none => exact nofun
    | some last => exact sealLoop_follows A o org fuel fuel _ _ 0

end

/-! ## Every stored checkpoint verifies -/

@[simp] theorem commit_checkpoints (db : AuditDB) (row) : (db.commit row).checkpoints = db.checkpoints := by
  unfold commit
  split <;> rfl

@[simp] theorem commit_checkpointsOf (db : AuditDB) (row : AuditRow) (org) :
    (db.commit row).checkpointsOf org = db.checkpointsOf org := by
  unfold checkpointsOf
  rw [commit_checkpoints]

section

structure SealInv (A : AuditLib) (s : AuditDB) (th : Threads SealReq SealPhase) : Prop where
  verified : ∀ c ∈ s.checkpoints, verifyProof A.toMerkleLib (c.cp.proof A) = .ok ()
  pending : ∀ {i q afterID cp batch}, th i = some (q, .inserting afterID cp batch) →
    Seals A q.org cp.prevRoot batch cp ∧ BatchAfter afterID batch

variable {s : AuditDB} {th : Threads SealReq SealPhase} {i : Nat} {q : SealReq} {φ : SealPhase} {out : SqlOutcome}
  {cp : AuditMerkleCheckpoint} {b : LeafBatch} {p : MerkleProof}

theorem SealInv.init (hs : s.checkpoints = []) : SealInv A s fun _ => none where
  verified := by
    rw [hs]
    exact nofun
  pending := nofun

theorem SealInv.update {s'}
    (h : SealInv A s th) (hv : ∀ c ∈ s'.checkpoints, verifyProof A.toMerkleLib (c.cp.proof A) = .ok ())
    (hφ : ∀ afterID cp batch, φ = .inserting afterID cp batch →
      Seals A q.org cp.prevRoot batch cp ∧ BatchAfter afterID batch) :
    SealInv A s' (Function.update th i (some (q, φ))) where
  verified := hv
  pending := by
    intro j q' afterID cp batch hj
    rcases Once.update_cases hj with ⟨-, hx⟩ | ⟨-, hj⟩
    · cases hx
      exact hφ afterID cp batch rfl
    · exact h.pending hj

theorem SealInv.erase (h : SealInv A s th) : SealInv A s (Function.update th i none) where
  verified := h.verified
  pending := fun hj => h.pending (Once.update_none hj).2

theorem pending_of_rows {a}
    (h : afterRows A o q afterID prevRoot (sealSem A out (.unsealedAuditRows q.org afterID o.batchSize) s).1 =
      .inserting a cp b) :
    out = .ok ∧ a = afterID ∧ b = unsealedAuditRows A s q.org afterID o.batchSize ∧ Seals A q.org prevRoot b cp ∧
      BatchAfter a b ∧ q.takes o b := by
  obtain ⟨hr, rfl, ht, hcp⟩ := afterRows_cases A o h
  simp only [sealSem] at hr
  split at hr
  · rename_i hok
    cases hr
    exact ⟨hok, rfl, rfl, sealBatch_seals hcp, unsealedAuditRows_after (SealReq.takes_nonempty o ht), ht⟩
  · cases hr

theorem verified_insert
    (hv : ∀ c ∈ s.checkpoints, verifyProof A.toMerkleLib (c.cp.proof A) = .ok ())
    (hcp : verifyProof A.toMerkleLib (cp.proof A) = .ok ()) :
    ∀ c ∈ (sealSem A out (.insertMerkleCheckpoint cp afterID b) s).2.checkpoints,
      verifyProof A.toMerkleLib (c.cp.proof A) = .ok () := by
  intro c hc
  simp only [sealSem] at hc
  split at hc
  · exact hv c hc
  · rcases mem_append.mp hc with hc | hc
    · exact hv c hc
    · rw [mem_singleton.mp hc]
      exact hcp

theorem SealInv.step {op f} (out) (h : SealInv A s th) (hi : th i = some (q, φ))
    (hs : SealStep A o q φ op f) :
    SealInv A (sealSem A out op s).2 (Function.update th i (some (q, f (sealSem A out op s).1))) := by
  cases hs with
  | latest =>
    refine h.update h.verified fun a cp b hx => ?_
    unfold afterLatest at hx
    split at hx <;> cases hx
  | rows a p =>
    refine h.update h.verified fun a' cp b hx => ?_
    obtain ⟨-, -, -, hseals, hafter, -⟩ := pending_of_rows hx
    exact ⟨hseals.prevRoot ▸ hseals, hafter⟩
  | insert a cp b =>
    refine h.update (verified_insert h.verified (h.pending hi).1.verified) fun a' cp' b' hx => ?_
    unfold afterInsert at hx
    split at hx <;> cases hx

theorem SealInv.start (q) (h : SealInv A s th) :
    SealInv A s (Function.update th i (some (q, .start))) := h.update h.verified nofun

theorem SealInv.commit (row) (h : SealInv A s th) : SealInv A (s.commit row) th where
  verified := by
    rw [commit_checkpoints]
    exact h.verified
  pending := h.pending

theorem sealInv_kept (evs) :
    Kept (sealSystem A o) (sealProtocol A o) (fun _ => .start) (fun _ => SealEnded) (fun _ _ _ _ => True) evs
      fun s th _ => SealInv A s th where
  start := fun q h _ => h.start q
  step := fun out h hi hs _ => h.step out hi hs
  finish := fun h _ _ => h.erase
  other := fun row _ h => h.commit row

/-! ## A log to compute with -/

def demoJSON : Json → String
  | .str s => "\"" ++ s ++ "\""
  | .num m _ => toString m
  | .obj members => "\x7b" ++ ",".intercalate (members.map fun kv => "\"" ++ kv.1 ++ "\":" ++ demoValue kv.2) ++ "\x7d"
  | _ => "null"
where
  demoValue : Json → String
    | .str s => "\"" ++ s ++ "\""
    | .num m _ => toString m
    | _ => "null"

def demoAudit : AuditLib where
  toMerkleLib := demoMerkle
  marshal := fun j => utf8 (demoJSON j)
  timeText := fun t => toString t
  uuidText := fun u => toString u.toNat

def demoSealer : SealOptions := newSealer 2 "k1"

def demoRow (id : Nat) : AuditRow := { id, eventID := "e", orgID := 7, action := "user.login", createdAt := id }

def emptyLog : AuditDB := ⟨[], List.Pairwise.nil, List.forall_mem_nil _, []⟩

def twoBatches : List SealMove :=
  [1, 2, 3, 4].map (fun id => .other (demoRow id)) ++ .start 0 (.sealOrg 7 5) :: List.replicate 7 (.advance 0 .ok)

def twoBatchesPool : SealPool := run (sealSystem demoAudit demoSealer).step (Pool.init emptyLog) twoBatches

def twoBatchesProofs : List MerkleProof := (twoBatchesPool.store.checkpointsOf 7).map (·.cp.proof demoAudit)

/-! ## Altered lists -/

structure Bound (A : AuditLib) (p c : MerkleProof) : Prop where
  roots : p.prevRoot ++ p.merkleRoot = c.prevRoot ++ c.merkleRoot
  chainHash : p.chainHash = c.chainHash
  signature : ∃ sig, A.decodeString p.signature = some sig ∧ A.verifyDigest (A.sum256 c.chainInput) sig = true

def Unforged (A : AuditLib) (stored altered : List MerkleProof) : Prop :=
  ∀ p ∈ altered, ∀ sig, A.decodeString p.signature = some sig → A.verifyDigest (A.sum256 p.chainInput) sig = true →
    ∃ c ∈ stored, A.sum256 p.chainInput = A.sum256 c.chainInput

theorem Bound.chainInput {c} (h : Bound A p c) : p.chainInput = c.chainInput := congrArg utf8 h.roots

theorem verifyProof_iff_bound {stored altered} (hstored : ∀ c ∈ stored, verifyProof A.toMerkleLib c = .ok ())
    (hforge : Unforged A stored altered)
    (hsum : Set.InjOn A.sum256 {x | x ∈ altered.map (·.chainInput) ∨ x ∈ stored.map (·.chainInput)})
    (hp : p ∈ altered) : verifyProof A.toMerkleLib p = .ok () ↔ ∃ c ∈ stored, Bound A p c := by
  rw [verifyProof_ok]
  constructor
  · intro hv
    obtain ⟨hhash, sig, hdec, hsig⟩ := hv
    obtain ⟨c, hc, hdigest⟩ := hforge p hp sig hdec hsig
    have hinput : p.chainInput = c.chainInput :=
      hsum (.inl (mem_map_of_mem hp)) (.inr (mem_map_of_mem hc)) hdigest
    have hcv := (verifyProof_ok A.toMerkleLib).mp (hstored c hc)
    refine ⟨c, hc, utf8_inj hinput, ?_, sig, hdec, ?_⟩
    · rw [← hhash, ← hcv.1, hinput]
    · rw [← hinput]
      exact hsig
  · intro hb
    obtain ⟨c, hc, hb⟩ := hb
    have hcv := (verifyProof_ok A.toMerkleLib).mp (hstored c hc)
    rw [hb.chainInput]
    exact ⟨hcv.1.trans hb.chainHash.symm, hb.signature⟩

/-- Whatever list is presented in place of the checkpoints the sealer has stored, it is
rejected exactly when the roots, the chain hash or the signature of some proof are not those
of a stored checkpoint, of this organisation or another, or a link is missing. -/
theorem altered_checkpoints_rejected_iff (db : AuditDB) (hdb : db.checkpoints = []) {ms : List SealMove}
    {t : SealPool} (h : Trace (sealSystem A o).step (Meets fun _ _ _ _ => True) (Pool.init db) ms t)
    (altered : List MerkleProof) (hforge : Unforged A (t.store.checkpoints.map (·.cp.proof A)) altered)
    (hsum : Set.InjOn A.sum256 {x | x ∈ altered.map (·.chainInput) ∨
      x ∈ (t.store.checkpoints.map (·.cp.proof A)).map (·.chainInput)}) :
    ¬ ((∀ p ∈ altered, verifyProof A.toMerkleLib p = .ok ()) ∧ verifyChain A.toMerkleLib altered = .ok ()) ↔
      ¬ ((∀ p ∈ altered, ∃ c ∈ t.store.checkpoints.map (·.cp.proof A), Bound A p c) ∧ RootsLinked altered) := by
  obtain ⟨th, -, hinv⟩ := System.inv (sealMain_follows A o) (sealInv_kept _) h
    (SealInv.init hdb)
  have hstored : ∀ c ∈ t.store.checkpoints.map (·.cp.proof A), verifyProof A.toMerkleLib c = .ok () := by
    intro c hc
    obtain ⟨b, hb, rfl⟩ := mem_map.mp hc
    exact hinv.verified b hb
  have hbound : (∀ p ∈ altered, verifyProof A.toMerkleLib p = .ok ()) ↔
      ∀ p ∈ altered, ∃ c ∈ t.store.checkpoints.map (·.cp.proof A), Bound A p c :=
    forall₂_congr fun p hp => verifyProof_iff_bound hstored hforge hsum hp
  rw [verifyChain_ok, hbound]
  tauto

end

/-- The root of the first checkpoint is edited. -/
theorem altered_root_rejected :
    ¬ ((∀ p ∈ twoBatchesProofs.map (fun p => { p with merkleRoot := "00" }), verifyProof demoMerkle p = .ok ()) ∧
      verifyChain demoMerkle (twoBatchesProofs.map fun p => { p with merkleRoot := "00" }) = .ok ()) := by
  have hforge : ∀ p ∈ twoBatchesProofs.map (fun p => { p with merkleRoot := "00" }),
      ((demoMerkle.decodeString p.signature).all fun sig => !demoMerkle.verifyDigest (demoMerkle.sum256 p.chainInput) sig) =
        true := by decide +kernel
  have hnodup : Nodup (((twoBatchesProofs.map fun p : MerkleProof => { p with merkleRoot := "00" }).map
      MerkleProof.chainInput ++ (twoBatchesPool.store.checkpoints.map fun c : SealedBatch => c.cp.proof demoAudit).map
        MerkleProof.chainInput).map demoMerkle.sum256) := by
    decide +kernel
  have hroots : ∃ p ∈ twoBatchesProofs.map (fun p => { p with merkleRoot := "00" }),
      ∀ c ∈ twoBatchesPool.store.checkpoints.map (·.cp.proof demoAudit),
        p.prevRoot ++ p.merkleRoot ≠ c.prevRoot ++ c.merkleRoot := by decide +kernel
  refine (altered_checkpoints_rejected_iff (A := demoAudit) (o := demoSealer) emptyLog rfl
    (Trace.run_always Meets.always _ twoBatches) _ ?_ ?_).mpr ?_
  · intro p hp sig hdec hsig
    have hno := hforge p hp
    rw [show demoMerkle.decodeString p.signature = some sig from hdec, all_some, Bool.not_eq_true'] at hno
    exact absurd (hsig.symm.trans hno) (by decide)
  · exact fun x hx y hy => inj_on_of_nodup_map hnodup (mem_append.mpr hx) (mem_append.mpr hy)
  · intro hb
    obtain ⟨p, hp, hne⟩ := hroots
    obtain ⟨c, hc, hbound⟩ := hb.1 p hp
    exact hne c hc hbound.roots

/-- Organisation, ids and count may be edited, and either end may be cut off. -/
theorem altered_checkpoints_accepted :
    twoBatchesProofs.length = 2 ∧
      verifyChain demoMerkle (twoBatchesProofs.map fun p =>
        { p with orgID := "8", firstLogID := 100, lastLogID := 200, logCount := 9 }) = .ok () ∧
      verifyChain demoMerkle twoBatchesProofs.tail = .ok () ∧
      verifyChain demoMerkle twoBatchesProofs.dropLast = .ok () := by
  have hall : ∀ p ∈ twoBatchesProofs, verifyProof demoMerkle p = .ok () := by decide +kernel
  have hlinked : RootsLinked twoBatchesProofs := by
    unfold RootsLinked
    decide +kernel
  refine ⟨by decide +kernel, (verifyChain_ok _).mpr ⟨?_, ?_⟩, (verifyChain_ok _).mpr ⟨?_, ?_⟩,
    (verifyChain_ok _).mpr ⟨?_, ?_⟩⟩
  · intro p hp
    obtain ⟨q, hq, rfl⟩ := mem_map.mp hp
    exact hall q hq
  · exact (isChain_map _).mpr hlinked
  · exact fun p hp => hall p (mem_of_mem_tail hp)
  · exact IsChain.tail hlinked
  · exact fun p hp => hall p (mem_of_mem_dropLast hp)
  · exact IsChain.dropLast hlinked

/-! ## One chain -/

section

def AuditMerkleCheckpoint.Covers (cp : AuditMerkleCheckpoint) (id : Nat) : Prop :=
  cp.firstLogID ≤ id ∧ id ≤ cp.lastLogID

instance (cp : AuditMerkleCheckpoint) (id : Nat) : Decidable (cp.Covers id) :=
  inferInstanceAs (Decidable (_ ∧ _))

def StillLatest (s : AuditDB) (_ : SqlOutcome) (q : SealReq) : SealOp → Prop
  | .insertMerkleCheckpoint cp afterID _ => sealMark (s.latestCheckpoint q.org) = (afterID, cp.prevRoot)
  | _ => True

instance (s : AuditDB) (out : SqlOutcome) (q : SealReq) (op : SealOp) : Decidable (StillLatest s out q op) :=
  match op with
  | .latestCheckpoint _ | .unsealedAuditRows .. => .isTrue trivial
  | .insertMerkleCheckpoint cp afterID _ =>
    inferInstanceAs (Decidable (sealMark (s.latestCheckpoint q.org) = (afterID, cp.prevRoot)))

structure OneChain (A : AuditLib) (cs : List SealedBatch) : Prop where
  linked : RootsLinked (cs.map (·.cp.proof A))
  ordered : cs.Pairwise fun c d => c.cp.lastLogID < d.cp.firstLogID
  ranges : ∀ c ∈ cs, c.cp.firstLogID ≤ c.cp.lastLogID

theorem OneChain.nil : OneChain A [] :=
  ⟨IsChain.nil, Pairwise.nil, nofun⟩

theorem OneChain.le_last {cs} (h : OneChain A cs) {last} (hl : cs.getLast? = some last) :
    ∀ c ∈ cs, c.cp.lastLogID ≤ last.cp.lastLogID := by
  obtain ⟨init, rfl⟩ : ∃ init, cs = init ++ [last] := ⟨_, (dropLast_append_getLast? last hl).symm⟩
  intro c hc
  rcases mem_append.mp hc with hi | hi
  · have hlt := (pairwise_append.mp h.ordered).2.2 c hi last (mem_singleton_self _)
    have hr := h.ranges last (mem_append_right _ (mem_singleton_self _))
    omega
  · rw [mem_singleton.mp hi]

theorem OneChain.concat {cs} (h : OneChain A cs) {c}
    (hmark : sealMark (cs.getLast?.map (·.cp)) = (afterID, c.cp.prevRoot)) (hafter : afterID < c.cp.firstLogID)
    (hr : c.cp.firstLogID ≤ c.cp.lastLogID) : OneChain A (cs ++ [c]) := by
  refine ⟨?_, ?_, ?_⟩
  · unfold RootsLinked
    rw [map_append, isChain_append]
    refine ⟨h.linked, .singleton _, ?_⟩
    intro p hp q hq
    rw [getLast?_map] at hp
    cases hl : cs.getLast? with
    | none =>
      rw [hl] at hp
      cases hp
    | some last =>
      rw [hl] at hp hmark
      cases hp
      cases hq
      exact (congrArg Prod.snd hmark).symm
  · rw [pairwise_append]
    refine ⟨h.ordered, pairwise_singleton _ _, ?_⟩
    intro d hd e he
    rw [mem_singleton.mp he]
    cases hl : cs.getLast? with
    | none =>
      rw [getLast?_eq_none_iff.mp hl] at hd
      cases hd
    | some last =>
      rw [hl] at hmark
      have hle := h.le_last hl d hd
      have ha : last.cp.lastLogID = afterID := congrArg Prod.fst hmark
      omega
  · intro d hd
    rcases mem_append.mp hd with hd | hd
    · exact h.ranges d hd
    · rw [mem_singleton.mp hd]
      exact hr

theorem checkpointsOf_insert (db : AuditDB) (c) (org) :
    (db.insertCheckpoint c).checkpointsOf org =
      if c.cp.orgID = org then db.checkpointsOf org ++ [c] else db.checkpointsOf org := by
  unfold checkpointsOf insertCheckpoint
  split
  · rename_i h
    simp [h]
  · rename_i h
    simp [h]

theorem oneChain_kept (evs : AuditRow → Prop) :
    Kept (sealSystem A o) (sealProtocol A o) (fun _ => .start) (fun _ => SealEnded) StillLatest evs
      fun s th _ => SealInv A s th ∧ ∀ org, OneChain A (s.checkpointsOf org) where
  start := fun q h _ => ⟨h.1.start q, h.2⟩
  step := by
    intro s th log i q φ op f out h hi hs hc
    refine ⟨h.1.step out hi hs, ?_⟩
    cases hs with
    | latest | rows a p => exact h.2
    | insert a cp b =>
      obtain ⟨hseals, hafter⟩ := h.1.pending hi
      obtain ⟨hfirst, hrange, -⟩ := hseals.range hafter
      intro org
      show OneChain A ((sealSem A out (.insertMerkleCheckpoint cp a b) s).2.checkpointsOf org)
      simp only [sealSem]
      split
      · exact h.2 org
      rw [checkpointsOf_insert]
      split
      · rename_i horg
        have hq : q.org = org := hseals.org.symm.trans horg
        subst hq
        exact (h.2 q.org).concat hc hfirst hrange
      · exact h.2 org
  finish := fun h _ _ => ⟨h.1.erase, h.2⟩
  other := by
    intro s th log row _ h
    refine ⟨h.1.commit row, ?_⟩
    intro org
    show OneChain A ((s.commit row).checkpointsOf org)
    rw [commit_checkpointsOf]
    exact h.2 org

/-- If every insert finds the checkpoint its call goes on from still to be the latest, the
checkpoints of each organisation are one chain, and no id is in the range of two of them. -/
theorem checkpoints_one_chain (db : AuditDB) (hdb : db.checkpoints = []) {ms : List SealMove} {t : SealPool}
    (h : Trace (sealSystem A o).step (Meets StillLatest) (Pool.init db) ms t) (org : UUID) :
    verifyChain A.toMerkleLib ((t.store.checkpointsOf org).map (·.cp.proof A)) = .ok () ∧
      (t.store.checkpointsOf org).Pairwise fun c d => ∀ id, ¬ (c.cp.Covers id ∧ d.cp.Covers id) := by
  have hinit : ∀ org, OneChain A (db.checkpointsOf org) := by
    intro org
    unfold checkpointsOf
    rw [hdb]
    exact OneChain.nil
  obtain ⟨th, -, hinv, hchain⟩ := System.inv (sealMain_follows A o) (oneChain_kept _) h ⟨SealInv.init hdb, hinit⟩
  refine ⟨(verifyChain_ok _).mpr ⟨?_, (hchain org).linked⟩, ?_⟩
  · intro p hp
    obtain ⟨c, hc, rfl⟩ := mem_map.mp hp
    exact hinv.verified c (mem_filter.mp hc).1
  · refine (hchain org).ordered.imp ?_
    intro c d hlt id hboth
    have h1 := hboth.1.2
    have h2 := hboth.2.1
    omega

end

theorem checkpoints_one_chain_two_batches :
    verifyChain demoMerkle twoBatchesProofs = .ok () ∧
      (twoBatchesPool.store.checkpointsOf 7).Pairwise fun c d => ∀ id, ¬ (c.cp.Covers id ∧ d.cp.Covers id) := by
  have hrun : Trace (sealSystem demoAudit demoSealer).step (Meets StillLatest) (Pool.init emptyLog) twoBatches
      twoBatchesPool := Trace.of_checkRun (by decide +kernel)
  exact checkpoints_one_chain emptyLog rfl hrun 7

def overlappingCalls : List SealMove :=
  [.other (demoRow 1), .other (demoRow 2), .start 0 (.sealOrg 7 5), .start 1 (.sealPartial 7), .advance 0 .ok,
    .advance 1 .ok, .advance 0 .ok, .advance 1 .ok, .advance 0 .ok, .advance 1 .ok]

def overlappingPool : SealPool := run (sealSystem demoAudit demoSealer).step (Pool.init emptyLog) overlappingCalls

theorem overlapping_calls_seal_twice :
    verifyChain demoMerkle ((overlappingPool.store.checkpointsOf 7).map (·.cp.proof demoAudit)) =
        .error "merkle: chain broken at checkpoint[1]: prev_root mismatch" ∧
      ¬ (overlappingPool.store.checkpointsOf 7).Pairwise fun c d => ∀ id, ¬ (c.cp.Covers id ∧ d.cp.Covers id) := by
  refine ⟨by decide +kernel, ?_⟩
  have hone : ¬ (overlappingPool.store.checkpointsOf 7).Pairwise fun c d => ¬ (c.cp.Covers 1 ∧ d.cp.Covers 1) := by
    decide +kernel
  exact fun hp => hone (hp.imp fun h => h 1)

end Clavex
