import Clavex.Merkle
import Clavex.Models
import Clavex.Pool

/-!
# Sealing the audit log

`SealOrg` and `sealPartial` as programs over the statements of the audit repository, and the
export an auditor rebuilds the roots from. Each statement is atomic. Audit rows appear when
their transaction commits, in any order of their ids. Column and clock texts and
`json.Marshal` are parameters.
-/

namespace Clavex

structure AuditLib extends MerkleLib where
  marshal : Json → Bytes
  timeText : Int → String
  uuidText : UUID → String

/-! ## The tables -/

/-- A row of `audit_logs`. The ids are those of a sequence, so they are positive. -/
structure AuditRow where
  id : Nat
  eventID : String
  specVersion : String := "1.0"
  (eventSource eventType subject : Option String := none)
  orgID : UUID
  userID : Option UUID := none
  actorEmail : Option String := none
  action : String
  (resourceType resourceID : Option String := none)
  status : String := "success"
  (ipAddress userAgent countryCode sessionID requestID : Option String := none)
  metadata : Json := .obj []
  createdAt : Int

structure AuditMerkleCheckpoint where
  orgID : UUID
  (firstLogID lastLogID logCount : Nat)
  (merkleRoot prevRoot chainHash signature kid : String)

abbrev LeafBatch := List (Nat × Bytes)

/-- A stored checkpoint. `batch` is what the call that stored it had hashed; it is kept for
the record only and no statement reads it. -/
structure SealedBatch where
  cp : AuditMerkleCheckpoint
  batch : LeafBatch

structure AuditDB where
  rows : List AuditRow
  sorted : rows.Pairwise fun r r' => r.id < r'.id
  positive : ∀ r ∈ rows, 0 < r.id
  checkpoints : List SealedBatch

namespace AuditDB

variable (db : AuditDB)

def rowsAfter (org : UUID) (afterID : Nat) : List AuditRow :=
  db.rows.filter fun r => r.orgID == org && decide (afterID < r.id)

def checkpointsOf (org : UUID) : List SealedBatch := db.checkpoints.filter fun c => c.cp.orgID == org

def latestCheckpoint (org : UUID) : Option AuditMerkleCheckpoint :=
  (db.checkpointsOf org).getLast?.map (·.cp)

def commit (row : AuditRow) : AuditDB :=
  if h : 0 < row.id ∧ ∀ r ∈ db.rows, r.id ≠ row.id then
    { db with
      rows := db.rows.filter (fun r => decide (r.id < row.id)) ++ row :: db.rows.filter (fun r => decide (row.id < r.id))
      sorted := by
        rw [List.pairwise_append, List.pairwise_cons]
        refine ⟨db.sorted.filter _, ⟨?_, db.sorted.filter _⟩, ?_⟩
        · intro r hr
          exact of_decide_eq_true (List.mem_filter.mp hr).2
        · intro r hr r' hr'
          have hlt : r.id < row.id := of_decide_eq_true (List.mem_filter.mp hr).2
          rcases List.mem_cons.mp hr' with rfl | hr'
          · exact hlt
          · exact Nat.lt_trans hlt (of_decide_eq_true (List.mem_filter.mp hr').2)
      positive := by
        intro r hr
        rcases List.mem_append.mp hr with hr | hr
        · exact db.positive r (List.mem_filter.mp hr).1
        · rcases List.mem_cons.mp hr with rfl | hr
          · exact h.1
          · exact db.positive r (List.mem_filter.mp hr).1 }
  else db

def insertCheckpoint (c : SealedBatch) : AuditDB := { db with checkpoints := db.checkpoints ++ [c] }

end AuditDB

section
variable (A : AuditLib)

def leafJSON (r : AuditRow) : Bytes :=
  A.marshal (.obj [("action", .str r.action), ("created_at", .str (A.timeText r.createdAt)),
    ("event_id", .str r.eventID), ("id", .num r.id 0), ("org_id", .str (A.uuidText r.orgID)),
    ("status", .str r.status)])

def unsealedAuditRows (db : AuditDB) (org : UUID) (afterID limit : Nat) : LeafBatch :=
  ((db.rowsAfter org afterID).take limit).map fun r => (r.id, leafJSON A r)

/-! ## The statements -/

inductive SealOp where
  | latestCheckpoint (org : UUID)
  | unsealedAuditRows (org : UUID) (afterID limit : Nat)
  | insertMerkleCheckpoint (cp : AuditMerkleCheckpoint) (afterID : Nat) (batch : LeafBatch)

abbrev SealOp.Resp : SealOp → Type
  | .latestCheckpoint _ => Option (Option AuditMerkleCheckpoint)
  | .unsealedAuditRows .. => Option LeafBatch
  | .insertMerkleCheckpoint .. => Bool

inductive SqlOutcome where
  | ok
  | fails
  | lost
  deriving DecidableEq

def sealSem (out : SqlOutcome) : (op : SealOp) → AuditDB → op.Resp × AuditDB
  | .latestCheckpoint org, db => (if out = .ok then some (db.latestCheckpoint org) else none, db)
  | .unsealedAuditRows org afterID limit, db =>
    (if out = .ok then some (unsealedAuditRows A db org afterID limit) else none, db)
  | .insertMerkleCheckpoint cp _ batch, db =>
    (decide (out = .ok), if out = .fails then db else db.insertCheckpoint ⟨cp, batch⟩)

/-! ## The sealer -/

structure SealOptions where
  batchSize : Nat
  batchSize_pos : 0 < batchSize
  kid : String

def newSealer (batchSize : Int) (kid : String) : SealOptions where
  batchSize := if batchSize ≤ 0 then 100 else batchSize.toNat
  batchSize_pos := by
    split <;> omega
  kid := kid

variable (o : SealOptions)

def sealBatch (org : UUID) (prevRoot : String) (batch : LeafBatch) : Option AuditMerkleCheckpoint :=
  let firstID := (batch.head?.map (·.1)).getD 0
  let lastID := (batch.getLast?.map (·.1)).getD 0
  let root := rebuildRoot A.toMerkleLib (batch.map (·.2))
  match signProof A.toMerkleLib o.kid root prevRoot (A.uuidText org) firstID lastID batch.length with
  | none => none
  | some p =>
    some {
      orgID := org
      firstLogID := p.firstLogID
      lastLogID := p.lastLogID
      logCount := p.logCount
      merkleRoot := p.merkleRoot
      prevRoot := p.prevRoot
      chainHash := p.chainHash
      signature := p.signature
      kid := p.kid }

def AuditMerkleCheckpoint.proof (cp : AuditMerkleCheckpoint) : MerkleProof where
  orgID := A.uuidText cp.orgID
  firstLogID := cp.firstLogID
  lastLogID := cp.lastLogID
  logCount := cp.logCount
  merkleRoot := cp.merkleRoot
  prevRoot := cp.prevRoot
  chainHash := cp.chainHash
  signature := cp.signature
  kid := cp.kid

abbrev SealProg := Prog SealOp SealOp.Resp String

def sealMark : Option AuditMerkleCheckpoint → Nat × String
  | none => (0, "")
  | some last => (last.lastLogID, last.merkleRoot)

def sealLoop (org : UUID) : Nat → Nat → String → Nat → SealProg Nat
  | 0, _, _, _ => .fail "sealer: interrupted"
  | fuel + 1, afterID, prevRoot, created => do
    match ← Prog.call (SealOp.unsealedAuditRows org afterID o.batchSize) with
    | none => .fail "sealer: fetch rows"
    | some batch =>
      if batch.length < o.batchSize then .ret created
      else
        match sealBatch A o org prevRoot batch with
        | none => .fail "sealer: sign"
        | some cp => do
          match ← Prog.call (SealOp.insertMerkleCheckpoint cp afterID batch) with
          | false => .fail "sealer: insert checkpoint"
          | true => sealLoop org fuel cp.lastLogID cp.merkleRoot (created + 1)

def sealOrg (fuel : Nat) (org : UUID) : SealProg Nat := do
  match ← Prog.call (SealOp.latestCheckpoint org) with
  | none => .fail "sealer: latest checkpoint"
  | some last => sealLoop A o org fuel (sealMark last).1 (sealMark last).2 0

def sealPartial (org : UUID) : SealProg Nat := do
  match ← Prog.call (SealOp.latestCheckpoint org) with
  | none => .fail "sealer partial: latest checkpoint"
  | some last => do
    match ← Prog.call (SealOp.unsealedAuditRows org (sealMark last).1 o.batchSize) with
    | none => .fail "sealer partial: fetch rows"
    | some batch =>
      if batch = [] then .ret 0
      else
        match sealBatch A o org (sealMark last).2 batch with
        | none => .fail "sealer partial: sign"
        | some cp => do
          match ← Prog.call (SealOp.insertMerkleCheckpoint cp (sealMark last).1 batch) with
          | false => .fail "sealer partial: insert"
          | true => .ret 1

inductive SealReq where
  | sealOrg (org : UUID) (fuel : Nat)
  | sealPartial (org : UUID)

def SealReq.org : SealReq → UUID
  | .sealOrg org _ | .sealPartial org => org

def sealSystem : System SealReq SealOp SealOp.Resp String Nat AuditDB SqlOutcome AuditRow where
  main
    | .sealOrg org fuel => sealOrg A o fuel org
    | .sealPartial org => sealPartial A o org
  sem := sealSem A
  other := fun row db => db.commit row

abbrev SealPool := Pool SealReq SealOp SealOp.Resp String Nat AuditDB

abbrev SealMove := PoolMove SealReq SqlOutcome AuditRow

/-! ## The export -/

structure AuditEvent where
  id : Nat
  (eventID specVersion source type : String)
  time : Int
  subject : String
  orgID : UUID
  actorID : Option UUID
  actorEmail : Option String
  action : String
  (resourceType resourceID : Option String)
  status : String
  (ipAddress userAgent countryCode sessionID requestID : Option String)
  metadata : Option (GoMap Json)

def AuditRow.event (r : AuditRow) : AuditEvent where
  id := r.id
  eventID := r.eventID
  specVersion := r.specVersion
  source := r.eventSource.getD ""
  type := r.eventType.getD ""
  time := r.createdAt
  subject := r.subject.getD ""
  orgID := r.orgID
  actorID := r.userID
  actorEmail := r.actorEmail
  action := r.action
  resourceType := r.resourceType
  resourceID := r.resourceID
  status := r.status
  ipAddress := r.ipAddress
  userAgent := r.userAgent
  countryCode := r.countryCode
  sessionID := r.sessionID
  requestID := r.requestID
  metadata := (decMap none r.metadata).getD none

structure SignedExportRow where
  event : AuditEvent
  leafJSON : Bytes

def signedExportRow (r : AuditRow) : SignedExportRow where
  event := r.event
  leafJSON :=
    A.marshal (.obj [("action", .str r.action), ("created_at", .str (A.timeText r.createdAt)),
      ("event_id", .str r.eventID), ("id", .num r.event.id 0), ("org_id", .str (A.uuidText r.orgID)),
      ("status", .str r.status)])

def exportPageSize : Nat := 500

def exportLoop (db : AuditDB) (org : UUID) : Nat → Nat → List SignedExportRow → Option (List SignedExportRow)
  | 0, _, _ => none
  | fuel + 1, lastID, emitted =>
    let page := ((db.rowsAfter org lastID).take exportPageSize).map (signedExportRow A)
    let lastID := (page.getLast?.map (·.event.id)).getD lastID
    if page.length < exportPageSize then some (emitted ++ page)
    else exportLoop db org fuel lastID (emitted ++ page)

def exportAllAscSigned (db : AuditDB) (org : UUID) (fuel : Nat) : Option (List SignedExportRow) :=
  exportLoop A db org fuel 0 []

end

end Clavex
