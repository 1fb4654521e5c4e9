import Clavex.StatusSlots

/-!
# States of issued credentials

`setIssuedCredentialState` revokes, suspends or restores a credential in the registry and in the
published status list, in one transaction. `PollWalletStatusParents` asks for the status of the
attestations a credential was issued on, and carries it over. Times are in nanoseconds.
-/

namespace Clavex

inductive CredentialError where
  | noRows
  | driver
  | library
  /-- `return nil` without a commit -/
  | skipped
  | message (text : String)

/-! ## Lists -/

/-- zlib and base64. `inflate` gives what can be read of a stream, and whether its end is an error. -/
structure StatusCodec where
  deflate : Bytes → Bytes
  inflate : Bytes → Bytes × Bool
  encodeBase64 : Bytes → String
  decodeBase64 : String → Option Bytes
  inflate_deflate : ∀ bits, inflate (deflate bits) = (bits, false)
  decode_encode : ∀ raw, decodeBase64 (encodeBase64 raw) = some raw

variable (C : StatusCodec)

def StatusCodec.readAll (limit : Nat) (compressed : Bytes) : Option Bytes :=
  if limit ≤ (C.inflate compressed).1.length then some ((C.inflate compressed).1.take limit)
  else if (C.inflate compressed).2 then none
  else some (C.inflate compressed).1

structure StatusBitList where
  bits : Bytes
  width : Nat

def decodeStatusListRawWithBits (encoded : String) (width : Nat) : Except CredentialError StatusBitList :=
  if width ≠ 1 ∧ width ≠ 2 ∧ width ≠ 4 ∧ width ≠ 8 then .error (.message "invalid status width")
  else if encoded.utf8ByteSize > 128 * 1024 then .error (.message "encoded status exceeds limit")
  else
    match C.decodeBase64 encoded with
    | none => .error .library
    | some compressed =>
      match C.readAll (slotCount * width / 8 + 1) compressed with
      | none => .error .library
      | some bits =>
        if bits.length ≠ slotCount * width / 8 then .error (.message "invalid local status size") else .ok ⟨bits, width⟩

def encodeStatusBits (bits : Bytes) : String := C.encodeBase64 (C.deflate bits)

namespace StatusBitList

def set (sl : StatusBitList) (index : Nat) (val : UInt8) : Except CredentialError StatusBitList :=
  if index ≥ slotCount ∨ val.toNat > 1 <<< sl.width - 1 then .error (.message "invalid status index/value")
  else .ok { sl with bits := setField sl.bits sl.width index val }

def widen (sl : StatusBitList) : Except CredentialError StatusBitList :=
  (List.range slotCount).foldlM (fun out i => out.set i ((sl.bits.getD (i / 8) 0 >>> UInt8.ofNat (i % 8)) &&& 1))
    ⟨List.replicate (slotCount * 2 / 8) 0, 2⟩

end StatusBitList

/-! ## The database -/

structure IssuedCredential where
  (id orgID : UUID)
  statusListID : Option UUID
  statusIndex : Option Nat
  (isRevoked isSuspended : Bool := false)
  revokedAt : Option Int := none
  revocationReason : Option String := none
  /-- JSON -/
  statusParents : String := "[]"
  parentsCheckedAt : Option Int := none
  parentStatusHold : Bool := false
  expiresAt : Option Int := none

structure PublishedStatusList where
  id : UUID
  encoded : String
  bits : Nat

inductive StatusActor where
  | admin
  | poll

structure StateChange where
  credential : UUID
  state : UInt8
  actor : StatusActor

/-- `journal` records the changes of state, the latest first. -/
structure StatusStore where
  creds : Rows IssuedCredential.id
  lists : Rows PublishedStatusList.id
  journal : List StateChange

structure StatusWork where
  creds : List IssuedCredential
  lists : List PublishedStatusList
  journal : List StateChange

inductive StatusKey where
  | credential (id : UUID)
  | list (id : UUID)
deriving DecidableEq

inductive ParentState where
  | valid
  | revoked
  | suspended
  | failed
deriving DecidableEq

inductive StatusOp where
  | lockActiveOrg (org : UUID)
  | selectParents (id org : UUID)
  | checkParents (raw : String)
  | selectCredential (id : UUID)
  /-- `actor` is not in the statement; it is kept for the record -/
  | updateCredential (id : UUID) (state : UInt8) (reason : String) (actor : StatusActor)
  | selectList (id : UUID)
  | updateList (id : UUID) (encoded : String) (bits : Nat)
  | setHold (id : UUID) (hold : Bool)
  | setChecked (id : UUID)

@[reducible] def StatusOp.Ans : StatusOp → Type
  | .lockActiveOrg _ => Unit
  | .selectParents _ _ => String × Bool × Bool
  | .checkParents _ => List ParentState
  | .selectCredential _ => IssuedCredential
  | .updateCredential _ _ _ _ => Unit
  | .selectList _ => String × Nat
  | .updateList _ _ _ | .setHold _ _ | .setChecked _ => Unit

@[reducible] def StatusOp.Resp (op : StatusOp) : Type := Except CredentialError op.Ans

structure StatusEnv where
  fails : Bool := false
  now : Int := 0
  active : Bool := true
  parents : List ParentState := []
  fate : CommitFate := .done
deriving Inhabited

def parentsDue (now : Int) (c : IssuedCredential) : Bool :=
  match c.parentsCheckedAt with
  | none => true
  | some t => decide (t < now - 30 * 1000000000)

def IssuedCredential.withState (c : IssuedCredential) (state : UInt8) (reason : String) (now : Int) : IssuedCredential :=
  { c with
    isRevoked := decide (state = 1)
    isSuspended := decide (state = 2)
    parentStatusHold := false
    revokedAt := if state = 1 then some now else none
    revocationReason := if state = 1 ∨ state = 2 then some reason else none }

namespace StatusStore

def visible (db : StatusStore) (w : StatusWork) : StatusStore :=
  ⟨db.creds.overlay w.creds, db.lists.overlay w.lists, w.journal ++ db.journal⟩

def credential (db : StatusStore) (id : UUID) : Option IssuedCredential := db.creds.find fun c => decide (c.id = id)

def list (db : StatusStore) (id : UUID) : Option PublishedStatusList := db.lists.find fun r => decide (r.id = id)

def updateCred (db : StatusStore) (w : StatusWork) (id : UUID) (f : IssuedCredential → IssuedCredential) : StatusWork :=
  match (db.visible w).credential id with
  | none => w
  | some c => { w with creds := f c :: w.creds }

def perform (env : StatusEnv) : (op : StatusOp) → StatusStore → StatusWork → op.Resp × StatusWork
  | .lockActiveOrg _, _, w => (if env.active then .ok () else .error .noRows, w)
  | .selectParents id org, db, w =>
    match (db.visible w).credential id with
    | none => (.error .noRows, w)
    | some c =>
      if c.orgID = org ∧ c.isRevoked = false ∧ parentsDue env.now c then
        (.ok (c.statusParents, c.isSuspended, c.parentStatusHold), w)
      else (.error .noRows, w)
  | .checkParents _, _, w => (.ok env.parents, w)
  | .selectCredential id, db, w =>
    match (db.visible w).credential id with
    | none => (.error .noRows, w)
    | some c => (.ok c, w)
  | .updateCredential id state reason actor, db, w =>
    (.ok (), { db.updateCred w id (fun c => c.withState state reason env.now) with
      journal := ⟨id, state, actor⟩ :: w.journal })
  | .selectList id, db, w =>
    match (db.visible w).list id with
    | none => (.error .noRows, w)
    | some r => (.ok (r.encoded, r.bits), w)
  | .updateList id encoded bits, db, w =>
    match (db.visible w).list id with
    | none => (.ok (), w)
    | some r => (.ok (), { w with lists := { r with encoded, bits } :: w.lists })
  | .setHold id hold, db, w => (.ok (), db.updateCred w id fun c => { c with parentStatusHold := hold })
  | .setChecked id, db, w => (.ok (), db.updateCred w id fun c => { c with parentsCheckedAt := some env.now })

end StatusStore

def statusLocks (_ : StatusEnv) : StatusOp → List StatusKey
  | .lockActiveOrg _ => []
  | .selectParents id _ => [.credential id]
  | .checkParents _ => []
  | .selectCredential id | .updateCredential id _ _ _ => [.credential id]
  | .selectList id | .updateList id _ _ => [.list id]
  | .setHold id _ | .setChecked id => [.credential id]

def StatusOp.refusal : (op : StatusOp) → op.Resp
  | .checkParents _ => .ok [.failed]
  | .lockActiveOrg _ | .selectParents _ _ | .selectCredential _ | .updateCredential _ _ _ _ | .selectList _
  | .updateList _ _ _ | .setHold _ _ | .setChecked _ => .error .driver

def StatusOp.busy : (op : StatusOp) → op.Resp
  | .selectParents _ _ => .error .noRows
  | op => op.refusal

def statusLang : TxnLang StatusKey StatusStore StatusWork StatusOp StatusOp.Resp StatusEnv :=
  .ofStatements ⟨[], [], []⟩ statusLocks StatusOp.busy StatusOp.refusal StatusEnv.fails StatusStore.perform
    fun w db => db.visible w

/-! ## The code -/

abbrev StatusProg := Prog StatusOp StatusOp.Resp CredentialError

abbrev statusAsk (op : StatusOp) : StatusProg op.Resp := Prog.call op

def statusStmt (op : StatusOp) : StatusProg op.Ans := statusAsk op >>= Prog.ofExcept

def updateStatusSlot (list : UUID) (index : Nat) (state : UInt8) : StatusProg Unit := do
  let (encoded, width) ← statusStmt (.selectList list)
  let sl ← Prog.ofExcept (decodeStatusListRawWithBits C encoded width)
  let widened := state = 2 ∧ width = 1
  let sl ← Prog.ofExcept (if widened then sl.widen else .ok sl)
  let sl ← Prog.ofExcept (sl.set index state)
  statusStmt (.updateList list (encodeStatusBits C sl.bits) (if widened then 2 else width))

def setIssuedCredentialState (credID : UUID) (state : UInt8) (reason : String) (actor : StatusActor) :
    StatusProg Unit := do
  Prog.require (state ≤ 2) (.message "invalid credential state")
  let cred ← statusStmt (.selectCredential credID)
  Prog.require (¬ (cred.isRevoked ∨ state = 0 ∧ cred.isSuspended = false ∨ state = 2 ∧ cred.isSuspended)) .noRows
  Prog.require (¬ (state = 2 ∧ (cred.statusListID = none ∨ cred.statusIndex = none))) .noRows
  statusStmt (.updateCredential credID state reason actor)
  match cred.statusListID, cred.statusIndex with
  | some list, some index => updateStatusSlot C list index state
  | _, _ => return ()

def checkStatusParents : List ParentState → ParentState → ParentState
  | [], result => result
  | .revoked :: _, _ => .revoked
  | .suspended :: parents, result => checkStatusParents parents (if result = .valid then .suspended else result)
  | .failed :: parents, _ => checkStatusParents parents .failed
  | .valid :: parents, result => checkStatusParents parents result

def propagateParents (id : UUID) (suspended hold : Bool) : ParentState → StatusProg Unit
  | .revoked => setIssuedCredentialState C id 1 "parent_attestation_revoked" .poll
  | .suspended =>
    if suspended then return ()
    else do
      setIssuedCredentialState C id 2 "parent_attestation_suspended" .poll
      statusStmt (.setHold id true)
  | .valid =>
    if suspended ∧ hold then do
      setIssuedCredentialState C id 0 "" .poll
      statusStmt (.setHold id false)
    else return ()
  | .failed => return ()

def pollWalletParent (id org : UUID) : StatusProg Unit := do
  match ← statusAsk (.lockActiveOrg org) with
  | .error .noRows => .fail .skipped
  | .error e => .fail e
  | .ok () =>
    match ← statusAsk (.selectParents id org) with
    | .error .noRows => .fail .skipped
    | .error e => .fail e
    | .ok (raw, suspended, hold) =>
      let parents ← statusStmt (.checkParents raw)
      propagateParents C id suspended hold (checkStatusParents parents .valid)
      statusStmt (.setChecked id)

inductive StatusTxn where
  | setState (id : UUID) (state : UInt8) (reason : String)
  | poll (id org : UUID)

inductive CredentialReq where
  | revokeIssuedCredential (id : UUID) (reason : String)
  | suspendIssuedCredential (id : UUID) (reason : String)
  | restoreIssuedCredential (id : UUID)
  | pollWalletStatusParents

inductive StatusQuery where
  | candidates

@[reducible] def StatusQuery.Resp : StatusQuery → Type
  | .candidates => Option (List (UUID × UUID))

def checkedBefore (c c' : IssuedCredential) : Bool :=
  match c.parentsCheckedAt, c'.parentsCheckedAt with
  | none, some _ => true
  | some _, none => false
  | some t, some t' => decide (t < t') || (decide (t = t') && decide (c.id ≤ c'.id))
  | none, none => decide (c.id ≤ c'.id)

def statusCandidates (now : Int) (db : StatusStore) : List (UUID × UUID) :=
  let rows := db.creds.list.filter fun c => !c.isRevoked && decide (c.statusParents ≠ "[]") &&
    (match c.expiresAt with
      | none => true
      | some t => decide (now < t)) && parentsDue now c
  ((rows.mergeSort checkedBefore).take 64).map fun c => (c.id, c.orgID)

abbrev StatusCall := Prog (DbOp StatusQuery StatusTxn) (DbOp.Resp StatusQuery.Resp CredentialError Unit) CredentialError

abbrev statusTxn (x : StatusTxn) : StatusCall (Except CredentialError Unit) := Prog.call (DbOp.txn x)

def pollEach : List (UUID × UUID) → StatusCall Unit
  | [] => return ()
  | (id, org) :: items => do
    match ← statusTxn (.poll id org) with
    | .ok () | .error .skipped => pollEach items
    | .error e => .fail e

def pollWalletStatusParents : StatusCall Unit := do
  let some items ← (Prog.call (DbOp.stmt StatusQuery.candidates) : StatusCall _) | .fail .driver
  pollEach items

def changeState (id : UUID) (state : UInt8) (reason : String) : StatusCall Unit :=
  statusTxn (.setState id state reason) >>= Prog.ofExcept

def statusSystem : TxnSystem CredentialReq StatusQuery StatusQuery.Resp StatusTxn StatusOp StatusOp.Resp StatusKey
    StatusStore StatusWork Unit StatusEnv Empty CredentialError Unit CredentialError Unit where
  lang := statusLang
  main
    | .revokeIssuedCredential id reason => changeState id 1 reason
    | .suspendIssuedCredential id reason => changeState id 2 reason
    | .restoreIssuedCredential id => changeState id 0 ""
    | .pollWalletStatusParents => pollWalletStatusParents
  stmt env q db :=
    match q with
    | .candidates => (if env.fails then none else some (statusCandidates env.now db), db)
  other e _ := nomatch e
  stamp _ := ()
  body x _ :=
    match x with
    | .setState id state reason => setIssuedCredentialState C id state reason .admin
    | .poll id org => pollWalletParent C id org
  fate := StatusEnv.fate
  refused := .driver

end Clavex
