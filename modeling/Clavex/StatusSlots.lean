import Clavex.BitBytes
import Clavex.Merkle
import Clavex.Models
import Clavex.Rows
import Clavex.Txn

/-!
# Slots of credential status lists

`AllocateCredentialStatus` reserves a slot of a status list for a credential that is being issued,
inside of the transaction of the issuance. An organisation's lists are allocated one after the
other, under an advisory lock; within a list a free slot is drawn at random.
-/

namespace Clavex

structure CredentialStatusList where
  (id orgID : UUID)
  (listIndex nextSlot : Int)
  allocatedSlots : Bytes

def slotCount : Nat := 65536

/-! ## The bitmap -/

def occupiedAt (occupied : Bytes) (index : Nat) : Bool := occupied.getD (index / 8) 0 &&& bitMask (index % 8) != 0

def usedSlots (occupied : Bytes) : Nat := (occupied.map onesCount8).sum

def findSlot (occupied : Bytes) : Nat → List Nat → Option Nat
  | _, [] => none
  | remaining, index :: rest =>
    if occupiedAt occupied index then findSlot occupied remaining rest
    else if remaining > 0 then findSlot occupied (remaining - 1) rest
    else some index

/-! ## Statements -/

inductive SlotOp where
  | lockOrg (org : UUID)
  | selectList (org : UUID)
  | selectMaxIndex (org : UUID)
  | insertList (org : UUID) (listIndex : Int)
  | selectSlots (list : UUID)
  /-- `rand.Int` -/
  | drawRank (n : Nat)
  /-- `index` is not in the statement; it is kept for the record of what was reserved -/
  | updateSlots (list : UUID) (slots : Bytes) (index : Nat)

@[reducible] def SlotOp.Resp : SlotOp → Type
  | .lockOrg _ => Bool
  | .selectList _ => Option (Option CredentialStatusList)
  | .selectMaxIndex _ => Option (Option Int)
  | .insertList _ _ => Option CredentialStatusList
  | .selectSlots _ => Option (Bytes × Int)
  | .drawRank _ => Option Nat
  | .updateSlots _ _ _ => Bool

def SlotOp.refusal : (op : SlotOp) → op.Resp
  | .lockOrg _ => false
  | .selectList _ | .selectMaxIndex _ | .insertList _ _ | .selectSlots _ | .drawRank _ => none
  | .updateSlots _ _ _ => false

inductive SlotError where
  /-- an error of the driver, behind what is put in front of it -/
  | driver (context : String)
  | message (text : String)

/-- `issued` records the slots that committed transactions reserved. -/
structure SlotStore where
  lists : Rows CredentialStatusList.id
  issued : List (UUID × Nat)

structure SlotWork where
  own : List CredentialStatusList
  taken : List (UUID × Nat)

inductive SlotKey where
  | org (id : UUID)
  | row (id : UUID)
deriving DecidableEq

structure SlotEnv where
  fails : Bool := false
  id : UUID := 0
  rank : Nat := 0
  fate : CommitFate := .done
deriving Inhabited

namespace SlotStore

def visible (db : SlotStore) (w : SlotWork) : Rows CredentialStatusList.id := db.lists.overlay w.own

def ofOrg (lists : Rows CredentialStatusList.id) (org : UUID) : List CredentialStatusList :=
  lists.list.filter fun r => decide (r.orgID = org)

def byID (lists : Rows CredentialStatusList.id) (id : UUID) : Option CredentialStatusList :=
  lists.find fun r => decide (r.id = id)

/-- `WHERE org_id = $1 AND next_slot < 65536 ORDER BY list_index DESC LIMIT 1` -/
def activeList (lists : Rows CredentialStatusList.id) (org : UUID) : Option CredentialStatusList :=
  ((ofOrg lists org).filter fun r => decide (r.nextSlot < (slotCount : Int))).maxOn? fun r => r.listIndex

def newList (id org : UUID) (listIndex : Int) : CredentialStatusList :=
  ⟨id, org, listIndex, 0, List.replicate (slotCount / 8) 0⟩

def checks (r : CredentialStatusList) : Bool :=
  decide (r.allocatedSlots.length = slotCount / 8 ∧ 0 ≤ r.nextSlot ∧ r.nextSlot ≤ slotCount)

def carry (env : SlotEnv) : (op : SlotOp) → SlotStore → SlotWork → op.Resp × SlotWork
  | .lockOrg _, _, w => (true, w)
  | .selectList org, db, w => (some (activeList (db.visible w) org), w)
  | .selectMaxIndex org, db, w => (some ((ofOrg (db.visible w) org).map fun r => r.listIndex).max?, w)
  | .insertList org listIndex, db, w =>
    -- `id` is the primary key, and an organisation has a `list_index` only once
    if (byID (db.visible w) env.id).isSome || (ofOrg (db.visible w) org).any fun r => decide (r.listIndex = listIndex) then
      (none, w)
    else (some (newList env.id org listIndex), { w with own := newList env.id org listIndex :: w.own })
  | .selectSlots list, db, w => ((byID (db.visible w) list).map fun r => (r.allocatedSlots, r.nextSlot), w)
  | .drawRank n, _, w => (some (env.rank % n), w)
  | .updateSlots list slots index, db, w =>
    match byID (db.visible w) list with
    | none => (true, { w with taken := (list, index) :: w.taken })
    | some r =>
      if checks { r with allocatedSlots := slots, nextSlot := r.nextSlot + 1 } then
        (true, ⟨{ r with allocatedSlots := slots, nextSlot := r.nextSlot + 1 } :: w.own, (list, index) :: w.taken⟩)
      else (false, w)

end SlotStore

def slotLocks (env : SlotEnv) : SlotOp → List SlotKey
  | .lockOrg org => [.org org]
  | .insertList _ _ => [.row env.id]
  | .selectSlots list | .updateSlots list _ _ => [.row list]
  | _ => []

def slotLang : TxnLang SlotKey SlotStore SlotWork SlotOp SlotOp.Resp SlotEnv :=
  .ofStatements ⟨[], []⟩ slotLocks SlotOp.refusal SlotOp.refusal SlotEnv.fails SlotStore.carry
    fun w db => ⟨db.visible w, w.taken ++ db.issued⟩

/-! ## The code -/

abbrev SlotProg := Prog SlotOp SlotOp.Resp SlotError

abbrev slotStmt (op : SlotOp) : SlotProg op.Resp := Prog.call op

def nextIdx : Option Int → Int
  | none => 0
  | some maxIdx => maxIdx + 1

def getOrCreateStatusList (orgID : UUID) : SlotProg CredentialStatusList := do
  match ← slotStmt (.selectList orgID) with
  | none => .fail (.driver "")
  | some (some sl) => return sl
  | some none =>
    let some maxIdx ← slotStmt (.selectMaxIndex orgID) | .fail (.driver "")
    let some sl ← slotStmt (.insertList orgID (nextIdx maxIdx)) | .fail (.driver "create status list row: ")
    return sl

def allocateRandomStatusIndex (list : UUID) : SlotProg Nat := do
  let some (occupied, count) ← slotStmt (.selectSlots list) | .fail (.driver "")
  Prog.require (occupied.length = slotCount / 8 ∧ 0 ≤ count ∧ count < slotCount)
    (.message "status list is full or allocation state is invalid")
  Prog.require ((usedSlots occupied : Int) = count)
    (.message "status slot occupancy does not match reservation count")
  let some rank ← slotStmt (.drawRank (slotCount - count.toNat)) | .fail (.driver "")
  match findSlot occupied rank (List.range slotCount) with
  | none => .fail (.message "status slot occupancy is invalid")
  | some index =>
    if ← slotStmt (.updateSlots list (setBit occupied index) index) then return index
    else .fail (.driver "")

def allocateCredentialStatus (org : UUID) : SlotProg (UUID × Nat) := do
  if ← slotStmt (.lockOrg org) then
    let list ← getOrCreateStatusList org
    let index ← allocateRandomStatusIndex list.id
    return (list.id, index)
  else .fail (.driver "")

def issueCredentials : List UUID → SlotProg (List (UUID × Nat))
  | [] => return []
  | org :: orgs => do
    let pair ← allocateCredentialStatus org
    let pairs ← issueCredentials orgs
    return pair :: pairs

def slotSystem : TxnSystem (List UUID) Empty (fun _ => Unit) (List UUID) SlotOp SlotOp.Resp SlotKey SlotStore SlotWork Unit
    SlotEnv Empty SlotError (List (UUID × Nat)) SlotError (List (UUID × Nat)) where
  lang := slotLang
  main orgs := Prog.call (.txn orgs) >>= Prog.ofExcept
  stmt _ s _ := nomatch s
  other e _ := nomatch e
  stamp _ := ()
  body orgs _ := issueCredentials orgs
  fate := SlotEnv.fate
  refused := .driver ""

end Clavex
