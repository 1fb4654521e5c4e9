import Mathlib.Data.List.Sort
import Clavex.Delegation
import Clavex.Projection
import Clavex.SealCoverageSound
import Clavex.StatusList

/-!
# Snapshots of an entity

The state of an entity at an earlier time is folded from the audit log (`SnapshotEntity`) or
from its events (`SnapshotFromEvents`). The first does not look at the status of a row. The
second selects events by their time, and folds them by their id.
-/

namespace Clavex

open List

structure ChangeEntry where
  atTime : Int
  (action status : String)
  actorID : Option UUID
  actorEmail : Option String
  ipAddress : Option String := none
  (before after changedFields : Option (GoMap Json) := none)

structure EntitySnapshot where
  entity : EntityKey
  reconstructedAt : Int
  (firstSeenAt lastModifiedAt : Option Int := none)
  state : GoMap Json := ∅
  changeLog : List ChangeEntry := []
  events : List AuditEvent := []

def replay (state : GoMap Json) (changes : List (GoMap Json)) : GoMap Json := changes.foldl GoMap.assignAll state

/-- The value of the last change that sets the field. -/
def lastValue (changes : List (GoMap Json)) (field : String) : Option Json := changes.reverse.findSome? (·.lookup field)

theorem lookup_replay (state changes field) :
    (replay state changes).lookup field = (lastValue changes field).or (state.lookup field) := by
  induction changes generalizing state with
  | nil => rfl
  | cons c changes ih =>
    have hc : (state.assignAll c).lookup field = (c.lookup field).or (state.lookup field) := by
      by_cases hmem : field ∈ c
      · obtain ⟨v, hv⟩ := Option.isSome_iff_exists.mp (Finmap.lookup_isSome.mpr hmem)
        rw [GoMap.assignAll, Finmap.lookup_union_left hmem, hv, Option.some_or]
      · rw [GoMap.assignAll, Finmap.lookup_union_right hmem, Finmap.lookup_eq_none.mpr hmem, Option.none_or]
    simp only [replay, foldl_cons] at ih ⊢
    simp [ih, hc, lastValue, Option.or_assoc]

theorem foldl_state {α : Type} {f} {g}
    (h : ∀ snap a, (f snap a).state = snap.state.assignAll (g a)) (l : List α) (snap : EntitySnapshot) :
    (l.foldl f snap).state = replay snap.state (l.map g) := by
  rw [replay, foldl_map]
  exact (foldl_hom EntitySnapshot.state fun snap a => (h snap a).symm).symm

/-! ## From the audit log -/

def mutationSuffixes : List String :=
  [".created", ".updated", ".deleted", ".enabled", ".disabled", ".invited", ".suspended", ".restored", ".reset",
    ".verified", ".set", ".removed", ".added", ".blocked", ".unblocked"]

def isMutationAction (action : String) : Bool :=
  mutationSuffixes.any fun t => decide (t.length < action.length) && hasSuffix action t

def mapMember (m : GoMap Json) (k : String) : Option (GoMap Json) :=
  match m.lookup k with
  | some (.obj ms) => some (GoMap.ofMembers ms)
  | _ => none

def changeEntry (e : AuditEvent) : ChangeEntry where
  atTime := e.time
  action := e.action
  status := e.status
  actorID := e.actorID
  actorEmail := e.actorEmail
  ipAddress := e.ipAddress
  before := e.metadata.bind (mapMember · "before")
  after := e.metadata.bind (mapMember · "after")
  changedFields := e.metadata.bind (mapMember · "changed_fields")

/-- Without a map of changes the metadata is one. -/
def mutationFields (e : AuditEvent) : GoMap Json :=
  match isMutationAction e.action, e.metadata with
  | true, some m =>
    match mapMember m "after", mapMember m "changed_fields" with
    | none, none => ((m.erase "before").erase "after").erase "changed_fields"
    | after, changed => (after.getD ∅).assignAll (changed.getD ∅)
  | _, _ => ∅

def EntitySnapshot.audited (snap : EntitySnapshot) (r : AuditRow) : EntitySnapshot :=
  { snap with
    events := snap.events ++ [r.event]
    firstSeenAt := some (snap.firstSeenAt.getD r.event.time)
    lastModifiedAt := some r.event.time
    state := snap.state.assignAll (mutationFields r.event)
    changeLog := snap.changeLog ++ if isMutationAction r.action then [changeEntry r.event] else [] }

def AuditRow.upTo (k : EntityKey) (t : Int) (r : AuditRow) : Bool :=
  r.orgID == k.orgID && r.resourceID == some k.entityID && (k.entityType == "" || r.resourceType == some k.entityType) &&
    decide (r.createdAt ≤ t)

def snapshotEntity (db : AuditDB) (now : Int) (k : EntityKey) (atTime : Int) : EntitySnapshot :=
  let t := if atTime = zeroTime then now else atTime
  (db.rows.filter (AuditRow.upTo k t)).foldl .audited { entity := k, reconstructedAt := t }

/-- The row is none of the entity up to `t`, no mutation, or has no metadata. -/
def Silent (k : EntityKey) (t : Int) (r : AuditRow) : Prop :=
  r.upTo k t = true → isMutationAction r.action = true → r.event.metadata = none

theorem snapshotEntity_commit (db) {r} (now k atTime)
    (h : Silent k (if atTime = zeroTime then now else atTime) r) :
    (snapshotEntity (db.commit r) now k atTime).state = (snapshotEntity db now k atTime).state := by
  rcases commit_rows db r with heq | ⟨u, v, hold, hnew⟩
  · rw [snapshotEntity, heq, snapshotEntity]
  · rw [snapshotEntity, snapshotEntity, hold, hnew]
    simp only [foldl_state (f := .audited) fun _ _ => rfl, filter_append]
    generalize (if atTime = zeroTime then now else atTime) = t at h ⊢
    rw [filter_cons]
    split
    · rename_i hup
      have hnone : mutationFields r.event = ∅ := by
        cases hmut : isMutationAction r.action with
        | false => simp [mutationFields, AuditRow.event, hmut]
        | true => simp [mutationFields, h hup hmut]
      simp [replay, hnone, GoMap.assignAll]
    · rfl

def failedUpdate (metadata : Json) : AuditRow where
  id := 1
  eventID := "e"
  orgID := 1
  action := "user.updated"
  resourceID := some "u"
  status := "failure"
  metadata := metadata
  createdAt := 0

structure LoggedEvent extends EntityEvent where
  eventType : String
  actorID : Option UUID := none
  actorEmail : Option String := none
  occurredAt : Int

structure EventLog where
  list : List LoggedEvent
  sorted : list.Pairwise fun a b => a.id < b.id

variable (log : EventLog) (k : EntityKey)

def EventLog.eventsOf : List LoggedEvent := log.list.filter fun e => decide (e.entity = k)

def listEntityEvents (upTo : Int) : List LoggedEvent :=
  if upTo = zeroTime then log.eventsOf k else (log.eventsOf k).filter fun e => decide (e.occurredAt ≤ upTo)

def EntitySnapshot.applied (snap : EntitySnapshot) (e : LoggedEvent) : EntitySnapshot :=
  { snap with
    firstSeenAt := some (snap.firstSeenAt.getD e.occurredAt)
    lastModifiedAt := some e.occurredAt
    state := snap.state.assignAll e.payload
    changeLog := snap.changeLog ++
      [⟨e.occurredAt, e.eventType, "success", e.actorID, e.actorEmail, none, none, e.payload, none⟩] }

def snapshotFromEvents (atTime : Int) : EntitySnapshot :=
  (listEntityEvents log k atTime).foldl .applied { entity := k, reconstructedAt := atTime }

def EventLog.occurred (t₁ t₂ : Int) : List LoggedEvent :=
  ((log.eventsOf k).filter fun e => decide (t₁ < e.occurredAt ∧ e.occurredAt ≤ t₂)).insertionSort
    (·.occurredAt ≤ ·.occurredAt)

/-- The last event by id up to `t₂` that sets a field sets it as the last in time after `t₁` does, or
if there is none, as the last by id up to `t₁`. -/
def SameLast (t₁ t₂ : Int) : Prop :=
  ∀ field, lastValue ((listEntityEvents log k t₂).map (·.payload)) field =
    (lastValue ((log.occurred k t₁ t₂).map (·.payload)) field).or
      (lastValue ((listEntityEvents log k t₁).map (·.payload)) field)

def renamed (id : Nat) (name : String) (t : Int) : LoggedEvent where
  id := id
  entity := ⟨1, "user", "u"⟩
  payload := .ofMembers [("name", .str name)]
  eventType := "user.updated"
  occurredAt := t

def renames (t t' : Int) : EventLog := ⟨[renamed 1 "a" t, renamed 2 "b" t'], by simp [renamed]⟩

end Clavex
