import Clavex.Assertion
import Clavex.Models

/-!
# Privileged access requests

A checkout of a gated credential and the signing of a key under a gated SSH CA name an access
request. The first looks at its requester, resource and expiry, the second at its status
alone. A break-glass request counts the uses of the week and then inserts, in two statements.
-/

namespace Clavex

open Prog List

inductive AccessStatus where
  | pending
  | approved
  | denied
  | active
  | expired
  | revoked
deriving DecidableEq

structure AccessBody where
  (orgID requesterID : UUID)
  (resourceID resourceName justification : String)
  requestedDuration : Int

structure AccessRequest extends AccessBody where
  id : UUID
  status : AccessStatus
  (expiresAt revokedAt : Option Int)
  createdAt : Int
  isBreakGlass : Bool

structure PamDB where
  now : Int
  requests : List AccessRequest

namespace PamDB

variable (db : PamDB) (org id : UUID) (q : AccessBody)

def createAccessRequest : PamDB :=
  { db with requests := ⟨q, id, .pending, none, none, db.now, false⟩ :: db.requests }

def createBreakGlassRequest : PamDB :=
  { db with
    requests := ⟨q, id, .active, some (db.now + q.requestedDuration * 60), none, db.now, true⟩ :: db.requests }

def update (p : AccessRequest → Bool) (f : AccessRequest → AccessRequest) : PamDB :=
  { db with requests := db.requests.map fun r => if r.orgID == org && r.id == id && p r then f r else r }

def expire : PamDB :=
  { db with requests := db.requests.map fun r =>
      if r.status == .active && r.expiresAt.any (· < db.now) then { r with status := .expired } else r }

def getAccessRequest : Option AccessRequest := db.requests.find? fun r => r.orgID == org && r.id == id

end PamDB

/-! ## The life of a request -/

inductive PamEvent where
  | tick (n : Nat)
  | raise (id : UUID) (q : AccessBody)
  | breakGlass (id : UUID) (q : AccessBody)
  | approve (org id : UUID)
  | deny (org id : UUID)
  | revoke (org id : UUID)
  | expire

def PamDB.step (db : PamDB) : PamEvent → PamDB
  | .tick n => { db with now := db.now + n }
  | .raise id q => db.createAccessRequest id q
  | .breakGlass id q => db.createBreakGlassRequest id q
  | .approve org id => db.update org id (·.status == .pending) fun r =>
      { r with status := .active, expiresAt := some (db.now + r.requestedDuration * 60) }
  | .deny org id => db.update org id (·.status == .pending) fun r => { r with status := .denied }
  | .revoke org id => db.update org id (fun r => r.status == .approved || r.status == .active) fun r =>
      { r with status := .revoked, revokedAt := some db.now }
  | .expire => db.expire

section
variable (text : UUID → String) (db : PamDB) (org credID userID : UUID) (requireAccessRequest : Bool)

def accessRequestAuthorizes (ar : AccessRequest) : Bool :=
  ar.status == .active && ar.requesterID == userID && ar.resourceID == text credID && ar.revokedAt == none &&
    ar.expiresAt.any (db.now < ·)

/-- The request that is named may be missing, or no UUID. -/
def checkoutGate (named : Option (Option UUID)) : Except (Nat × String) Unit :=
  if requireAccessRequest then
    match named.join with
    | none => .error (403, "this credential requires an approved access request")
    | some id =>
      if (db.getAccessRequest org id).any (accessRequestAuthorizes text db credID userID) then .ok ()
      else .error (403, "no valid approved access request for this credential")
  else .ok ()

def signGate (named : Option (Option UUID)) : Except (Nat × String) Unit :=
  if requireAccessRequest then
    match named with
    | none => .error (403, "an active access request is required to sign SSH keys")
    | some none => .error (400, "invalid access_request_id")
    | some (some id) =>
      if (db.getAccessRequest org id).any (·.status == .active) then .ok ()
      else .error (403, "access request is not active")
  else .ok ()

end

def Timed (r : AccessRequest) : Prop :=
  (r.status ≠ .revoked → r.revokedAt = none) ∧ (r.status = .active → r.expiresAt ≠ none)

theorem timed_step {db : PamDB} (h : ∀ r ∈ db.requests, Timed r) (e) :
    ∀ r ∈ (db.step e).requests, Timed r := by
  have hmap : ∀ {f : AccessRequest → AccessRequest}, (∀ r, Timed r → Timed (f r)) →
      ∀ r ∈ db.requests.map f, Timed r := by
    intro f hf r hr
    obtain ⟨r', hr', rfl⟩ := mem_map.mp hr
    exact hf r' (h r' hr')
  cases e with
  | tick n => exact h
  | raise id q | breakGlass id q => exact forall_mem_cons.mpr ⟨by simp [Timed], h⟩
  | approve org id | deny org id | revoke org id | expire => exact hmap fun r hr => by split <;> simp_all [Timed]

/-- What a privileged operation needs at the moment it takes place. -/
def Backed (db : PamDB) (userID : UUID) (r : AccessRequest) : Prop :=
  r.requesterID = userID ∧ r.status = .active ∧ r.revokedAt = none ∧ ∃ e, r.expiresAt = some e ∧ db.now ≤ e

/-- A checkout is backed by the request it names. The signing of a key is if the request is
the caller's own and not past its expiry. -/
theorem privileged_use_backed (text : UUID → String) (now : Int) (es : List PamEvent) (org credID userID : UUID)
    (named : Option (Option UUID)) :
    let db := es.foldl PamDB.step ⟨now, []⟩
    (checkoutGate text db org credID userID true named = .ok () →
      ∃ id r, named = some (some id) ∧ db.getAccessRequest org id = some r ∧ r.resourceID = text credID ∧
        Backed db userID r) ∧
    (signGate db org true named = .ok () →
      ∃ id r, named = some (some id) ∧ db.getAccessRequest org id = some r ∧
        (r.requesterID = userID → (∀ e, r.expiresAt = some e → db.now ≤ e) → Backed db userID r)) := by
  intro db
  have htimed : ∀ r ∈ db.requests, Timed r :=
    Trace.inv (fun db : PamDB => ∀ r ∈ db.requests, Timed r) (fun _ e h _ => timed_step h e)
      (Trace.run_always (fun _ _ => trivial) _ es) (forall_mem_nil _)
  constructor
  · intro h
    cases hid : named.join with
    | none => simp [checkoutGate, hid] at h
    | some id =>
      cases hr : db.getAccessRequest org id with
      | none => simp [checkoutGate, hid, hr] at h
      | some r =>
        simp [checkoutGate, hid, hr, accessRequestAuthorizes] at h
        obtain ⟨hact, huser, hcred, hrev, hexp⟩ := h
        refine ⟨id, r, Option.join_eq_some_iff.mp hid, hr, hcred, huser, hact, hrev, ?_⟩
        cases he : r.expiresAt with
        | none => simp [he] at hexp
        | some e => exact ⟨e, rfl, Int.le_of_lt (by simpa [he] using hexp)⟩
  · intro h
    rcases named with _ | _ | id
    · cases h
    · cases h
    · cases hr : db.getAccessRequest org id with
      | none => simp [signGate, hr] at h
      | some r =>
        simp [signGate, hr] at h
        obtain ⟨hrev, hexp⟩ := htimed r (mem_of_find?_eq_some hr)
        obtain ⟨e, he⟩ := Option.ne_none_iff_exists'.mp (hexp h)
        exact ⟨id, r, rfl, hr, fun huser hlive => ⟨huser, h, hrev (by simp [h]), e, he, hlive e he⟩⟩

/-- Another user signs with a request that is past its expiry. -/
theorem sign_not_backed :
    ¬∀ (now : Int) (es : List PamEvent) (org userID : UUID) (named : Option (Option UUID)),
      signGate (es.foldl PamDB.step ⟨now, []⟩) org true named = .ok () →
        ∃ id r, named = some (some id) ∧ (es.foldl PamDB.step ⟨now, []⟩).getAccessRequest org id = some r ∧
          Backed (es.foldl PamDB.step ⟨now, []⟩) userID r := by
  intro h
  obtain ⟨id, r, hid, hr, huser, -⟩ := h 0 [.breakGlass 1 ⟨7, 2, "db", "db", "", 1⟩, .tick 61] 7 3 (some (some 1)) rfl
  cases hid
  cases hr
  exact absurd huser (by decide)

/-! ## Break glass -/

structure BreakGlassConfig where
  enabled : Bool
  maxUsesPerWeek : Int
  requireJustification : Bool

/-- Weeks begin on Mondays, and the epoch was a Thursday. -/
def week (t : Int) : Int := (t + 259200) / 604800

def PamDB.countBreakGlassUsesThisWeek (db : PamDB) (org : UUID) : Nat :=
  db.requests.countP fun r => r.orgID == org && r.isBreakGlass && decide (week db.now * 604800 - 259200 ≤ r.createdAt)

def PamDB.usesIn (db : PamDB) (org : UUID) (w : Int) : Nat :=
  db.requests.countP fun r => r.orgID == org && r.isBreakGlass && decide (week r.createdAt = w)

inductive PamOp where
  | getConfig (org : UUID)
  | countUses (org : UUID)
  | createBreakGlass (q : AccessBody)

@[reducible] def PamOp.Resp : PamOp → Type
  | .getConfig _ => Bool
  | .countUses _ => Option Nat
  | .createBreakGlass _ => Bool

/-- A statement fails, or works with the id drawn for a new row. -/
def pamSem : Option UUID → (op : PamOp) → PamDB → op.Resp × PamDB
  | env, .getConfig _, db => (env.isSome, db)
  | env, .countUses org, db => (env.map fun _ => db.countBreakGlassUsesThisWeek org, db)
  | none, .createBreakGlass _, db => (false, db)
  | some id, .createBreakGlass q, db => (true, db.createBreakGlassRequest id q)

section
variable (cfg : UUID → BreakGlassConfig)

def insertBreakGlass (q : AccessBody) : Prog PamOp PamOp.Resp (Nat × String) Unit := do
  let created ← call (.createBreakGlass q)
  require (created = true) (500, "failed to create break-glass request")

def breakGlass (q : AccessBody) : Prog PamOp PamOp.Resp (Nat × String) Unit := do
  require (q.resourceName ≠ "") (400, "resource_name is required")
  require (1 ≤ q.requestedDuration) (400, "requested_duration must be at least 1 minute")
  let fetched ← call (.getConfig q.orgID)
  require (fetched = true) (500, "failed to fetch break-glass config")
  require ((cfg q.orgID).enabled = true) (403, "break-glass access is disabled for this organization")
  require ((cfg q.orgID).requireJustification = true → 20 ≤ byteLen (trimSpace q.justification))
    (400, "justification must be at least 20 characters")
  if 0 < (cfg q.orgID).maxUsesPerWeek then do
    let counted ← call (PamOp.countUses q.orgID)
    match counted with
    | none => fail (500, "failed to count break-glass uses")
    | some uses => do
      require (uses < (cfg q.orgID).maxUsesPerWeek)
        (429, "weekly break-glass limit of " ++ toString (cfg q.orgID).maxUsesPerWeek ++ " reached")
      insertBreakGlass q
  else insertBreakGlass q

def breakGlassSystem : System AccessBody PamOp PamOp.Resp (Nat × String) Unit PamDB (Option UUID) Nat where
  main := breakGlass cfg
  sem := pamSem
  other n db := { db with now := db.now + n }

/-- The phase is the number of uses that were counted. -/
inductive BreakGlassStep (q : AccessBody) : Option Nat → (op : PamOp) → (op.Resp → Option Nat) → Prop
  | config : BreakGlassStep q none (.getConfig q.orgID) fun _ => none
  | count : BreakGlassStep q none (.countUses q.orgID) id
  | insert {φ}
      (h : 0 < (cfg q.orgID).maxUsesPerWeek → ∃ u : Nat, φ = some u ∧ u < (cfg q.orgID).maxUsesPerWeek) :
      BreakGlassStep q φ (.createBreakGlass q) fun _ => none

def breakGlassProtocol : Protocol AccessBody PamOp PamOp.Resp := ⟨Option Nat, BreakGlassStep cfg⟩

theorem breakGlass_follows (q) : (breakGlass cfg q).Follows (breakGlassProtocol cfg) q (fun _ _ => True) none := by
  have hinsert {φ : Option Nat}
      (h : 0 < (cfg q.orgID).maxUsesPerWeek → ∃ u : Nat, φ = some u ∧ u < (cfg q.orgID).maxUsesPerWeek) :
      (insertBreakGlass q).Follows (breakGlassProtocol cfg) q (fun _ _ => True) φ :=
    .ask (.insert h) fun _ => .check (fun _ => trivial) fun _ => trivial
  refine .require (fun _ => .require (fun _ => ?_) fun _ => trivial) fun _ => trivial
  refine .ask .config fun _ => .require (fun _ => ?_) fun _ => trivial
  refine .require (fun _ => .require (fun _ => ?_) fun _ => trivial) fun _ => trivial
  split
  · refine .ask .count (Option.forall.2 ⟨trivial, fun uses => ?_⟩)
    exact .require (fun hu => hinsert fun _ => ⟨uses, rfl, hu⟩) fun _ => trivial
  · rename_i hfree
    exact hinsert fun h => absurd h hfree

/-- Every week is within its limit, and what a request counted is still an upper bound for
the week in which it counted, after which nothing was created. -/
def WithinLimits (db : PamDB) (c : Option (AccessBody × Option Nat)) : Prop :=
  (∀ r ∈ db.requests, r.createdAt ≤ db.now) ∧
    (∀ org w, 0 < (cfg org).maxUsesPerWeek → db.usesIn org w ≤ (cfg org).maxUsesPerWeek) ∧
    ∀ q u, c = some (q, some u) →
      ∃ t ≤ db.now, (∀ r ∈ db.requests, r.createdAt ≤ t) ∧ db.usesIn q.orgID (week t) ≤ u

variable {cfg}

theorem count_eq_usesIn {db : PamDB} (h : ∀ r ∈ db.requests, r.createdAt ≤ db.now) (org) :
    db.countBreakGlassUsesThisWeek org = db.usesIn org (week db.now) := by
  apply countP_congr
  intro r hr
  have hle := h r hr
  simp only [Bool.and_eq_true, decide_eq_true_eq]
  unfold week
  constructor <;> intro hr <;> exact ⟨hr.1, by omega⟩

theorem usesIn_le_of_counted {db : PamDB} {q : AccessBody} {t} {u} (ht : t ≤ db.now)
    (hrows : ∀ r ∈ db.requests, r.createdAt ≤ t) (hu : db.usesIn q.orgID (week t) ≤ u) :
    db.usesIn q.orgID (week db.now) ≤ u := by
  by_cases hw : week db.now = week t
  · rw [hw]
    exact hu
  have hnone : db.usesIn q.orgID (week db.now) = 0 := by
    refine countP_eq_zero.mpr fun r hr => ?_
    have := hrows r hr
    simp only [Bool.and_eq_true, decide_eq_true_eq]
    unfold week at *
    omega
  omega

theorem withinLimits_create {db q φ} (id)
    (h : WithinLimits cfg db (some (q, φ)))
    (hφ : 0 < (cfg q.orgID).maxUsesPerWeek → ∃ u : Nat, φ = some u ∧ u < (cfg q.orgID).maxUsesPerWeek) :
    WithinLimits cfg (db.createBreakGlassRequest id q) none := by
  obtain ⟨hrows, hmax, hcounted⟩ := h
  refine ⟨forall_mem_cons.mpr ⟨Int.le_refl _, hrows⟩, fun org w hpos => ?_, nofun⟩
  have hle := hmax org w hpos
  by_cases hown : q.orgID = org ∧ week db.now = w
  · -- The new row falls into the week that was counted or into one that has no use yet.
    obtain ⟨rfl, rfl⟩ := hown
    obtain ⟨u, rfl, hu⟩ := hφ hpos
    obtain ⟨t, ht, hbefore, hbound⟩ := hcounted q u rfl
    have huses := usesIn_le_of_counted ht hbefore hbound
    simp [PamDB.usesIn, PamDB.createBreakGlassRequest] at huses ⊢
    omega
  · simp only [PamDB.usesIn, PamDB.createBreakGlassRequest] at hle ⊢
    rw [countP_cons_of_neg (by simpa using hown)]
    exact hle

theorem withinLimits_kept {ok} :
    KeptOne (breakGlassSystem cfg) (breakGlassProtocol cfg) (fun _ => none) (fun _ _ _ => True) ok
      (WithinLimits cfg) where
  start q h := ⟨h.1, h.2.1, nofun⟩
  finish h _ := ⟨h.1, h.2.1, nofun⟩
  other {_ _ n} _ _ h := by
    obtain ⟨hrows, hmax, hcounted⟩ := h
    refine ⟨fun r hr => (hrows r hr).trans (by simp [breakGlassSystem]), hmax, fun q u hc => ?_⟩
    obtain ⟨t, ht, hbound⟩ := hcounted q u hc
    exact ⟨t, ht.trans (by simp [breakGlassSystem]), hbound⟩
  step env h hstep := by
    cases hstep with
    | config => exact h
    | count =>
      refine ⟨h.1, h.2.1, fun q u hc => ⟨_, Int.le_refl _, h.1, ?_⟩⟩
      cases env with
      | none => cases hc
      | some id =>
        cases hc
        exact (count_eq_usesIn h.1 _).ge
    | insert hφ =>
      cases env with
      | none => exact ⟨h.1, h.2.1, nofun⟩
      | some id =>
        have hnone := withinLimits_create id h hφ
        exact ⟨hnone.1, hnone.2.1, nofun⟩

/-- Requests that do not overlap stay within the limit of every week. -/
theorem breakGlass_within_limit (cfg : UUID → BreakGlassConfig) (now : Int)
    (ms : List (PoolMove AccessBody (Option UUID) Nat)) (hone : ∀ i q, .start i q ∈ ms → i = 0) (org : UUID)
    (hpos : 0 < (cfg org).maxUsesPerWeek) (w : Int) :
    (run (breakGlassSystem cfg).step (Pool.init ⟨now, []⟩) ms).store.usesIn org w ≤ (cfg org).maxUsesPerWeek := by
  obtain ⟨c, -, -, hmax, -⟩ := System.inv_one (breakGlass_follows cfg) withinLimits_kept
    (Trace.run_always (fun _ _ => trivial) _ ms) hone
    (⟨forall_mem_nil _, fun org w h => Int.le_of_lt h, nofun⟩ : WithinLimits cfg ⟨now, []⟩ none)
  exact hmax org w hpos

theorem breakGlass_within_limit_once :
    let once : UUID → BreakGlassConfig := fun _ => ⟨true, 1, false⟩
    let moves : List (PoolMove AccessBody (Option UUID) Nat) :=
      .start 0 ⟨7, 2, "db", "db", "", 1⟩ :: replicate 4 (.advance 0 (some 1)) ++
        .start 0 ⟨7, 3, "db", "db", "", 1⟩ :: replicate 4 (.advance 0 (some 2))
    let t := run (breakGlassSystem once).step (Pool.init ⟨0, []⟩) moves
    t.log.map (fun x => x.2.toOption.isSome) = [false, true] ∧ t.store.usesIn 7 0 = 1 ∧
      ∀ w, t.store.usesIn 7 w ≤ (1 : Int) := by
  refine ⟨by rfl, by rfl, breakGlass_within_limit _ 0 _ ?_ 7 (by decide)⟩
  intro i q hmem
  simp only [mem_append, mem_cons, mem_replicate, reduceCtorEq, PoolMove.start.injEq, and_false, or_false] at hmem
  exact hmem.elim And.left And.left

/-- Two requests count before either inserts. -/
theorem breakGlass_over_limit :
    ¬∀ (cfg : UUID → BreakGlassConfig) (now : Int) (ms : List (PoolMove AccessBody (Option UUID) Nat)) (org : UUID),
      0 < (cfg org).maxUsesPerWeek → ∀ w,
        (run (breakGlassSystem cfg).step (Pool.init ⟨now, []⟩) ms).store.usesIn org w ≤ (cfg org).maxUsesPerWeek := by
  intro h
  have hle := h (fun _ => ⟨true, 1, false⟩) 0
    [.start 0 ⟨7, 2, "db", "db", "", 1⟩, .start 1 ⟨7, 3, "db", "db", "", 1⟩, .advance 0 (some 1), .advance 1 (some 1),
      .advance 0 (some 1), .advance 1 (some 1), .advance 0 (some 1), .advance 1 (some 2)] 7 (by decide) 0
  exact absurd hle (show ¬((2 : Nat) : Int) ≤ 1 by decide)

end

end Clavex
