import Clavex.Prog
import Clavex.Rows
import Clavex.Trace
import Clavex.Models

/-!
# Projections of entity events

`runProjectionCycle`: the events past the watermark are folded, entity by entity, into the
table of projections. The watermark is the highest event of any projection. A cycle takes its
statements one by one, each of which may fail, and the process may stop between two of them.
-/

namespace Clavex

open List Function Rows

structure EntityKey where
  orgID : UUID
  (entityType entityID : String)
deriving DecidableEq

structure EntityEvent where
  id : Nat
  entity : EntityKey
  payload : GoMap Json

structure EntityProjection where
  entity : EntityKey
  state : GoMap Json
  lastEventID : Nat

/-! ## Tables -/

def insertByID (e : EntityEvent) : List EntityEvent → List EntityEvent
  | [] => [e]
  | a :: l => if e.id < a.id then e :: a :: l else if a.id < e.id then a :: insertByID e l else a :: l

theorem mem_insertByID {e b l} (h : b ∈ insertByID e l) : b = e ∨ b ∈ l := by
  induction l with
  | nil => exact .inl (mem_singleton.mp h)
  | cons a l ih =>
    simp only [insertByID] at h
    split at h
    · exact mem_cons.mp h
    split at h
    · rcases mem_cons.mp h with rfl | h
      · exact .inr (mem_cons_self ..)
      · exact (ih h).imp_right (mem_cons_of_mem _)
    · exact .inr h

theorem sorted_insertByID {e l} (h : l.Pairwise fun a b => a.id < b.id) :
    (insertByID e l).Pairwise fun a b => a.id < b.id := by
  induction l with
  | nil => exact pairwise_singleton ..
  | cons a l ih =>
    rw [pairwise_cons] at h
    simp only [insertByID]
    split
    · rename_i hlt
      refine pairwise_cons.mpr ⟨fun b hb => ?_, pairwise_cons.mpr h⟩
      rcases mem_cons.mp hb with rfl | hb
      · exact hlt
      · exact Nat.lt_trans hlt (h.1 b hb)
    · split
      · rename_i hlt
        refine pairwise_cons.mpr ⟨fun b hb => ?_, ih h.2⟩
        rcases mem_insertByID hb with rfl | hb
        · exact hlt
        · exact h.1 b hb
      · exact pairwise_cons.mpr h

structure EventTable where
  list : List EntityEvent
  sorted : list.Pairwise fun a b => a.id < b.id
  positive : ∀ e ∈ list, 0 < e.id

def EventTable.empty : EventTable := ⟨[], List.Pairwise.nil, fun _ h => absurd h List.not_mem_nil⟩

def EventTable.insert (t : EventTable) (e : EntityEvent) : EventTable :=
  if h : 0 < e.id then
    { list := insertByID e t.list
      sorted := sorted_insertByID t.sorted
      positive := fun b hb => (mem_insertByID hb).elim (fun heq => heq ▸ h) (t.positive b) }
  else t

structure ProjStore where
  events : EventTable
  projections : Rows EntityProjection.entity

def projectionBatchSize : Nat := 500

variable (s : ProjStore)

def ProjStore.maxProjectedEventID : Nat := (s.projections.list.map (·.lastEventID)).foldr max 0

def ProjStore.listNewEventsBatch (afterID limit : Nat) : List EntityEvent :=
  (s.events.list.filter fun e => decide (afterID < e.id)).take (if limit = 0 then 500 else limit)

def ProjStore.getProjection (k : EntityKey) : Option EntityProjection :=
  s.projections.find fun p => decide (p.entity = k)

def ProjStore.upsertProjection (p : EntityProjection) : ProjStore :=
  { s with projections := s.projections.set p }

/-! ## Statements -/

inductive ProjOp where
  | maxProjectedEventID
  | listNewEventsBatch (afterID limit : Nat)
  | getProjection (k : EntityKey)
  | upsertProjection (p : EntityProjection)

@[reducible] def ProjOp.Resp : ProjOp → Type
  | .maxProjectedEventID => Option Nat
  | .listNewEventsBatch .. => Option (List EntityEvent)
  | .getProjection _ => Option (Option EntityProjection)
  | .upsertProjection _ => Bool

def projSem (works : Bool) : (op : ProjOp) → ProjStore → op.Resp × ProjStore
  | .maxProjectedEventID, s => (if works then some s.maxProjectedEventID else none, s)
  | .listNewEventsBatch afterID limit, s => (if works then some (s.listNewEventsBatch afterID limit) else none, s)
  | .getProjection k, s => (if works then some (s.getProjection k) else none, s)
  | .upsertProjection p, s => if works then (true, s.upsertProjection p) else (false, s)

abbrev ProjProg := Prog ProjOp ProjOp.Resp Unit

abbrev projStmt (op : ProjOp) : ProjProg op.Resp := Prog.call op

/-! ## The cycle -/

def keyOrder (events : List EntityEvent) : List EntityKey :=
  events.foldl (fun ks e => if e.entity ∈ ks then ks else ks ++ [e.entity]) []

def bootstrap (k : EntityKey) : EntityProjection := ⟨k, ∅, 0⟩

def maxEventID (events : List EntityEvent) : Nat := events.foldl (fun m e => if m < e.id then e.id else m) 0

def eventsOf (k : EntityKey) (events : List EntityEvent) : List EntityEvent := events.filter fun e => decide (e.entity = k)

def applyEvents (p : EntityProjection) (events : List EntityEvent) : EntityProjection where
  entity := p.entity
  state := events.foldl (fun state e => e.payload ∪ state) p.state
  lastEventID := maxEventID events

def projectEntity (events : List EntityEvent) (k : EntityKey) : ProjProg Unit := do
  let some found ← projStmt (.getProjection k) | return ()
  -- an error is logged, and the next entity is taken up
  let _ ← projStmt (.upsertProjection (applyEvents (found.getD (bootstrap k)) (eventsOf k events)))

def projectEntities (events : List EntityEvent) : List EntityKey → ProjProg Unit
  | [] => return ()
  | k :: ks => do
    projectEntity events k
    projectEntities events ks

def runProjectionCycle : ProjProg Unit := do
  let some watermark ← projStmt .maxProjectedEventID | return ()
  let some events ← projStmt (.listNewEventsBatch watermark projectionBatchSize) | return ()
  projectEntities events (keyOrder events)

/-! ## Runs -/

/-- `replies` says of each statement of a cycle whether it works; the process stops at the end
of the list. An event that comes during a cycle may as well come before or after it: only one
statement of a cycle looks at events. -/
inductive ProjMove where
  | append (e : EntityEvent)
  | cycle (replies : List Bool)

def projStep : ProjMove → ProjStore
  | .append e => { s with events := s.events.insert e }
  | .cycle replies => runProjectionCycle.runFor projSem replies s

def ProjStore.newEvents : List EntityEvent :=
  s.listNewEventsBatch s.maxProjectedEventID projectionBatchSize

def foldOnto (found : Option EntityProjection) (k : EntityKey) : List EntityEvent → Option EntityProjection
  | [] => found
  | e :: es => some (applyEvents (found.getD (bootstrap k)) (e :: es))

def ProjStore.replayed (k : EntityKey) : Option EntityProjection :=
  foldOnto none k (eventsOf k s.events.list)

def ProjStore.cycled : ProjStore := (runProjectionCycle.exec (projSem true) s).2

/-! ## Event ids -/

theorem maxEventID_spec (es : List EntityEvent) (m) :
    let r := es.foldl (fun m e => if m < e.id then e.id else m) m
    m ≤ r ∧ (∀ e ∈ es, e.id ≤ r) ∧ (r = m ∨ ∃ e ∈ es, e.id = r) := by
  induction es generalizing m with
  | nil => exact ⟨Nat.le_refl _, fun _ h => absurd h not_mem_nil, .inl rfl⟩
  | cons e es ih =>
    simp only [foldl_cons, forall_mem_cons, exists_mem_cons_iff]
    split
    · rename_i hlt
      obtain ⟨h1, h2, h3⟩ := ih e.id
      exact ⟨Nat.le_trans (Nat.le_of_lt hlt) h1, ⟨h1, h2⟩, .inr (h3.imp_left Eq.symm)⟩
    · rename_i hge
      obtain ⟨h1, h2, h3⟩ := ih m
      exact ⟨h1, ⟨Nat.le_trans (Nat.le_of_not_lt hge) h1, h2⟩, h3.imp_right .inr⟩

variable {e : EntityEvent} {es es₁ es₂ l : List EntityEvent} {n : Nat} {k : EntityKey} {s : ProjStore} {p : EntityProjection}

theorem le_maxEventID (h : e ∈ es) : e.id ≤ maxEventID es :=
  (maxEventID_spec es 0).2.1 e h

theorem maxEventID_le (h : ∀ e ∈ es, e.id ≤ n) : maxEventID es ≤ n := by
  rcases (maxEventID_spec es 0).2.2 with h0 | ⟨e, he, heq⟩
  · show List.foldl _ 0 es ≤ n
    rw [h0]
    exact Nat.zero_le n
  · exact Nat.le_trans (Nat.le_of_eq heq.symm) (h e he)

theorem maxEventID_mem (h : 0 < maxEventID es) : ∃ e ∈ es, e.id = maxEventID es :=
  (maxEventID_spec es 0).2.2.resolve_left fun h0 => absurd (show maxEventID es = 0 from h0) (Nat.ne_of_gt h)

theorem maxEventID_append (he : e ∈ es₂)
    (h : ∀ a ∈ es₁, ∀ b ∈ es₂, a.id < b.id) : maxEventID (es₁ ++ es₂) = maxEventID es₂ := by
  apply Nat.le_antisymm
  · refine maxEventID_le fun a ha => ?_
    rcases mem_append.mp ha with ha | ha
    · exact Nat.le_trans (Nat.le_of_lt (h a ha e he)) (le_maxEventID he)
    · exact le_maxEventID ha
  · exact maxEventID_le fun a ha => le_maxEventID (mem_append_right _ ha)

theorem mem_eventsOf :
    e ∈ eventsOf k es ↔ e ∈ es ∧ e.entity = k := by
  simp [eventsOf]

theorem eventsOf_append (k es₁ es₂) : eventsOf k (es₁ ++ es₂) = eventsOf k es₁ ++ eventsOf k es₂ :=
  filter_append ..

theorem foldOnto_append (h : ∀ a ∈ es₁, ∀ b ∈ es₂, a.id < b.id) :
    foldOnto (foldOnto none k es₁) k es₂ = foldOnto none k (es₁ ++ es₂) := by
  cases es₂ with
  | nil => rw [append_nil]; rfl
  | cons b es₂ =>
    cases es₁ with
    | nil => rfl
    | cons a es₁ =>
      have hmax := maxEventID_append (mem_cons_self ..) h
      simp only [foldOnto, cons_append, applyEvents, Option.getD_some, Option.getD_none] at hmax ⊢
      rw [hmax, ← cons_append, foldl_append]

/-! ## Events up to an id -/

def upTo (n : Nat) (events : List EntityEvent) : List EntityEvent := events.filter fun e => decide (e.id ≤ n)

theorem mem_upTo : e ∈ upTo n es ↔ e ∈ es ∧ e.id ≤ n := by
  simp [upTo]

theorem upTo_eq_self (h : ∀ e ∈ es, e.id ≤ n) : upTo n es = es :=
  filter_eq_self.mpr fun e he => decide_eq_true (h e he)

theorem upTo_insertByID (h : n < e.id) (l) : upTo n (insertByID e l) = upTo n l := by
  have hout : decide (e.id ≤ n) = false := decide_eq_false (Nat.not_le.mpr h)
  induction l with
  | nil => simp [insertByID, upTo, hout]
  | cons a l ih =>
    unfold insertByID
    split
    · simp [upTo, hout]
    · split
      · simp only [upTo, filter_cons] at ih ⊢
        rw [ih]
      · rfl

theorem eq_upTo_append (hsorted : l.Pairwise fun a b => a.id < b.id) (w) :
    l = upTo w l ++ l.filter fun e => decide (w < e.id) := by
  induction l with
  | nil => rfl
  | cons a l ih =>
    rw [pairwise_cons] at hsorted
    by_cases ha : a.id ≤ w
    · have hout : decide (w < a.id) = false := decide_eq_false (Nat.not_lt.mpr ha)
      have hin : upTo w (a :: l) = a :: upTo w l := filter_cons_of_pos (decide_eq_true ha)
      rw [hin, filter_cons_of_neg (by rw [hout]; exact Bool.false_ne_true), cons_append, ← ih hsorted.2]
    · have hw : w < a.id := Nat.lt_of_not_le ha
      -- the first event past `w` is followed by such events only
      have hall : ∀ b ∈ a :: l, w < b.id := fun b hb =>
        (mem_cons.mp hb).elim (fun h => h ▸ hw) fun h => Nat.lt_trans hw (hsorted.1 b h)
      have hnone : upTo w (a :: l) = [] :=
        filter_eq_nil_iff.mpr fun b hb => by simpa using hall b hb
      rw [hnone, filter_eq_self.mpr fun b hb => decide_eq_true (hall b hb)]
      rfl

theorem upTo_batch (hsorted : l.Pairwise fun a b => a.id < b.id) (w n) :
    let batch := (l.filter fun e => decide (w < e.id)).take n
    batch ≠ [] → upTo (maxEventID batch) l = upTo w l ++ batch := by
  intro batch hne
  have hdrop : l = upTo w l ++ batch ++ (l.filter fun e => decide (w < e.id)).drop n := by
    rw [append_assoc, take_append_drop]
    exact eq_upTo_append hsorted w
  obtain ⟨b, hb⟩ := exists_mem_of_ne_nil _ hne
  have hbw : w < b.id := of_decide_eq_true (mem_filter.mp (mem_of_mem_take hb)).2
  have hpos : 0 < maxEventID batch := Nat.lt_of_lt_of_le (Nat.zero_lt_of_lt hbw) (le_maxEventID hb)
  obtain ⟨top, htop, htopID⟩ := maxEventID_mem hpos
  have hafter : upTo (maxEventID batch) ((l.filter fun e => decide (w < e.id)).drop n) = [] := by
    refine filter_eq_nil_iff.mpr fun c hc => ?_
    have hlt : top.id < c.id := by
      rw [hdrop, pairwise_append] at hsorted
      exact hsorted.2.2 top (mem_append_right _ htop) c hc
    simp only [decide_eq_true_eq]
    omega
  have hbefore : upTo (maxEventID batch) (upTo w l ++ batch) = upTo w l ++ batch := by
    refine upTo_eq_self fun e he => ?_
    rcases mem_append.mp he with he | he
    · exact Nat.le_trans (mem_upTo.mp he).2 (Nat.le_trans (Nat.le_of_lt hbw) (le_maxEventID hb))
    · exact le_maxEventID he
  conv => lhs; rw [hdrop]
  unfold upTo at hafter hbefore ⊢
  rw [filter_append, hafter, append_nil]
  exact hbefore

/-! ## Entities of a batch -/

variable (events : List EntityEvent)

theorem keyOrder_go (ks) (hks : ks.Nodup) :
    let r := events.foldl (fun ks e => if e.entity ∈ ks then ks else ks ++ [e.entity]) ks
    r.Nodup ∧ ∀ k, k ∈ r ↔ k ∈ ks ∨ ∃ e ∈ events, e.entity = k := by
  induction events generalizing ks with
  | nil => exact ⟨hks, fun k => by simp⟩
  | cons e events ih =>
    simp only [foldl_cons, exists_mem_cons_iff]
    split
    · rename_i hmem
      obtain ⟨hn, hr⟩ := ih ks hks
      refine ⟨hn, fun k => (hr k).trans ?_⟩
      constructor
      · exact fun h => h.imp_right .inr
      · rintro (h | rfl | h)
        · exact .inl h
        · exact .inl hmem
        · exact .inr h
    · rename_i hnew
      have hnodup : (ks ++ [e.entity]).Nodup := by
        refine nodup_append.mpr ⟨hks, nodup_singleton _, fun a ha b hb heq => ?_⟩
        rw [mem_singleton.mp hb] at heq
        exact hnew (heq ▸ ha)
      obtain ⟨hn, hr⟩ := ih _ hnodup
      refine ⟨hn, fun k => (hr k).trans ?_⟩
      rw [mem_append, mem_singleton, eq_comm, or_assoc]

theorem nodup_keyOrder : (keyOrder events).Nodup :=
  (keyOrder_go events [] nodup_nil).1

theorem mem_keyOrder {events} : k ∈ keyOrder events ↔ eventsOf k events ≠ [] := by
  have h := (keyOrder_go events [] nodup_nil).2 k
  refine h.trans ?_
  simp [eventsOf]

/-! ## Writes of a cycle -/

def projectOne (s : ProjStore) (k : EntityKey) : ProjStore :=
  s.upsertProjection (applyEvents ((s.getProjection k).getD (bootstrap k)) (eventsOf k events))

theorem projectEntities_exec (ks s) :
    (projectEntities events ks).exec (projSem true) s = (.ok (), ks.foldl (projectOne events) s) := by
  induction ks generalizing s with
  | nil => rfl
  | cons k ks ih => exact ih (projectOne events s k)

theorem cycled_eq (s) : s.cycled = (keyOrder s.newEvents).foldl (projectOne s.newEvents) s :=
  congrArg Prod.snd (projectEntities_exec s.newEvents (keyOrder s.newEvents) s)

theorem entity_getD_bootstrap (s : ProjStore) (k) : ((s.getProjection k).getD (bootstrap k)).entity = k := by
  cases h : s.getProjection k with
  | none => rfl
  | some p => exact of_decide_eq_true (find_some h).2

theorem getProjection_projectOne (s k j) :
    (projectOne events s k).getProjection j =
      if k = j then some (applyEvents ((s.getProjection k).getD (bootstrap k)) (eventsOf k events)) else s.getProjection j := by
  have h := find_set s.projections (applyEvents ((s.getProjection k).getD (bootstrap k)) (eventsOf k events)) j
  have hkey : (applyEvents ((s.getProjection k).getD (bootstrap k)) (eventsOf k events)).entity = k :=
    entity_getD_bootstrap s k
  rw [hkey] at h
  exact h

theorem getProjection_foldl {ks : List EntityKey} (hks : ks.Nodup) (s k) :
    (ks.foldl (projectOne events) s).getProjection k =
      if k ∈ ks then some (applyEvents ((s.getProjection k).getD (bootstrap k)) (eventsOf k events))
      else s.getProjection k := by
  induction ks generalizing s with
  | nil => rfl
  | cons j ks ih =>
    rw [nodup_cons] at hks
    rw [foldl_cons, ih hks.2, getProjection_projectOne]
    by_cases hj : j = k
    · subst hj
      rw [if_neg hks.1, if_pos rfl, if_pos (mem_cons_self ..)]
    · have hmem : k ∈ j :: ks ↔ k ∈ ks := mem_cons.trans (or_iff_right (Ne.symm hj))
      simp only [if_neg hj, hmem]

theorem getProjection_cycled (s : ProjStore) (k) :
    s.cycled.getProjection k = foldOnto (s.getProjection k) k (eventsOf k s.newEvents) := by
  rw [cycled_eq, getProjection_foldl _ (nodup_keyOrder _)]
  cases hes : eventsOf k s.newEvents with
  | nil => rw [if_neg fun h => mem_keyOrder.mp h hes]; rfl
  | cons e es =>
    rw [if_pos (mem_keyOrder.mpr fun h => by rw [hes] at h; cases h)]
    rfl

theorem events_foldl (ks : List EntityKey) (s) : (ks.foldl (projectOne events) s).events = s.events := by
  induction ks generalizing s with
  | nil => rfl
  | cons k ks ih => exact ih _

theorem events_cycled (s : ProjStore) : s.cycled.events = s.events := by
  rw [cycled_eq]
  exact events_foldl ..

theorem cycled_of_caught_up (h : s.newEvents = []) : s.cycled = s := by
  rw [cycled_eq, h]
  rfl

/-! ## The watermark -/

open ProjStore

theorem getProjection_of_mem (h : p ∈ s.projections.list) : s.getProjection p.entity = some p :=
  find_key h (decide_eq_true rfl) fun _ hb => of_decide_eq_true hb

theorem lastEventID_le (h : s.getProjection k = some p) : p.lastEventID ≤ s.maxProjectedEventID := by
  have hmem := (find_some h).1
  unfold maxProjectedEventID
  generalize s.projections.list = l at hmem
  induction l with
  | nil => exact absurd hmem not_mem_nil
  | cons q l ih =>
    rcases mem_cons.mp hmem with rfl | hmem
    · exact Nat.le_max_left ..
    · exact Nat.le_trans (ih hmem) (Nat.le_max_right ..)

theorem maxProjectedEventID_le (h : ∀ k p, s.getProjection k = some p → p.lastEventID ≤ n) :
    s.maxProjectedEventID ≤ n := by
  have hrows : ∀ p ∈ s.projections.list, p.lastEventID ≤ n := fun p hp => h p.entity p (getProjection_of_mem hp)
  unfold maxProjectedEventID
  generalize s.projections.list = l at hrows
  induction l with
  | nil => exact Nat.zero_le n
  | cons q l ih =>
    rw [forall_mem_cons] at hrows
    exact Nat.max_le.mpr ⟨hrows.1, ih hrows.2⟩

theorem watermark_lt_newEvents (h : e ∈ s.newEvents) : s.maxProjectedEventID < e.id :=
  of_decide_eq_true (mem_filter.mp (mem_of_mem_take h)).2

theorem newEvents_sub (h : e ∈ s.newEvents) : e ∈ s.events.list :=
  (mem_filter.mp (mem_of_mem_take h)).1

theorem watermark_cycled {b} (hb : b ∈ s.newEvents) : s.cycled.maxProjectedEventID = maxEventID s.newEvents := by
  apply Nat.le_antisymm
  · refine maxProjectedEventID_le fun k p hp => ?_
    rw [getProjection_cycled] at hp
    cases hes : eventsOf k s.newEvents with
    | nil =>
      rw [hes] at hp
      exact Nat.le_trans (lastEventID_le hp) (Nat.le_trans (Nat.le_of_lt (watermark_lt_newEvents hb)) (le_maxEventID hb))
    | cons e es =>
      rw [hes] at hp
      cases hp
      refine maxEventID_le fun c hc => le_maxEventID ?_
      rw [← hes] at hc
      exact (mem_eventsOf.mp hc).1
  · refine maxEventID_le fun e he => ?_
    have hmem : e ∈ eventsOf e.entity s.newEvents := mem_eventsOf.mpr ⟨he, rfl⟩
    obtain ⟨p, hp, hle⟩ : ∃ p, s.cycled.getProjection e.entity = some p ∧ e.id ≤ p.lastEventID := by
      rw [getProjection_cycled]
      cases hes : eventsOf e.entity s.newEvents with
      | nil => rw [hes] at hmem; exact absurd hmem not_mem_nil
      | cons c cs => exact ⟨_, rfl, le_maxEventID (hes ▸ hmem)⟩
    exact Nat.le_trans hle (lastEventID_le hp)

/-! ## The invariant -/

def Folded (s : ProjStore) : Prop :=
  ∀ k, s.getProjection k = foldOnto none k (eventsOf k (upTo s.maxProjectedEventID s.events.list))

theorem Folded.cycled (h : Folded s) : Folded s.cycled := by
  by_cases hne : s.newEvents = []
  · rw [cycled_of_caught_up hne]
    exact h
  · obtain ⟨b, hb⟩ := exists_mem_of_ne_nil _ hne
    intro k
    have hbatch : upTo (maxEventID s.newEvents) s.events.list = upTo s.maxProjectedEventID s.events.list ++ s.newEvents :=
      upTo_batch s.events.sorted _ _ hne
    rw [getProjection_cycled, watermark_cycled hb, events_cycled, hbatch, eventsOf_append, h k, foldOnto_append]
    intro a ha c hc
    have haw := (mem_upTo.mp (mem_eventsOf.mp ha).1).2
    exact Nat.lt_of_le_of_lt haw (watermark_lt_newEvents (mem_eventsOf.mp hc).1)

theorem Folded.append (h : Folded s) (he : s.maxProjectedEventID < e.id) :
    Folded { s with events := s.events.insert e } := by
  intro k
  have hev : upTo s.maxProjectedEventID (s.events.insert e).list = upTo s.maxProjectedEventID s.events.list := by
    unfold EventTable.insert
    split
    · exact upTo_insertByID he _
    · rfl
  show s.getProjection k = foldOnto none k (eventsOf k (upTo s.maxProjectedEventID (s.events.insert e).list))
  rw [hev]
  exact h k

def ProjOp.writes : ProjOp → Bool
  | .upsertProjection _ => true
  | _ => false

def ProjOk (s : ProjStore) : ProjMove → Prop
  | .append e => s.maxProjectedEventID < e.id
  | .cycle replies =>
    (runProjectionCycle.Along projSem (fun works _ => works = true) replies s ∧ runProjectionCycle.Ends projSem replies s) ∨
      runProjectionCycle.Along projSem (fun works op => op.writes = true → works = false) replies s

theorem projSem_reads {works op} (h : op.writes = true → works = false) (s) : (projSem works op s).2 = s := by
  cases op with
  | upsertProjection p => rw [h rfl]; rfl
  | _ => rfl

theorem Folded.step (h : Folded s) {m} (hm : ProjOk s m) : Folded (projStep s m) := by
  cases m with
  | append e => exact h.append hm
  | cycle replies =>
    rcases hm with ⟨hall, hends⟩ | hnone
    · show Folded (runProjectionCycle.runFor projSem replies s)
      rw [Prog.runFor_eq_exec hall hends]
      exact h.cycled
    · have hsame : runProjectionCycle.runFor projSem replies s = s :=
        hnone.keeps (fun _ _ u hop hu => (projSem_reads hop u).trans hu) rfl
      show Folded (runProjectionCycle.runFor projSem replies s)
      rw [hsame]
      exact h

theorem Folded.init (hs : s.projections.list = []) : Folded s := by
  intro k
  have hmax : s.maxProjectedEventID = 0 := by unfold maxProjectedEventID; rw [hs]; rfl
  have hno : upTo 0 s.events.list = [] := by
    refine filter_eq_nil_iff.mpr fun e he => ?_
    have := s.events.positive e he
    simp only [decide_eq_true_eq]
    omega
  rw [hmax, hno]
  unfold getProjection find
  rw [hs]
  rfl

theorem Folded.replayed (h : Folded s) (hdone : s.newEvents = []) (k) : s.getProjection k = s.replayed k := by
  have hempty : (s.events.list.filter fun e => decide (s.maxProjectedEventID < e.id)) = [] :=
    (take_eq_nil_iff.mp hdone).resolve_left (by decide)
  have hall : upTo s.maxProjectedEventID s.events.list = s.events.list := by
    refine upTo_eq_self fun e he => ?_
    exact Nat.not_lt.mp fun hlt => filter_eq_nil_iff.mp hempty e he (decide_eq_true hlt)
  rw [h k, hall]
  rfl

theorem exists_caught_up (n s) (hn : maxEventID s.events.list - s.maxProjectedEventID ≤ n) :
    ∃ m, (cycled^[m] s).newEvents = [] := by
  induction n generalizing s with
  | zero =>
    refine ⟨0, eq_nil_iff_forall_not_mem.mpr fun e he => ?_⟩
    have h1 := watermark_lt_newEvents he
    have h2 := le_maxEventID (newEvents_sub he)
    simp only [iterate_zero, id] at h1
    simp only [iterate_zero, id] at h2
    omega
  | succ n ih =>
    by_cases hne : s.newEvents = []
    · exact ⟨0, hne⟩
    obtain ⟨b, hb⟩ := exists_mem_of_ne_nil _ hne
    have h1 := watermark_lt_newEvents hb
    have h2 := le_maxEventID hb
    have h3 := le_maxEventID (newEvents_sub hb)
    obtain ⟨m, hm⟩ := ih s.cycled (by rw [watermark_cycled hb, events_cycled]; omega)
    exact ⟨m + 1, hm⟩

theorem Folded.iterate (h : Folded s) (m) : Folded (ProjStore.cycled^[m] s) := by
  induction m generalizing s with
  | zero => exact h
  | succ m ih => exact ih h.cycled

/-- After a run whose cycles write all or nothing, cycles without failures reach a point where
nothing new is listed, and at every such point the projections are the folds of all events. -/
theorem projections_catch_up {s t : ProjStore} {ms : List ProjMove} (hs : s.projections.list = [])
    (h : Trace projStep ProjOk s ms t) :
    (∃ m, (ProjStore.cycled^[m] t).newEvents = []) ∧
      ∀ m, (ProjStore.cycled^[m] t).newEvents = [] →
        ∀ k, (ProjStore.cycled^[m] t).getProjection k = (ProjStore.cycled^[m] t).replayed k := by
  have ht : Folded t := h.inv Folded (fun _ _ hI hok => hI.step hok) (Folded.init hs)
  exact ⟨exists_caught_up _ t (Nat.le_refl _), fun m hm k => (ht.iterate m).replayed hm k⟩

/-! ## Two entities -/

def firstEvent : EntityEvent := ⟨1, ⟨1, "user", "ada"⟩, Finmap.singleton "email" (.str "ada@example.com")⟩

def secondEvent : EntityEvent := ⟨2, ⟨1, "user", "bob"⟩, Finmap.singleton "email" (.str "bob@example.com")⟩

def twoEvents : List ProjMove := [.append firstEvent, .append secondEvent]

theorem projections_catch_up_after_retry :
    let t := run projStep ⟨.empty, .empty⟩ (twoEvents ++ [.cycle [true, true, true, false, true, false]])
    t.projections.list = [] ∧ t.cycled.newEvents = [] ∧
      t.cycled.getProjection firstEvent.entity = t.cycled.replayed firstEvent.entity ∧
      (t.cycled.getProjection firstEvent.entity).isSome = true := by
  have h : Trace projStep ProjOk ⟨.empty, .empty⟩ (twoEvents ++ [.cycle [true, true, true, false, true, false]])
      (run projStep ⟨.empty, .empty⟩ (twoEvents ++ [.cycle [true, true, true, false, true, false]])) := by
    refine Trace.run_cons Nat.zero_lt_one (Trace.run_cons Nat.zero_lt_two (Trace.run_cons (.inr ?_) (Trace.run_nil _)))
    exact ⟨nofun, nofun, nofun, fun _ => rfl, nofun, fun _ => rfl, trivial⟩
  exact ⟨rfl, rfl, (projections_catch_up rfl h).2 1 rfl firstEvent.entity, rfl⟩

/-- The first write fails and the second works. The event that was not written is before the
watermark from then on. -/
theorem projection_lost_after_failed_write :
    let t := run projStep ⟨.empty, .empty⟩ (twoEvents ++ [.cycle [true, true, true, false, true, true]])
    t.newEvents = [] ∧ ∀ m, (cycled^[m] t).newEvents = [] ∧
      (cycled^[m] t).getProjection firstEvent.entity = none ∧
      ((cycled^[m] t).replayed firstEvent.entity).isSome = true := by
  intro t
  have hdone : t.newEvents = [] := rfl
  refine ⟨hdone, fun m => ?_⟩
  have hsame : cycled^[m] t = t := iterate_fixed (cycled_of_caught_up hdone) m
  rw [hsame]
  exact ⟨rfl, rfl, rfl⟩

end Clavex
