import Clavex.SealerSound

/-!
# Which rows the checkpoints cover

Sealing calls that do not overlap leave the checkpoints of an organisation without a gap:
each was made of all the rows between the last id of the one before and its own, as long as
no row commits at or below an id that has been read for sealing. Rows that do are never
sealed. An export rebuilds the roots from the same rows.
-/

namespace Clavex

open List Prog AuditDB

variable {r row : AuditRow} {org : UUID}

/-! ## Sorted lists -/

section
variable {α : Type} {R : α → α → Prop}

theorem filter_append_filter_not {p} (hp : ∀ x y, R x y → p y = true → p x = true) {l : List α}
    (h : l.Pairwise R) : l.filter p ++ l.filter (fun x => !p x) = l := by
  induction l with
  | nil => rfl
  | cons a l ih =>
    rw [pairwise_cons] at h
    by_cases ha : p a = true
    · rw [filter_cons_of_pos ha, filter_cons_of_neg (by simp [ha]), cons_append, ih h.2]
    · have hnone : l.filter p = [] := by
        apply filter_eq_nil_iff.mpr
        intro b hb hpb
        exact ha (hp a b (h.1 b hb) hpb)
      have hall : l.filter (fun x => !p x) = l := by
        have hsplit := ih h.2
        rw [hnone, nil_append] at hsplit
        exact hsplit
      rw [filter_cons_of_neg ha, filter_cons_of_pos (by simp [ha]), hnone, hall, nil_append]

theorem take_eq_filter {p} {l : List α} {n : Nat} (hin : ∀ x ∈ l.take n, p x = true)
    (hout : ∀ x ∈ l.drop n, p x = false) : l.take n = l.filter p ∧ l.drop n = l.filter fun x => !p x := by
  have htake : (l.take n).filter p = l.take n := filter_eq_self.mpr hin
  have htake' : (l.take n).filter (fun x => !p x) = [] :=
    filter_eq_nil_iff.mpr fun x hx => by simp [hin x hx]
  have hdrop : (l.drop n).filter p = [] := filter_eq_nil_iff.mpr fun x hx => by simp [hout x hx]
  have hdrop' : (l.drop n).filter (fun x => !p x) = l.drop n := filter_eq_self.mpr fun x hx => by simp [hout x hx]
  constructor
  · rw [← take_append_drop n l, filter_append, take_append_drop, htake, hdrop, append_nil]
  · rw [← take_append_drop n l, filter_append, take_append_drop, htake', hdrop', nil_append]

end

/-! ## Rows between two ids -/

def AuditDB.rowsBetween (db : AuditDB) (org : UUID) (afterID lastID : Nat) : List AuditRow :=
  (db.rowsAfter org afterID).filter fun r => decide (r.id ≤ lastID)

section
variable {db : AuditDB}

theorem mem_rowsBetween {a b} : r ∈ db.rowsBetween org a b ↔ r ∈ db.rows ∧ r.orgID = org ∧ a < r.id ∧ r.id ≤ b := by
  unfold rowsBetween
  rw [mem_filter, mem_rowsAfter, decide_eq_true_eq]
  tauto

theorem rowsAfter_take {a n} (hl : ((db.rowsAfter org a).take n).getLast? = some r) :
    (db.rowsAfter org a).take n = db.rowsBetween org a r.id ∧
      (db.rowsAfter org a).drop n = db.rowsAfter org r.id := by
  have hsorted := rowsAfter_sorted db org a
  rw [← take_append_drop n (db.rowsAfter org a), pairwise_append] at hsorted
  obtain ⟨htake, -, hcross⟩ := hsorted
  have hmem : r ∈ (db.rowsAfter org a).take n := mem_of_getLast? hl
  have hin : ∀ x ∈ (db.rowsAfter org a).take n, decide (x.id ≤ r.id) = true := by
    intro x hx
    obtain ⟨init, hinit⟩ : ∃ init, (db.rowsAfter org a).take n = init ++ [r] :=
      ⟨_, (dropLast_append_getLast? r hl).symm⟩
    rw [hinit] at hx htake
    apply decide_eq_true
    rcases mem_append.mp hx with hx | hx
    · exact Nat.le_of_lt ((pairwise_append.mp htake).2.2 x hx r (mem_singleton_self _))
    · rw [mem_singleton.mp hx]
  have hout : ∀ x ∈ (db.rowsAfter org a).drop n, decide (x.id ≤ r.id) = false := by
    intro x hx
    exact decide_eq_false (Nat.not_le_of_lt (hcross r hmem x hx))
  obtain ⟨h1, h2⟩ := take_eq_filter hin hout
  refine ⟨h1, h2.trans ?_⟩
  unfold rowsAfter
  rw [filter_filter]
  apply filter_congr
  intro x _
  have hr : a < r.id := (mem_rowsAfter.mp (mem_of_mem_take hmem)).2.2
  by_cases hx : r.id < x.id
  · have hax : a < x.id := Nat.lt_trans hr hx
    simp [hx, hax]
  · simp [hx]

theorem commit_rows (db : AuditDB) (row : AuditRow) :
    (db.commit row).rows = db.rows ∨ ∃ u v, db.rows = u ++ v ∧ (db.commit row).rows = u ++ row :: v := by
  unfold commit
  split
  · rename_i hnew
    have hall := filter_append_filter_not (R := fun r r' : AuditRow => r.id < r'.id)
      (p := fun r => decide (r.id < row.id))
      (fun x y hxy hy => decide_eq_true (Nat.lt_trans hxy (of_decide_eq_true hy))) db.sorted
    have hcongr : db.rows.filter (fun r => !decide (r.id < row.id)) =
        db.rows.filter (fun r => decide (row.id < r.id)) := by
      apply filter_congr
      intro r hr
      have hne := hnew.2 r hr
      rw [← decide_not]
      apply decide_eq_decide.mpr
      omega
    exact .inr ⟨_, _, (hcongr ▸ hall).symm, rfl⟩
  · exact .inl rfl

theorem rowsBetween_commit {a b} (h : row.orgID = org → b < row.id) :
    (db.commit row).rowsBetween org a b = db.rowsBetween org a b := by
  unfold rowsBetween rowsAfter
  rcases commit_rows db row with heq | ⟨u, v, hold, hnew⟩
  · rw [heq]
  · rw [hold, hnew, filter_filter, filter_filter, filter_append, filter_cons_of_neg (by
      intro hr
      simp only [Bool.and_eq_true, beq_iff_eq, decide_eq_true_eq] at hr
      exact absurd (h hr.2.1) (Nat.not_lt_of_le hr.1)), ← filter_append]

end

/-! ## Checkpoints without a gap -/

section
variable (A : AuditLib) (db : AuditDB) (org : UUID)

structure SealsBetween (afterID : Nat) (c : SealedBatch) : Prop where
  seals : Seals A org c.cp.prevRoot c.batch c.cp
  after : BatchAfter afterID c.batch
  batch : c.batch = leafBatch A (db.rowsBetween org afterID c.cp.lastLogID)

inductive Seamless : Nat → List SealedBatch → Nat → Prop
  | nil (m : Nat) : Seamless m [] m
  | cons {afterID m c cs} :
      SealsBetween A db org afterID c → Seamless c.cp.lastLogID cs m → Seamless afterID (c :: cs) m

end

section
variable {A : AuditLib} {db : AuditDB} {a m : Nat} {c : SealedBatch} {cs : List SealedBatch}

section
variable (h : SealsBetween A db org a c)
include h

theorem SealsBetween.range : a < c.cp.firstLogID ∧ c.cp.firstLogID ≤ c.cp.lastLogID :=
  ⟨(h.seals.range h.after).1, (h.seals.range h.after).2.1⟩

theorem SealsBetween.mem_batch (hr : r ∈ db.rows) (ho : r.orgID = org) :
    (r.id, leafJSON A r) ∈ c.batch ↔ a < r.id ∧ r.id ≤ c.cp.lastLogID := by
  rw [h.batch]
  unfold leafBatch
  rw [mem_map]
  constructor
  · intro hx
    obtain ⟨r', hr', heq⟩ := hx
    rw [Prod.mk.injEq] at heq
    rw [← heq.1]
    exact (mem_rowsBetween.mp hr').2.2
  · intro hb
    exact ⟨r, mem_rowsBetween.mpr ⟨hr, ho, hb.1, hb.2⟩, rfl⟩

theorem SealsBetween.covers (hr : r ∈ db.rows) (ho : r.orgID = org) :
    c.cp.Covers r.id ↔ a < r.id ∧ r.id ≤ c.cp.lastLogID := by
  obtain ⟨hfirst, -, hall⟩ := h.seals.range h.after
  constructor
  · intro hc
    exact ⟨Nat.lt_of_lt_of_le hfirst hc.1, hc.2⟩
  · intro hb
    have hmem := (h.mem_batch hr ho).mpr hb
    exact hall r.id (mem_map.mpr ⟨_, hmem, rfl⟩)

theorem SealsBetween.commit (hrow : row.orgID = org → c.cp.lastLogID < row.id) :
    SealsBetween A (db.commit row) org a c :=
  ⟨h.seals, h.after, h.batch.trans (by rw [rowsBetween_commit hrow])⟩

theorem SealsBetween.of_rows {db'} (hrows : db'.rows = db.rows) : SealsBetween A db' org a c := by
  refine ⟨h.seals, h.after, h.batch.trans ?_⟩
  unfold rowsBetween rowsAfter
  rw [hrows]

end

section
variable (h : Seamless A db org a cs m)
include h

theorem Seamless.le : a ≤ m := by
  induction h with
  | nil m => exact Nat.le_refl _
  | cons hc _ ih =>
    have hr := hc.range
    omega

theorem Seamless.mono {db'}
    (hmono : ∀ {a c}, c.cp.lastLogID ≤ m → SealsBetween A db org a c → SealsBetween A db' org a c) :
    Seamless A db' org a cs m := by
  induction h with
  | nil m => exact .nil m
  | cons hc hcs ih => exact .cons (hmono hcs.le hc) (ih hmono)

theorem Seamless.concat (hc : SealsBetween A db org m c) : Seamless A db org a (cs ++ [c]) c.cp.lastLogID := by
  induction h with
  | nil m => exact .cons hc (.nil _)
  | cons hd _ ih => exact .cons hd (ih hc)

theorem Seamless.count {P} [DecidablePred P]
    (hP : ∀ {a c}, SealsBetween A db org a c → (P c ↔ a < r.id ∧ r.id ≤ c.cp.lastLogID)) :
    cs.countP (fun c => decide (P c)) = if a < r.id ∧ r.id ≤ m then 1 else 0 := by
  induction h with
  | nil m =>
    rw [countP_nil, if_neg]
    omega
  | @cons a m c cs hc hcs ih =>
    have hr := hc.range
    have hle := hcs.le
    by_cases hin : P c
    · have hb := (hP hc).mp hin
      rw [countP_cons_of_pos (p := fun c => decide (P c)) (decide_eq_true hin), ih, if_neg (by omega),
        if_pos (by omega)]
    · have hb := mt (hP hc).mpr hin
      rw [countP_cons_of_neg (by simpa using hin), ih]
      by_cases hlt : c.cp.lastLogID < r.id ∧ r.id ≤ m
      · rw [if_pos hlt, if_pos (by omega)]
      · rw [if_neg hlt, if_neg (by omega)]

theorem Seamless.mem (hc : c ∈ cs) : ∃ a', a ≤ a' ∧ SealsBetween A db org a' c := by
  induction h with
  | nil m => cases hc
  | cons hd _ ih =>
    rcases mem_cons.mp hc with rfl | hc
    · exact ⟨_, Nat.le_refl _, hd⟩
    · obtain ⟨a', ha, hb⟩ := ih hc
      have hr := hd.range
      exact ⟨a', by omega, hb⟩

end

end

/-! ## Calls one after the other -/

def AuditDB.mark (db : AuditDB) (org : UUID) : Nat × String := sealMark (db.latestCheckpoint org)

/-- No row commits at or below an id that is sealed, or that the call under way has read and
is about to seal. -/
def CommitsAbove (p : SealPool) : SealMove → Prop
  | .other row =>
    (p.store.mark row.orgID).1 < row.id ∧
      match p.next 0 with
      | some (q, .insertMerkleCheckpoint cp _ _) => q.org = row.orgID → cp.lastLogID < row.id
      | _ => True
  | _ => True

instance (p : SealPool) (m : SealMove) : Decidable (CommitsAbove p m) :=
  match m with
  | .start .. | .advance .. => .isTrue trivial
  | .other row =>
    match h : p.next 0 with
    | none => decidable_of_iff ((p.store.mark row.orgID).1 < row.id) (by simp [CommitsAbove, h])
    | some (q, .latestCheckpoint _) | some (q, .unsealedAuditRows ..) =>
      decidable_of_iff ((p.store.mark row.orgID).1 < row.id) (by simp [CommitsAbove, h])
    | some (q, .insertMerkleCheckpoint cp _ _) =>
      decidable_of_iff ((p.store.mark row.orgID).1 < row.id ∧ (q.org = row.orgID → cp.lastLogID < row.id))
        (by simp [CommitsAbove, h])

section
variable {A : AuditLib} {o : SealOptions}

def CallKnows (A : AuditLib) (db : AuditDB) : Option (SealReq × SealPhase) → Prop
  | some (q, .reading afterID prevRoot) => db.mark q.org = (afterID, prevRoot)
  | some (q, .inserting afterID cp batch) =>
    db.mark q.org = (afterID, cp.prevRoot) ∧ SealsBetween A db q.org afterID ⟨cp, batch⟩
  | _ => True

structure SealedInOrder (A : AuditLib) (db : AuditDB) (call : Option (SealReq × SealPhase)) : Prop where
  seamless : ∀ org, Seamless A db org 0 (db.checkpointsOf org) (db.mark org).1
  knows : CallKnows A db call

theorem mark_commit (db : AuditDB) (row) (org) : (db.commit row).mark org = db.mark org := by
  unfold mark latestCheckpoint
  rw [commit_checkpointsOf]

variable {db : AuditDB} {c : SealedBatch} {q : SealReq} {a : Nat} {prevRoot : String} {cp : AuditMerkleCheckpoint}
  {b : LeafBatch} {p : SealPool}

theorem mark_insert :
    (db.insertCheckpoint c).mark org =
      if c.cp.orgID = org then (c.cp.lastLogID, c.cp.merkleRoot) else db.mark org := by
  unfold mark latestCheckpoint
  rw [checkpointsOf_insert]
  split
  · simp [sealMark]
  · rfl

theorem seamless_insert (h : ∀ org, Seamless A db org 0 (db.checkpointsOf org) (db.mark org).1)
    (hmark : db.mark q.org = (a, c.cp.prevRoot)) (hc : SealsBetween A db q.org a c) (org) :
    Seamless A (db.insertCheckpoint c) org 0 ((db.insertCheckpoint c).checkpointsOf org)
      ((db.insertCheckpoint c).mark org).1 := by
  have hrows : (db.insertCheckpoint c).rows = db.rows := rfl
  rw [checkpointsOf_insert, mark_insert]
  by_cases horg : c.cp.orgID = org
  · have hq : q.org = org := hc.seals.org.symm.trans horg
    subst hq
    rw [if_pos horg, if_pos horg]
    have hcs := h q.org
    rw [hmark] at hcs
    exact (hcs.concat hc).mono fun _ hd => hd.of_rows hrows
  · rw [if_neg horg, if_neg horg]
    exact (h org).mono fun _ hd => hd.of_rows hrows

theorem sealsBetween_of_rows {out afterID}
    (h : afterRows A o q afterID prevRoot (sealSem A out (.unsealedAuditRows q.org afterID o.batchSize) db).1 =
      .inserting a cp b) : a = afterID ∧ cp.prevRoot = prevRoot ∧ SealsBetween A db q.org a ⟨cp, b⟩ := by
  obtain ⟨-, ha, hb, hseals, hafter, -⟩ := pending_of_rows h
  refine ⟨ha, hseals.prevRoot, hseals.prevRoot ▸ hseals, hafter, ?_⟩
  subst ha
  have hb' : b = leafBatch A ((db.rowsAfter q.org a).take o.batchSize) := hb
  have hlast := hseals.lastLogID
  cases hl : ((db.rowsAfter q.org a).take o.batchSize).getLast? with
  | none =>
    rw [getLast?_eq_none_iff] at hl
    exact absurd (by rw [hb', hl]; rfl) hafter.nonempty
  | some r =>
    have hid : cp.lastLogID = r.id := by
      rw [hlast, hb', leafBatch, getLast?_map, hl]
      rfl
    rw [hid, hb', (rowsAfter_take hl).1]

theorem next_of_inserting
    (h : TracksOne (sealProtocol A o) (fun _ => SealEnded) (p.calls 0) (some (q, .inserting a cp b))) :
    p.next 0 = some (q, .insertMerkleCheckpoint cp a b) := by
  unfold Pool.next
  cases hcall : p.calls 0 with
  | none =>
    rw [hcall] at h
    cases h
  | some x =>
    obtain ⟨q', pr⟩ := x
    rw [hcall] at h
    obtain ⟨φ, hφ, hf⟩ := h
    cases hφ
    cases pr with
    | ret n | fail e => exact absurd rfl (hf a cp b)
    | ask op k =>
      obtain ⟨f, hs, -⟩ := hf
      cases hs
      rfl

theorem SealedInOrder.step {φ op f} (out) (h : SealedInOrder A db (some (q, φ)))
    (hs : SealStep A o q φ op f) : SealedInOrder A (sealSem A out op db).2 (some (q, f (sealSem A out op db).1)) := by
  cases hs with
  | latest =>
    refine ⟨h.seamless, ?_⟩
    simp only [sealSem]
    split
    · exact rfl
    · exact trivial
  | rows a prevRoot =>
    refine ⟨h.seamless, ?_⟩
    have hmark : db.mark q.org = (a, prevRoot) := h.knows
    cases hφ : afterRows A o q a prevRoot (sealSem A out (.unsealedAuditRows q.org a o.batchSize) db).1 with
    | start | done => exact trivial
    | reading a' p' =>
      unfold afterRows at hφ
      split at hφ
      · cases hφ
      · split at hφ
        · split at hφ <;> cases hφ
        · cases hφ
    | inserting a' cp b =>
      obtain ⟨rfl, hprev, hbetween⟩ := sealsBetween_of_rows hφ
      refine ⟨?_, hbetween⟩
      rw [hprev]
      exact hmark
  | insert a cp b =>
    obtain ⟨hmark, hbetween⟩ := h.knows
    have hins := seamless_insert h.seamless hmark hbetween
    cases out with
    | fails => exact ⟨h.seamless, trivial⟩
    | lost => exact ⟨hins, trivial⟩
    | ok =>
      refine ⟨hins, ?_⟩
      show (db.insertCheckpoint ⟨cp, b⟩).mark q.org = (cp.lastLogID, cp.merkleRoot)
      rw [mark_insert, if_pos hbetween.seals.org]

theorem SealedInOrder.commit {call} (hc : CommitsAbove p (.other row))
    (ht : TracksOne (sealProtocol A o) (fun _ => SealEnded) (p.calls 0) call) (h : SealedInOrder A p.store call) :
    SealedInOrder A (p.store.commit row) call := by
  obtain ⟨habove, hpending⟩ := hc
  refine ⟨?_, ?_⟩
  · intro org
    rw [commit_checkpointsOf, mark_commit]
    refine (h.seamless org).mono fun hle hd => hd.commit fun ho => ?_
    subst ho
    exact Nat.lt_of_le_of_lt hle habove
  · match call with
    | none | some (q, .start) | some (q, .done) => exact trivial
    | some (q, .reading a prevRoot) => exact (mark_commit p.store row q.org).trans h.knows
    | some (q, .inserting a cp b) =>
      obtain ⟨hmark, hbetween⟩ := h.knows
      rw [next_of_inserting ht] at hpending
      exact ⟨(mark_commit p.store row q.org).trans hmark, hbetween.commit fun ho => hpending ho.symm⟩

theorem sealedInOrder_kept :
    KeptOne (sealSystem A o) (sealProtocol A o) (fun _ => .start) (fun _ => SealEnded) CommitsAbove
      (SealedInOrder A) where
  start := fun _ h => ⟨h.seamless, trivial⟩
  step := fun out h hs => h.step out hs
  finish := fun h _ => ⟨h.seamless, trivial⟩
  other := fun hc ht h => h.commit hc ht

theorem sealedInOrder_run (hdb : db.checkpoints = []) {ms t}
    (h : Trace (sealSystem A o).step CommitsAbove (Pool.init db) ms t) (hone : ∀ i q, .start i q ∈ ms → i = 0) :
    ∃ call, TracksOne (sealProtocol A o) (fun _ => SealEnded) (t.calls 0) call ∧ SealedInOrder A t.store call := by
  refine System.inv_one (sealMain_follows A o) sealedInOrder_kept h hone ⟨fun org => ?_, trivial⟩
  have hnone : db.checkpointsOf org = [] := by
    unfold checkpointsOf
    rw [hdb]
    rfl
  unfold mark latestCheckpoint
  rw [hnone]
  exact .nil 0

/-! ## Sealing to the end -/

theorem rowsAfter_insert
    (hcp : sealBatch A o org prevRoot (unsealedAuditRows A db org a o.batchSize) = some cp)
    (hne : unsealedAuditRows A db org a o.batchSize ≠ []) :
    db.rowsAfter org cp.lastLogID = (db.rowsAfter org a).drop o.batchSize := by
  have hb : unsealedAuditRows A db org a o.batchSize = leafBatch A ((db.rowsAfter org a).take o.batchSize) := rfl
  cases hl : ((db.rowsAfter org a).take o.batchSize).getLast? with
  | none =>
    rw [getLast?_eq_none_iff] at hl
    exact absurd (by rw [hb, hl]; rfl) hne
  | some r =>
    have hid : cp.lastLogID = r.id := by
      rw [(sealBatch_seals hcp).lastLogID, hb, leafBatch, getLast?_map, hl]
      rfl
    rw [hid, (rowsAfter_take hl).2]

section
variable (hsign : ∀ d, (A.signDigest d).isSome)
include hsign

theorem sealBatch_isSome (org prevRoot batch) : ∃ cp, sealBatch A o org prevRoot batch = some cp := by
  simp only [sealBatch, signProof]
  obtain ⟨sig, hsig⟩ := Option.isSome_iff_exists.mp
    (hsign (A.sum256 (utf8 (prevRoot ++ encodeToHex (rebuildRoot A.toMerkleLib (batch.map (·.2)))))))
  rw [hsig]
  exact ⟨_, rfl⟩

variable {fuel : Nat} {db : AuditDB}

theorem sealLoop_exec (org) {a prevRoot} (created) (hmark : db.mark org = (a, prevRoot))
    (hfuel : (db.rowsAfter org a).length < fuel) :
    ∃ n u, (sealLoop A o org fuel a prevRoot created).exec (sealSem A .ok) db = (.ok n, u) ∧ u.rows = db.rows ∧
      (u.rowsAfter org (u.mark org).1).length < o.batchSize := by
  induction fuel generalizing db a prevRoot created with
  | zero => exact absurd hfuel (Nat.not_lt_zero _)
  | succ fuel ih =>
    have hread : (sealSem A .ok (.unsealedAuditRows org a o.batchSize) db).1 =
        some (unsealedAuditRows A db org a o.batchSize) := rfl
    have hlen : (unsealedAuditRows A db org a o.batchSize).length = min o.batchSize (db.rowsAfter org a).length := by
      unfold unsealedAuditRows
      rw [length_map, length_take]
    simp only [sealLoop, call_bind, exec_ask]
    rw [hread]
    dsimp only
    by_cases hshort : (unsealedAuditRows A db org a o.batchSize).length < o.batchSize
    · rw [if_pos hshort]
      refine ⟨created, db, rfl, rfl, ?_⟩
      rw [hmark]
      show (db.rowsAfter org a).length < o.batchSize
      omega
    · rw [if_neg hshort]
      obtain ⟨cp, hcp⟩ := sealBatch_isSome hsign org prevRoot (unsealedAuditRows A db org a o.batchSize)
      rw [hcp]
      have hne : unsealedAuditRows A db org a o.batchSize ≠ [] := by
        intro hnil
        rw [hnil] at hshort
        exact hshort o.batchSize_pos
      have hrest := rowsAfter_insert hcp hne
      have hpos := o.batchSize_pos
      let db' := db.insertCheckpoint ⟨cp, unsealedAuditRows A db org a o.batchSize⟩
      have hmark' : db'.mark org = (cp.lastLogID, cp.merkleRoot) := by
        rw [mark_insert, if_pos (sealBatch_seals hcp).org]
      have hfuel' : (db'.rowsAfter org cp.lastLogID).length < fuel := by
        show (db.rowsAfter org cp.lastLogID).length < fuel
        rw [hrest, length_drop]
        omega
      exact ih (created + 1) hmark' hfuel'

theorem sealOrg_exec (org) (hfuel : db.rows.length < fuel) :
    ∃ n u, (sealOrg A o fuel org).exec (sealSem A .ok) db = (.ok n, u) ∧ u.rows = db.rows ∧
      (u.rowsAfter org (u.mark org).1).length < o.batchSize := by
  refine sealLoop_exec hsign org 0 rfl (Nat.lt_of_le_of_lt ?_ hfuel)
  exact length_filter_le ..

theorem sealPartial_exec (org) (hshort : (db.rowsAfter org (db.mark org).1).length < o.batchSize) :
    ∃ n u, (sealPartial A o org).exec (sealSem A .ok) db = (.ok n, u) ∧ u.rows = db.rows ∧
      u.rowsAfter org (u.mark org).1 = [] := by
  have hread : ∀ a, (sealSem A .ok (.unsealedAuditRows org a o.batchSize) db).1 =
      some (unsealedAuditRows A db org a o.batchSize) := fun _ => rfl
  have hlatest : (sealSem A .ok (.latestCheckpoint org) db).1 = some (db.latestCheckpoint org) := rfl
  have hstay : (sealSem A .ok (.latestCheckpoint org) db).2 = db := rfl
  have hall : unsealedAuditRows A db org (db.mark org).1 o.batchSize = leafBatch A (db.rowsAfter org (db.mark org).1) := by
    unfold unsealedAuditRows leafBatch
    rw [take_of_length_le (Nat.le_of_lt hshort)]
  simp only [sealPartial, call_bind, exec_ask]
  rw [hlatest, hstay]
  dsimp only [exec_ask]
  rw [hread]
  dsimp only
  by_cases hnil : unsealedAuditRows A db org (sealMark (db.latestCheckpoint org)).1 o.batchSize = []
  · rw [if_pos hnil]
    refine ⟨0, db, rfl, rfl, ?_⟩
    have hnil' : unsealedAuditRows A db org (db.mark org).1 o.batchSize = [] := hnil
    rw [hall] at hnil'
    exact map_eq_nil_iff.mp hnil'
  · rw [if_neg hnil]
    obtain ⟨cp, hcp⟩ := sealBatch_isSome hsign org (sealMark (db.latestCheckpoint org)).2
      (unsealedAuditRows A db org (sealMark (db.latestCheckpoint org)).1 o.batchSize)
    rw [hcp]
    refine ⟨1, _, rfl, rfl, ?_⟩
    have hrest := rowsAfter_insert hcp hnil
    have hmark : (db.insertCheckpoint ⟨cp, unsealedAuditRows A db org (sealMark (db.latestCheckpoint org)).1
        o.batchSize⟩).mark org = (cp.lastLogID, cp.merkleRoot) := by
      rw [mark_insert, if_pos (sealBatch_seals hcp).org]
    show (insertCheckpoint db _).rowsAfter org ((insertCheckpoint db _).mark org).1 = []
    rw [hmark]
    exact hrest.trans (drop_eq_nil_of_le (Nat.le_of_lt hshort))

def sealAll (A : AuditLib) (o : SealOptions) (fuel : Nat) (org : UUID) (db : AuditDB) : AuditDB :=
  ((sealPartial A o org).exec (sealSem A .ok) ((sealOrg A o fuel org).exec (sealSem A .ok) db).2).2

theorem sealAll_quiescent (org) (hfuel : db.rows.length < fuel) :
    (sealAll A o fuel org db).rows = db.rows ∧
      (sealAll A o fuel org db).rowsAfter org ((sealAll A o fuel org db).mark org).1 = [] := by
  obtain ⟨n, u, hu, hrows, hshort⟩ := sealOrg_exec hsign org hfuel
  obtain ⟨n', u', hu', hrows', hnil⟩ := sealPartial_exec hsign org hshort
  have hall : sealAll A o fuel org db = u' := by
    unfold sealAll
    rw [hu]
    rw [hu']
  rw [hall]
  exact ⟨hrows'.trans hrows, hnil⟩

end

theorem SealedInOrder.sealAll (h : SealedInOrder A db none) (fuel org) :
    SealedInOrder A (sealAll A o fuel org db) none := by
  have hI := sealedInOrder_kept (A := A) (o := o)
  have h1 := hI.exec (sealMain_follows A o (.sealOrg org fuel)) (hI.start _ h) .ok
  exact hI.exec (sealMain_follows A o (.sealPartial org)) (hI.start _ h1) .ok

/-- If calls do not overlap and no row commits at or below an id that has been read for
sealing, then sealing to the end puts every committed row into exactly one checkpoint. -/
theorem sealed_exactly_once (hsign : ∀ d, (A.signDigest d).isSome) (db : AuditDB) (hdb : db.checkpoints = [])
    {ms : List SealMove} {t : SealPool} (h : Trace (sealSystem A o).step CommitsAbove (Pool.init db) ms t)
    (hone : ∀ i q, .start i q ∈ ms → i = 0) (hidle : t.calls 0 = none) (org : UUID) {fuel : Nat}
    (hfuel : t.store.rows.length < fuel) :
    (sealAll A o fuel org t.store).rows = t.store.rows ∧
      ∀ r ∈ t.store.rows, r.orgID = org →
        ((sealAll A o fuel org t.store).checkpointsOf org).countP (fun c => decide (c.cp.Covers r.id)) = 1 ∧
        ((sealAll A o fuel org t.store).checkpointsOf org).countP
          (fun c => decide ((r.id, leafJSON A r) ∈ c.batch)) = 1 := by
  obtain ⟨call, ht, hinv⟩ := sealedInOrder_run hdb h hone
  rw [hidle] at ht
  obtain rfl : call = none := ht
  obtain ⟨hrows, hnil⟩ := sealAll_quiescent hsign org hfuel
  have hseamless := (hinv.sealAll (o := o) fuel org).seamless org
  refine ⟨hrows, ?_⟩
  intro r hr ho
  have hr' : r ∈ (sealAll A o fuel org t.store).rows := hrows ▸ hr
  -- nothing is left after the last sealed id
  have hle : r.id ≤ ((sealAll A o fuel org t.store).mark org).1 := by
    by_contra hlt
    have hmem := mem_rowsAfter.mpr ⟨hr', ho, Nat.lt_of_not_le hlt⟩
    rw [hnil] at hmem
    cases hmem
  have hin : 0 < r.id ∧ r.id ≤ ((sealAll A o fuel org t.store).mark org).1 := ⟨t.store.positive r hr, hle⟩
  constructor
  · rw [hseamless.count fun hc => hc.covers hr' ho, if_pos hin]
  · rw [hseamless.count fun hc => hc.mem_batch hr' ho, if_pos hin]

def rowsInOrder : List SealMove :=
  [.other (demoRow 1), .other (demoRow 2), .other (demoRow 3), .start 0 (.sealOrg 7 5)] ++
    List.replicate 5 (.advance 0 .ok) ++ [.other (demoRow 5)]

def rowsInOrderPool : SealPool := run (sealSystem demoAudit demoSealer).step (Pool.init emptyLog) rowsInOrder

theorem rowsInOrder_run : Trace (sealSystem demoAudit demoSealer).step CommitsAbove (Pool.init emptyLog) rowsInOrder
    rowsInOrderPool := Trace.of_checkRun (by decide +kernel)

theorem rowsInOrder_one (i q) (hm : (.start i q : SealMove) ∈ rowsInOrder) : i = 0 := by
  simp [rowsInOrder] at hm
  exact hm.1

theorem sealed_exactly_once_in_order :
    (sealAll demoAudit demoSealer 9 7 rowsInOrderPool.store).rows = rowsInOrderPool.store.rows ∧
      ∀ r ∈ rowsInOrderPool.store.rows, r.orgID = 7 →
        ((sealAll demoAudit demoSealer 9 7 rowsInOrderPool.store).checkpointsOf 7).countP
          (fun c => decide (c.cp.Covers r.id)) = 1 ∧
        ((sealAll demoAudit demoSealer 9 7 rowsInOrderPool.store).checkpointsOf 7).countP
          (fun c => decide ((r.id, leafJSON demoAudit r) ∈ c.batch)) = 1 := by
  have hidle : (rowsInOrderPool.calls 0).isNone = true := by decide +kernel
  exact sealed_exactly_once (fun _ => rfl) emptyLog rfl rowsInOrder_run rowsInOrder_one
    (Option.isNone_iff_eq_none.mp hidle) 7 (by decide +kernel)

def rowsOutOfOrder : List SealMove :=
  [.other (demoRow 2), .start 0 (.sealPartial 7)] ++ List.replicate 4 (.advance 0 .ok) ++ [.other (demoRow 1)]

def rowsOutOfOrderPool : SealPool := run (sealSystem demoAudit demoSealer).step (Pool.init emptyLog) rowsOutOfOrder

theorem late_row_never_sealed :
    rowsOutOfOrderPool.store.rows.map (fun r => (r.id, r.orgID)) = [(1, 7), (2, 7)] ∧
      (sealAll demoAudit demoSealer 9 7 rowsOutOfOrderPool.store).rowsAfter 7
        ((sealAll demoAudit demoSealer 9 7 rowsOutOfOrderPool.store).mark 7).1 = [] ∧
      ((sealAll demoAudit demoSealer 9 7 rowsOutOfOrderPool.store).checkpointsOf 7).countP
        (fun c => decide (c.cp.Covers 1)) = 0 := by
  refine ⟨by decide +kernel, ?_, by decide +kernel⟩
  exact (sealAll_quiescent (fun _ => rfl) 7 (by decide +kernel)).2

/-! ## The export -/

theorem exportLoop_eq (db org) {fuel lastID} (emitted) (hfuel : (db.rowsAfter org lastID).length < fuel) :
    exportLoop A db org fuel lastID emitted = some (emitted ++ (db.rowsAfter org lastID).map (signedExportRow A)) := by
  induction fuel generalizing lastID emitted with
  | zero => exact absurd hfuel (Nat.not_lt_zero _)
  | succ fuel ih =>
    simp only [exportLoop, length_map, length_take]
    by_cases hshort : min exportPageSize (db.rowsAfter org lastID).length < exportPageSize
    · have hle : (db.rowsAfter org lastID).length ≤ exportPageSize := by omega
      rw [if_pos hshort, take_of_length_le hle]
    · rw [if_neg hshort]
      have hlen : exportPageSize ≤ (db.rowsAfter org lastID).length := by omega
      have hsize : 0 < exportPageSize := by decide
      cases hl : ((db.rowsAfter org lastID).take exportPageSize).getLast? with
      | none =>
        rw [getLast?_eq_none_iff, take_eq_nil_iff] at hl
        rcases hl with hl | hl
        · exact absurd hl (Nat.ne_of_gt hsize)
        · rw [hl] at hlen
          exact absurd hlen (Nat.not_le_of_lt hsize)
      | some r =>
        have hlast : ((((db.rowsAfter org lastID).take exportPageSize).map (signedExportRow A)).getLast?.map
            (·.event.id)).getD lastID = r.id := by
          rw [getLast?_map, hl]
          rfl
        have hdrop := (rowsAfter_take hl).2
        rw [hlast, ih _ (by rw [← hdrop, length_drop]; omega), ← hdrop, append_assoc, ← map_append,
          take_append_drop]

theorem rowsAfter_zero (db : AuditDB) (org) : db.rowsAfter org 0 = db.rows.filter fun r => r.orgID == org := by
  apply filter_congr
  intro r hr
  rw [decide_eq_true (db.positive r hr), Bool.and_true]

theorem SealsBetween.filter_covers
    (h : SealsBetween A db org a c) : (db.rowsAfter org 0).filter (fun r => decide (c.cp.Covers r.id)) =
      db.rowsBetween org a c.cp.lastLogID := by
  rw [rowsAfter_zero]
  unfold rowsBetween rowsAfter
  rw [filter_filter, filter_filter]
  apply filter_congr
  intro r hr
  by_cases ho : r.orgID = org
  · have hcovers : decide (c.cp.Covers r.id) = (decide (a < r.id) && decide (r.id ≤ c.cp.lastLogID)) := by
      rw [← Bool.decide_and]
      exact decide_eq_decide.mpr (h.covers hr ho)
    rw [hcovers, beq_iff_eq.mpr ho, Bool.and_true, Bool.true_and, Bool.and_comm]
  · have hne : (r.orgID == org) = false := beq_eq_false_iff_ne.mpr ho
    rw [hne, Bool.and_false, Bool.false_and, Bool.and_false]

/-- An export has every row of the organisation once and in order, with the bytes that were
hashed for it, and the rows of each checkpoint's range rebuild its root. -/
theorem export_rebuilds_roots (db : AuditDB) (hdb : db.checkpoints = []) {ms : List SealMove} {t : SealPool}
    (h : Trace (sealSystem A o).step CommitsAbove (Pool.init db) ms t) (hone : ∀ i q, .start i q ∈ ms → i = 0)
    (org : UUID) {fuel : Nat} (hfuel : t.store.rows.length < fuel) :
    ∃ out, exportAllAscSigned A t.store org fuel = some out ∧
      out.map (·.event) = (t.store.rows.filter fun r => r.orgID == org).map (·.event) ∧
      (out.map (·.event.id)).Pairwise (· < ·) ∧
      ∀ c ∈ t.store.checkpointsOf org,
        (out.filter fun x => decide (c.cp.Covers x.event.id)).map (fun x => (x.event.id, x.leafJSON)) = c.batch ∧
        encodeToHex (rebuildRoot A.toMerkleLib
          ((out.filter fun x => decide (c.cp.Covers x.event.id)).map (·.leafJSON))) = c.cp.merkleRoot := by
  obtain ⟨call, -, hinv⟩ := sealedInOrder_run hdb h hone
  have hlen : (t.store.rowsAfter org 0).length < fuel := Nat.lt_of_le_of_lt (length_filter_le ..) hfuel
  refine ⟨(t.store.rowsAfter org 0).map (signedExportRow A), exportLoop_eq t.store org [] hlen, ?_, ?_, ?_⟩
  · rw [rowsAfter_zero, map_map]
    rfl
  · rw [map_map, pairwise_map]
    exact rowsAfter_sorted t.store org 0
  · intro c hc
    obtain ⟨a, -, hbetween⟩ := (hinv.seamless org).mem hc
    have hfilter : ((t.store.rowsAfter org 0).map (signedExportRow A)).filter
        (fun x => decide (c.cp.Covers x.event.id)) =
          (t.store.rowsBetween org a c.cp.lastLogID).map (signedExportRow A) := by
      rw [filter_map, ← hbetween.filter_covers]
      rfl
    have hbatch : (t.store.rowsBetween org a c.cp.lastLogID).map (fun r => (r.id, leafJSON A r)) = c.batch :=
      hbetween.batch.symm
    rw [hfilter, map_map, map_map]
    refine ⟨hbatch, ?_⟩
    rw [hbetween.seals.merkleRoot, ← hbatch, map_map]
    rfl

end

theorem export_rebuilds_roots_in_order :
    ∃ out, exportAllAscSigned demoAudit rowsInOrderPool.store 7 9 = some out ∧
      out.map (·.event) = (rowsInOrderPool.store.rows.filter fun r => r.orgID == 7).map (·.event) ∧
      (out.map (·.event.id)).Pairwise (· < ·) ∧
      ∀ c ∈ rowsInOrderPool.store.checkpointsOf 7,
        (out.filter fun x => decide (c.cp.Covers x.event.id)).map (fun x => (x.event.id, x.leafJSON)) = c.batch ∧
        encodeToHex (rebuildRoot demoMerkle
          ((out.filter fun x => decide (c.cp.Covers x.event.id)).map (·.leafJSON))) = c.cp.merkleRoot :=
  export_rebuilds_roots emptyLog rfl rowsInOrder_run rowsInOrder_one 7 (by decide +kernel)

end Clavex
