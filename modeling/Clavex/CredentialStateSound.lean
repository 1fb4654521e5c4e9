import Clavex.CredentialState
import Clavex.StatusList

/-!
# The registry and the published lists are in step

Every statement of these transactions locks the row it reads, so that only what a transaction does
alone has to be looked at. Setting a slot changes no other entry, also where the list is made wider
(`update_slot`), and what the poll lifts is what it had put, as every other change of state takes
the hold back.
-/

namespace Clavex

open List Prog Rows TxnLang

variable {V : UUID → Nat → Option Nat} {U : UUID → Nat → Prop} {R : UUID → Prop} {lists : Rows PublishedStatusList.id}
  {C : StatusCodec} {journal : List StateChange}

/-! ## Entries of a list -/

namespace StatusBitList

structure Sized (sl : StatusBitList) : Prop where
  width : sl.width ∣ 8
  size : sl.bits.length = slotCount * sl.width / 8

variable {sl sl' : StatusBitList} {index : Nat} {val : UInt8}

theorem Sized.bits (h : sl.Sized) : 8 * sl.bits.length = slotCount * sl.width := by
  have hdvd : 8 ∣ slotCount := by decide
  rw [h.size, Nat.mul_div_cancel' (hdvd.mul_right _)]

theorem set_eq_ok : sl.set index val = .ok sl' ↔
    index < slotCount ∧ val.toNat < 2 ^ sl.width ∧ sl' = ⟨setField sl.bits sl.width index val, sl.width⟩ := by
  have hpos : 0 < 2 ^ sl.width := Nat.two_pow_pos _
  have hmax : 1 <<< sl.width - 1 = 2 ^ sl.width - 1 := by rw [Nat.shiftLeft_eq, Nat.one_mul]
  unfold set
  split
  · exact ⟨(fun h => by cases h), fun h => by omega⟩
  · constructor
    · intro h
      cases h
      refine ⟨by omega, by omega, rfl⟩
    · intro h
      rw [h.2.2]

theorem Sized.set (h : sl.Sized) (hset : sl.set index val = .ok sl') :
    sl'.Sized ∧ sl'.width = sl.width ∧
    ∀ m, fieldAt sl'.bits sl'.width m = if m = index then val.toNat else fieldAt sl.bits sl.width m := by
  obtain ⟨hindex, hval, rfl⟩ := set_eq_ok.mp hset
  have hplace : index * sl.width < 8 * sl.bits.length := by
    have hpos : 0 < sl.width := Nat.pos_of_dvd_of_pos h.width (by decide)
    rw [h.bits]
    exact Nat.mul_lt_mul_of_pos_right hindex hpos
  exact ⟨⟨h.width, length_set.trans h.size⟩, rfl, fieldAt_setField h.width hplace hval⟩

theorem widen_fold (src : Bytes) (is : List Nat) (his : ∀ i ∈ is, i < slotCount) {out : StatusBitList} (hout : out.Sized)
    (hwidth : out.width = 2) : ∃ out' : StatusBitList,
      is.foldlM (fun out i => out.set i ((src.getD (i / 8) 0 >>> UInt8.ofNat (i % 8)) &&& 1)) out = .ok out' ∧
      out'.Sized ∧ out'.width = 2 ∧ ∀ m, fieldAt out'.bits 2 m = if m ∈ is then fieldAt src 1 m else fieldAt out.bits 2 m := by
  induction is generalizing out with
  | nil => exact ⟨out, rfl, hout, hwidth, fun m => by simp⟩
  | cons i is ih =>
    rw [forall_mem_cons] at his
    have hbit : ((src.getD (i / 8) 0 >>> UInt8.ofNat (i % 8)) &&& 1).toNat < 2 ^ out.width := by
      rw [fieldAt_one, hwidth]
      exact lt_of_lt_of_le (Nat.mod_lt _ (by decide)) (by decide)
    obtain ⟨mid, hset⟩ : ∃ mid, out.set i _ = .ok mid := ⟨_, set_eq_ok.mpr ⟨his.1, hbit, rfl⟩⟩
    obtain ⟨hsized, hw, hfield⟩ := hout.set hset
    obtain ⟨out', hfold, hsized', hw', hfield'⟩ := ih his.2 hsized (hw.trans hwidth)
    refine ⟨out', ?_, hsized', hw', fun m => ?_⟩
    · rw [foldlM_cons, hset]
      exact hfold
    · rw [hfield' m]
      by_cases hm : m ∈ is
      · simp [hm]
      · have hm' := hfield m
        rw [hw, hwidth, fieldAt_one] at hm'
        rw [if_neg hm, hm']
        by_cases heq : m = i
        · simp [heq]
        · simp [heq, hm]

theorem widen_ok (sl : StatusBitList) : ∃ sl' : StatusBitList, sl.widen = .ok sl' ∧ sl'.Sized ∧ sl'.width = 2 ∧
    ∀ n < slotCount, fieldAt sl'.bits 2 n = fieldAt sl.bits 1 n := by
  have hempty : Sized ⟨replicate (slotCount * 2 / 8) 0, 2⟩ := ⟨by decide, length_replicate⟩
  obtain ⟨sl', hwiden, hsized, hwidth, hfield⟩ :=
    widen_fold sl.bits (range slotCount) (fun i hi => mem_range.mp hi) hempty rfl
  refine ⟨sl', hwiden, hsized, hwidth, fun n hn => ?_⟩
  rw [hfield n, if_pos (mem_range.mpr hn)]

end StatusBitList

def published (C : StatusCodec) (r : PublishedStatusList) (n : Nat) : Option Nat :=
  match C.decodeBase64 r.encoded with
  | none => none
  | some compressed =>
    if (C.inflate compressed).2 then none
    else some (ValidatedStatusList.entry ⟨r.bits, (C.inflate compressed).1, 0⟩ n)

theorem published_encode (C id bits width n) :
    published C ⟨id, encodeStatusBits C bits, width⟩ n = some (fieldAt bits width n) := by
  unfold published encodeStatusBits
  rw [C.decode_encode]
  simp only [C.inflate_deflate]
  rfl

variable {sl : StatusBitList} {r : PublishedStatusList} {index : Nat}

theorem decode_ok {encoded width}
    (h : decodeStatusListRawWithBits C encoded width = .ok sl) : sl.Sized ∧ sl.width = width ∧
      ∀ id n, published C ⟨id, encoded, width⟩ n = some (fieldAt sl.bits sl.width n) := by
  unfold decodeStatusListRawWithBits at h
  split at h
  · cases h
  have hdvd : width ∣ 8 := by
    have hcases : width = 1 ∨ width = 2 ∨ width = 4 ∨ width = 8 := by omega
    rcases hcases with rfl | rfl | rfl | rfl <;> decide
  split at h
  · cases h
  cases hdecode : C.decodeBase64 encoded with
  | none =>
    rw [hdecode] at h
    cases h
  | some compressed =>
    simp only [hdecode] at h
    cases hread : C.readAll (slotCount * width / 8 + 1) compressed with
    | none =>
      rw [hread] at h
      cases h
    | some bits =>
      simp only [hread] at h
      split at h
      · cases h
      rename_i hsize
      cases h
      -- less than the limit was read: that is all there is
      have hall : (C.inflate compressed).2 = false ∧ bits = (C.inflate compressed).1 := by
        unfold StatusCodec.readAll at hread
        split at hread
        · cases hread
          rw [length_take] at hsize
          omega
        · split at hread
          · cases hread
          · rename_i hend
            cases hread
            exact ⟨Bool.eq_false_iff.mpr hend, rfl⟩
      refine ⟨⟨hdvd, not_not.mp hsize⟩, rfl, fun id n => ?_⟩
      simp only [published, hdecode, hall.1, ← hall.2]
      rfl

theorem update_slot {sl₁ sl₂} {widened : Prop} [Decidable widened] {state} (hwidened : widened → r.bits = 1)
    (hdecode : decodeStatusListRawWithBits C r.encoded r.bits = .ok sl)
    (hwiden : (if widened then sl.widen else .ok sl) = .ok sl₁) (hset : sl₁.set index state = .ok sl₂) :
    ∀ m < slotCount, published C ⟨r.id, encodeStatusBits C sl₂.bits, if widened then 2 else r.bits⟩ m =
      if m = index then some state.toNat else published C r m := by
  obtain ⟨hsized, hwidth, hpublished⟩ := decode_ok hdecode
  have hmid : sl₁.Sized ∧ sl₁.width = (if widened then 2 else r.bits) ∧
      ∀ m < slotCount, fieldAt sl₁.bits sl₁.width m = fieldAt sl.bits sl.width m := by
    split at hwiden
    · rename_i hw
      obtain ⟨sl', hok, hsized', hwidth', hfield⟩ := sl.widen_ok
      rw [hok] at hwiden
      cases hwiden
      rw [if_pos hw, hwidth, hwidened hw, hwidth']
      exact ⟨hsized', rfl, hfield⟩
    · rename_i hw
      cases hwiden
      rw [if_neg hw]
      exact ⟨hsized, hwidth, fun _ _ => rfl⟩
  obtain ⟨hsized₁, hwidth₁, hfield₁⟩ := hmid
  obtain ⟨-, hwidth₂, hfield₂⟩ := hsized₁.set hset
  intro m hm
  rw [published_encode, ← hwidth₁, ← hwidth₂, hfield₂ m]
  split
  · rfl
  · rw [hfield₁ m hm]
    exact (hpublished r.id m).symm

/-! ## The registry and the lists -/

def IssuedCredential.slot (c : IssuedCredential) : Option (UUID × Nat) :=
  match c.statusListID, c.statusIndex with
  | some list, some index => some (list, index)
  | _, _ => none

def IssuedCredential.stateValue (c : IssuedCredential) : Nat := if c.isRevoked then 1 else if c.isSuspended then 2 else 0

variable {c : IssuedCredential}

def entryOf (C : StatusCodec) (lists : Rows PublishedStatusList.id) (list : UUID) (n : Nat) : Option Nat :=
  (lists.find fun r => decide (r.id = list)).bind fun r => published C r n

def lastChange (journal : List StateChange) (id : UUID) : Option StateChange := journal.find? fun e => decide (e.credential = id)

def PollsLiftOwn (journal : List StateChange) : Prop :=
  ∀ later e earlier, journal = later ++ e :: earlier → e.actor = .poll → e.state = 0 →
    lastChange earlier e.credential = some ⟨e.credential, 2, .poll⟩

structure StatusSound (C : StatusCodec) (db : StatusStore) : Prop where
  range : ∀ c ∈ db.creds.list, ∀ s, c.slot = some s → s.2 < slotCount
  distinct : ∀ c ∈ db.creds.list, ∀ c' ∈ db.creds.list, ∀ s, c.slot = some s → c'.slot = some s → c.id = c'.id
  agree : ∀ c ∈ db.creds.list, ∀ s, c.slot = some s → entryOf C db.lists s.1 s.2 = some c.stateValue
  recorded : ∀ c ∈ db.creds.list, ∀ e, lastChange db.journal c.id = some e → c.stateValue = e.state.toNat
  hold : ∀ c ∈ db.creds.list, c.parentStatusHold = true → lastChange db.journal c.id = some ⟨c.id, 2, .poll⟩
  lifted : PollsLiftOwn db.journal

structure StatusKept (C : StatusCodec) (R : UUID → Prop) (U : UUID → Nat → Prop) (V : UUID → Nat → Option Nat)
    (db : StatusStore) : Prop where
  revoked : ∀ id, R id → ∃ c ∈ db.creds.list, c.id = id ∧ c.isRevoked = true
  owned : ∀ c ∈ db.creds.list, ∀ s, c.slot = some s → ¬ U s.1 s.2
  unowned : ∀ l n, n < slotCount → U l n → entryOf C db.lists l n = V l n

def StatusGood (C : StatusCodec) (R : UUID → Prop) (U : UUID → Nat → Prop) (V : UUID → Nat → Option Nat)
    (db : StatusStore) : Prop :=
  StatusSound C db ∧ StatusKept C R U V db

theorem PollsLiftOwn.cons (h : PollsLiftOwn journal) {e}
    (he : e.actor = .poll → e.state = 0 → lastChange journal e.credential = some ⟨e.credential, 2, .poll⟩) :
    PollsLiftOwn (e :: journal) := by
  intro later e' earlier heq
  cases later with
  | nil =>
    cases heq
    exact he
  | cons x later =>
    cases heq
    exact h later e' earlier rfl

theorem lastChange_cons (e journal id) :
    lastChange (e :: journal) id = if e.credential = id then some e else lastChange journal id := by
  by_cases h : e.credential = id
  · simp [lastChange, h]
  · simp [lastChange, h]

theorem entryOf_set {r'} (hr : r ∈ lists.list) (hid : r'.id = r.id) {v}
    (h : ∀ m < slotCount, published C r' m = if m = index then some v else published C r m) (l) {m}
    (hm : m < slotCount) :
    entryOf C (lists.set r') l m = if l = r.id ∧ m = index then some v else entryOf C lists l m := by
  unfold entryOf
  rw [find_set, hid]
  by_cases hl : r.id = l
  · have hfind : lists.find (fun b => decide (b.id = l)) = some r :=
      find_key hr (decide_eq_true hl) fun b hb => (of_decide_eq_true hb).trans hl.symm
    rw [if_pos hl, hfind]
    simp only [Option.bind_some, h m hm]
    by_cases hmi : m = index
    · simp [hl, hmi]
    · simp [hmi]
  · have hne : ¬ (l = r.id ∧ m = index) := fun heq => hl heq.1.symm
    rw [if_neg hl, if_neg hne]

section
variable {db : StatusStore}

theorem StatusGood.change (h : StatusGood C R U V db) (c') (hc : c ∈ db.creds.list) (hid : c'.id = c.id)
    (hslot : c'.slot = c.slot) (hrevoked : c.isRevoked = true → c'.isRevoked = true) (hentry : ∀ l m, m < slotCount →
      entryOf C lists l m = if c.slot = some (l, m) then some c'.stateValue else entryOf C db.lists l m)
    (hothers : ∀ id, id ≠ c.id → lastChange journal id = lastChange db.journal id)
    (hrecorded : ∀ e, lastChange journal c.id = some e → c'.stateValue = e.state.toNat)
    (hhold : c'.parentStatusHold = true → lastChange journal c.id = some ⟨c.id, 2, .poll⟩)
    (hlifted : PollsLiftOwn journal) : StatusGood C R U V ⟨db.creds.set c', lists, journal⟩ := by
  obtain ⟨h, hk⟩ := h
  -- every row is the new one, which has the slot of `c`, or an old one under another id
  have hrows : ∀ b ∈ (db.creds.set c').list, b = c' ∨ b ∈ db.creds.list ∧ b.id ≠ c.id :=
    fun b hb => (mem_set.mp hb).imp_right fun hb => ⟨hb.1, hid ▸ hb.2⟩
  have hold : ∀ b ∈ (db.creds.set c').list, ∃ a ∈ db.creds.list, a.id = b.id ∧ a.slot = b.slot := by
    intro b hb
    rcases hrows b hb with rfl | ⟨hb, _⟩
    · exact ⟨c, hc, hid.symm, hslot.symm⟩
    · exact ⟨b, hb, rfl, rfl⟩
  refine ⟨⟨?_, ?_, ?_, ?_, ?_, hlifted⟩, ⟨?_, ?_, ?_⟩⟩
  · intro b hb s hs
    obtain ⟨a, ha, _, haslot⟩ := hold b hb
    exact h.range a ha s (haslot.trans hs)
  · intro b hb b' hb' s hs hs'
    obtain ⟨a, ha, haid, haslot⟩ := hold b hb
    obtain ⟨a', ha', haid', haslot'⟩ := hold b' hb'
    rw [← haid, ← haid']
    exact h.distinct a ha a' ha' s (haslot.trans hs) (haslot'.trans hs')
  · intro b hb s hs
    have hlt : s.2 < slotCount := by
      obtain ⟨a, ha, _, haslot⟩ := hold b hb
      exact h.range a ha s (haslot.trans hs)
    rcases hrows b hb with rfl | ⟨hb, hne⟩
    · rw [hentry s.1 s.2 hlt, if_pos (hslot.symm.trans hs)]
    · rw [hentry s.1 s.2 hlt, if_neg fun hcs => hne (h.distinct b hb c hc s hs hcs)]
      exact h.agree b hb s hs
  · intro b hb e he
    rcases hrows b hb with rfl | ⟨hb, hne⟩
    · exact hrecorded e (hid ▸ he)
    · exact h.recorded b hb e ((hothers b.id hne).symm.trans he)
  · intro b hb hheld
    rcases hrows b hb with rfl | ⟨hb, hne⟩
    · rw [hid]
      exact hhold hheld
    · exact (hothers b.id hne).trans (h.hold b hb hheld)
  · intro id hR
    obtain ⟨a, ha, haid, harevoked⟩ := hk.revoked id hR
    by_cases heq : a.id = c.id
    · have hac : a = c := eq_of_key ha hc heq
      exact ⟨c', mem_set.mpr (.inl rfl), by rw [hid, ← heq, haid], hrevoked (hac ▸ harevoked)⟩
    · exact ⟨a, mem_set.mpr (.inr ⟨ha, hid ▸ heq⟩), haid, harevoked⟩
  · intro b hb s hs
    obtain ⟨a, ha, _, haslot⟩ := hold b hb
    exact hk.owned a ha s (haslot.trans hs)
  · intro l n hn hU
    rw [hentry l n hn, if_neg fun hcs => hk.owned c hc _ hcs hU]
    exact hk.unowned l n hn hU

end

/-! ## A transaction -/

open StatusStore

def statusAgree : StatusKey → StatusStore → StatusStore → Prop
  | .credential id, db, db' => db.credential id = db'.credential id
  | .list id, db, db' => db.list id = db'.list id

structure StatusHeld (held : List StatusKey) (w : StatusWork) : Prop where
  creds : ∀ c ∈ w.creds, .credential c.id ∈ held
  lists : ∀ r ∈ w.lists, .list r.id ∈ held

section
variable {db db' : StatusStore} {held : List StatusKey} {w : StatusWork}

variable {id : UUID} {f : IssuedCredential → IssuedCredential} {env : StatusEnv} {w' : StatusWork}

theorem credential_some (h : db.credential id = some c) : c ∈ db.creds.list ∧ c.id = id := by
  obtain ⟨hc, hid⟩ := find_some h
  exact ⟨hc, of_decide_eq_true hid⟩

theorem credential_visible (h : statusAgree (.credential id) db db') (w) :
    (db'.visible w).credential id = (db.visible w).credential id :=
  (find_overlay_congr h w.creds).symm

theorem list_visible (h : statusAgree (.list id) db db') (w) : (db'.visible w).list id = (db.visible w).list id :=
  (find_overlay_congr h w.lists).symm

theorem StatusHeld.publish (h : StatusHeld held w) {k} (hk : k ∉ held) : statusAgree k db (db.visible w) := by
  cases k with
  | credential id =>
    refine (find_overlay fun c hc => ?_).symm
    exact fun heq => hk (heq ▸ h.creds c hc)
  | list id =>
    refine (find_overlay fun r hr => ?_).symm
    exact fun heq => hk (heq ▸ h.lists r hr)

theorem StatusHeld.fresh : StatusHeld held ⟨[], [], []⟩ where
  creds c hc := by cases hc
  lists r hr := by cases hr

theorem StatusHeld.mono (h : StatusHeld held w) {held'} (hsub : held ⊆ held') : StatusHeld held' w :=
  ⟨fun c hc => hsub (h.creds c hc), fun r hr => hsub (h.lists r hr)⟩

theorem perform_local (env op w) (h : ∀ key ∈ statusLocks env op, statusAgree key db db') : db'.perform env op w = db.perform env op w := by
  cases op with
  | lockActiveOrg org | checkParents raw => rfl
  | selectList id | updateList id encoded bits => simp [StatusStore.perform, list_visible (h _ (mem_singleton_self _))]
  | selectParents id org
  | selectCredential id => simp [StatusStore.perform, credential_visible (h _ (mem_singleton_self _))]
  | updateCredential id state reason actor =>
    simp [StatusStore.perform, updateCred, credential_visible (h _ (mem_singleton_self _))]
  | setHold id hold
  | setChecked id => simp [StatusStore.perform, updateCred, credential_visible (h _ (mem_singleton_self _))]

theorem StatusHeld.updateCred (h : StatusHeld held w) (id) (hf : ∀ c, (f c).id = c.id) : StatusHeld (.credential id :: held) (db.updateCred w id f) := by
  have hmono := h.mono (subset_cons_self (.credential id) held)
  unfold StatusStore.updateCred
  split
  · exact hmono
  rename_i c hfind
  refine ⟨fun b hb => ?_, hmono.lists⟩
  rcases mem_cons.mp hb with rfl | hb
  · rw [hf, (credential_some hfind).2]
    exact mem_cons_self ..
  · exact hmono.creds b hb

theorem StatusHeld.perform (h : StatusHeld held w) (env op) :
    StatusHeld (statusLocks env op ++ held) (db.perform env op w).2 := by
  have hmono : StatusHeld (statusLocks env op ++ held) w := h.mono (subset_append_right ..)
  cases op with
  | lockActiveOrg org | checkParents raw => exact hmono
  | selectList id | selectCredential id =>
    simp only [StatusStore.perform]
    split <;> exact hmono
  | selectParents id org =>
    simp only [StatusStore.perform]
    split
    · exact hmono
    · split <;> exact hmono
  | updateCredential id state reason actor =>
    have hcreds : StatusHeld (.credential id :: held) (db.updateCred w id fun c => c.withState state reason env.now) :=
      h.updateCred id fun _ => rfl
    exact ⟨hcreds.creds, hcreds.lists⟩
  | setHold id hold | setChecked id => exact h.updateCred id fun _ => rfl
  | updateList id encoded bits =>
    simp only [StatusStore.perform]
    split
    · exact hmono
    rename_i r hfind
    refine ⟨hmono.creds, fun b hb => ?_⟩
    rcases mem_cons.mp hb with rfl | hb
    · rw [show r.id = id from of_decide_eq_true (find_some hfind).2]
      exact mem_cons_self ..
    · exact hmono.lists b hb

theorem answers_ok (op) (hop : ∀ raw, op ≠ .checkParents raw) {e a}
    (h : (statusLang.answers db e op w).1 = .ok a) :
    ∃ env, db.perform env op w = (.ok a, (statusLang.answers db e op w).2) := by
  have hrefused : op.busy ≠ .ok a ∧ op.refusal ≠ .ok a := by
    cases op with
    | checkParents raw => exact absurd rfl (hop raw)
    | _ => exact ⟨nofun, nofun⟩
  obtain ⟨env, taken⟩ := e
  cases taken with
  | true => exact absurd h hrefused.1
  | false =>
    simp only [answers, statusLang, ofStatements] at h ⊢
    cases hfails : env.fails with
    | true =>
      rw [hfails] at h
      exact absurd h hrefused.2
    | false =>
      rw [hfails] at h
      exact ⟨env, Prod.ext h rfl⟩

theorem statusStmt_answers (op) (hop : ∀ raw, op ≠ .checkParents raw) :
    (statusStmt op).Post (statusLang.answers db) (onOk fun a w' => ∃ env, db.perform env op w = (.ok a, w')) w := by
  intro e
  cases hr : (statusLang.answers db e op w).1 with
  | ok a => exact answers_ok op hop hr
  | error err => exact trivial

theorem perform_selectList {a} (h : db.perform env (.selectList id) w = (.ok a, w')) :
    w' = w ∧ ∃ r ∈ (db.visible w).lists.list, r.id = id ∧ a = (r.encoded, r.bits) := by
  simp only [StatusStore.perform] at h
  split at h
  · cases h
  · rename_i r hfind
    obtain ⟨hr, hid⟩ := find_some hfind
    cases h
    exact ⟨rfl, r, hr, of_decide_eq_true hid, rfl⟩

theorem perform_selectCredential
    (h : db.perform env (.selectCredential id) w = (.ok c, w')) : w' = w ∧ (db.visible w).credential id = some c := by
  simp only [StatusStore.perform] at h
  split at h
  · cases h
  · rename_i c' hfind
    cases h
    exact ⟨rfl, hfind⟩

theorem perform_selectParents {org a} (h : db.perform env (.selectParents id org) w = (.ok a, w')) :
    w' = w ∧ ∃ c, (db.visible w).credential id = some c ∧ a = (c.statusParents, c.isSuspended, c.parentStatusHold) := by
  simp only [StatusStore.perform] at h
  split at h
  · cases h
  rename_i c hfind
  split at h
  · cases h
    exact ⟨rfl, c, hfind, rfl⟩
  · cases h

theorem updateStatusSlot_post (list index state) :
    (updateStatusSlot C list index state).Post (statusLang.answers db) (onOk fun _ w' => ∃ lists,
      db.visible w' = { db.visible w with lists } ∧ ∀ l m, m < slotCount → entryOf C lists l m =
        if l = list ∧ m = index then some state.toNat else entryOf C (db.visible w).lists l m) w := by
  refine .bind_ok (statusStmt_answers _ nofun) fun a w₁ ⟨env, hselect⟩ => ?_
  obtain ⟨rfl, r, hr, rfl, rfl⟩ := perform_selectList hselect
  refine .ofExcept fun sl hdecode => ?_
  refine .ofExcept fun sl₁ hwiden => ?_
  refine .ofExcept fun sl₂ hset => ?_
  refine (statusStmt_answers (.updateList _ _ _) nofun).mono_ok fun _ w₂ ⟨env', hupdate⟩ => ?_
  have hfind : (db.visible w₁).list r.id = some r :=
    find_key hr (decide_eq_true rfl) fun _ hb => of_decide_eq_true hb
  simp only [StatusStore.perform, hfind] at hupdate
  cases hupdate
  have hpublished := update_slot And.right hdecode hwiden hset
  exact ⟨_, rfl, fun l m hm => entryOf_set hr (by rfl) hpublished l hm⟩

theorem stateValue_withState (c : IssuedCredential) {state} (hstate : state ≤ 2) (reason) (now) :
    (c.withState state reason now).stateValue = state.toNat := by
  have hle : state.toNat ≤ 2 := UInt8.le_iff_toNat_le.mp hstate
  unfold IssuedCredential.stateValue IssuedCredential.withState
  by_cases h1 : state = 1
  · simp [h1]
  · by_cases h2 : state = 2
    · simp [h2]
    · have hne1 : state.toNat ≠ 1 := fun heq => h1 (UInt8.toNat_inj.mp heq)
      have hne2 : state.toNat ≠ 2 := fun heq => h2 (UInt8.toNat_inj.mp heq)
      simp only [decide_eq_false h1, decide_eq_false h2]
      simp
      omega

section
variable (h : StatusGood C R U V (db.visible w))
include h

theorem setIssuedCredentialState_post (id state reason actor)
    (hlift : actor = .poll → state = 0 → lastChange (db.visible w).journal id = some ⟨id, 2, .poll⟩) :
    (setIssuedCredentialState C id state reason actor).Post (statusLang.answers db) (onOk fun _ w' =>
      StatusGood C R U V (db.visible w') ∧ lastChange (db.visible w').journal id = some ⟨id, state, actor⟩) w := by
  refine .require fun hstate => ?_
  refine .bind_ok (statusStmt_answers _ nofun) fun (c : IssuedCredential) w₁ ⟨env, hselect⟩ => ?_
  obtain ⟨rfl, hfind⟩ := perform_selectCredential hselect
  obtain ⟨hc, rfl⟩ := credential_some hfind
  refine .require fun hallowed => ?_
  refine .require fun _ => ?_
  refine .bind_ok (statusStmt_answers (.updateCredential ..) nofun) fun _ w₂ ⟨env', hupdate⟩ => ?_
  simp only [StatusStore.perform, updateCred, hfind] at hupdate
  cases hupdate
  -- what is left to show, once the lists are as they should be
  have hdone : ∀ lists, (∀ l m, m < slotCount → entryOf C lists l m =
      if c.slot = some (l, m) then some state.toNat else entryOf C (db.visible w₁).lists l m) → ∀ w',
      db.visible w' = ⟨(db.visible w₁).creds.set (c.withState state reason env'.now), lists,
        ⟨c.id, state, actor⟩ :: (db.visible w₁).journal⟩ →
      StatusGood C R U V (db.visible w') ∧ lastChange (db.visible w').journal c.id = some ⟨c.id, state, actor⟩ := by
    intro lists hlists w' hw'
    rw [hw']
    have hlifted : PollsLiftOwn (⟨c.id, state, actor⟩ :: (db.visible w₁).journal) := h.1.lifted.cons hlift
    refine ⟨h.change (c.withState state reason env'.now) hc rfl rfl (fun hr => ?_) ?_ (fun id hne => ?_)
      (fun e he => ?_) (fun hheld => ?_) hlifted, ?_⟩
    · exact absurd (.inl hr) hallowed
    · rw [stateValue_withState c hstate]
      exact hlists
    · rw [lastChange_cons, if_neg fun heq => hne heq.symm]
    · rw [lastChange_cons, if_pos rfl] at he
      cases he
      exact stateValue_withState c hstate reason env'.now
    · cases hheld
    · rw [lastChange_cons, if_pos rfl]
  split
  · rename_i list index hlist hindex
    have hslot : c.slot = some (list, index) := by simp [IssuedCredential.slot, hlist, hindex]
    refine (updateStatusSlot_post list index state).mono_ok fun _ w₂ ⟨lists, hw₂, hentry⟩ => ?_
    refine hdone lists (fun l m hm => ?_) w₂ hw₂
    rw [hentry l m hm, hslot]
    have hiff : (l = list ∧ m = index) ↔ some (list, index) = some (l, m) := by
      simp [eq_comm]
    simp only [hiff]
    rfl
  · rename_i hnone
    have hslot : c.slot = none := by
      unfold IssuedCredential.slot
      split
      · rename_i list index hlist hindex
        exact absurd hindex (hnone list index hlist)
      · rfl
    refine hdone _ (fun l m _ => ?_) _ rfl
    rw [hslot]
    rfl

theorem StatusGood.updateCred
    (hf : ∀ c, (f c).id = c.id ∧ (f c).slot = c.slot ∧ (f c).isRevoked = c.isRevoked ∧ (f c).isSuspended = c.isSuspended)
    (hheld : ∀ c ∈ (db.visible w).creds.list, c.id = id → (f c).parentStatusHold = true →
      lastChange (db.visible w).journal c.id = some ⟨c.id, 2, .poll⟩) :
    StatusGood C R U V (db.visible (db.updateCred w id f)) := by
  unfold StatusStore.updateCred
  split
  · exact h
  rename_i c hfind
  obtain ⟨hc, hcid⟩ := credential_some hfind
  obtain ⟨hid, hslot, hrevoked, hsuspended⟩ := hf c
  have hvalue : (f c).stateValue = c.stateValue := by simp [IssuedCredential.stateValue, hrevoked, hsuspended]
  refine h.change (f c) hc hid hslot hrevoked.trans (fun l m _ => ?_) (fun _ _ => rfl) (fun e he => ?_) (hheld c hc hcid)
    h.1.lifted
  · rw [hvalue]
    split
    · rename_i hs
      exact h.1.agree c hc (l, m) hs
    · rfl
  · rw [hvalue]
    exact h.1.recorded c hc e he

theorem setHold_post {hold} (hheld : hold = true → lastChange (db.visible w).journal id = some ⟨id, 2, .poll⟩) :
    (statusStmt (.setHold id hold)).Post (statusLang.answers db)
      (onOk fun _ w' => StatusGood C R U V (db.visible w')) w := by
  refine (statusStmt_answers (.setHold id hold) nofun).mono_ok fun _ w' ⟨env, hset⟩ => ?_
  cases hset
  exact h.updateCred (fun _ => ⟨rfl, rfl, rfl, rfl⟩) fun c _ hid => hid ▸ hheld

theorem setChecked_post (id) :
    (statusStmt (.setChecked id)).Post (statusLang.answers db)
      (onOk fun _ w' => StatusGood C R U V (db.visible w')) w := by
  refine (statusStmt_answers (.setChecked id) nofun).mono_ok fun _ w' ⟨env, hset⟩ => ?_
  cases hset
  exact h.updateCred (fun _ => ⟨rfl, rfl, rfl, rfl⟩) fun c hc _ => h.1.hold c hc

theorem propagateParents_post (hc : c ∈ (db.visible w).creds.list) (state) :
    (propagateParents C c.id c.isSuspended c.parentStatusHold state).Post (statusLang.answers db)
      (onOk fun _ w' => StatusGood C R U V (db.visible w')) w := by
  cases state with
  | failed => exact h
  | revoked =>
    exact (setIssuedCredentialState_post h c.id 1 _ .poll fun _ h1 => by cases h1).mono_ok fun _ _ hw' => hw'.1
  | suspended =>
    simp only [propagateParents]
    split
    · exact h
    · refine .bind_ok (setIssuedCredentialState_post h c.id 2 _ .poll fun _ h2 => by cases h2) fun _ w₁ hw₁ => ?_
      exact setHold_post hw₁.1 fun _ => hw₁.2
  | valid =>
    simp only [propagateParents]
    split
    · rename_i hheld
      refine .bind_ok (setIssuedCredentialState_post h c.id 0 _ .poll fun _ _ => ?_) fun _ w₁ hw₁ => ?_
      · exact h.1.hold c hc hheld.2
      · exact setHold_post hw₁.1 nofun
    · exact h

theorem pollWalletParent_post (id org) :
    (pollWalletParent C id org).Post (statusLang.answers db) (onOk fun _ w' => StatusGood C R U V (db.visible w')) w := by
  refine .call fun e => ?_
  cases hlock : (statusLang.answers db e (.lockActiveOrg org) w).1 with
  | error err => cases err <;> exact trivial
  | ok _ =>
    have hw₁ : (statusLang.answers db e (.lockActiveOrg org) w).2 = w := by
      obtain ⟨env, hperform⟩ := answers_ok (.lockActiveOrg org) nofun hlock
      exact (congrArg Prod.snd hperform).symm
    rw [hw₁]
    refine .call fun e => ?_
    cases hselect : (statusLang.answers db e (.selectParents id org) w).1 with
    | error err => cases err <;> exact trivial
    | ok a =>
      obtain ⟨env, hperform⟩ := answers_ok (.selectParents id org) nofun hselect
      obtain ⟨hw₂, c, hfind, rfl⟩ := perform_selectParents hperform
      obtain ⟨hc, rfl⟩ := credential_some hfind
      rw [hw₂]
      -- the parents' states are asked for, which changes nothing
      refine .bind_ok (R := fun _ w' => w' = w) (fun ⟨env, taken⟩ => ?_) fun parents w₃ hw₃ => ?_
      · cases taken with
        | true => exact rfl
        | false =>
          simp only [answers, statusLang, ofStatements]
          cases env.fails <;> exact rfl
      · rw [hw₃]
        exact .bind_ok (propagateParents_post h hc _) fun _ w₄ hw₄ => setChecked_post hw₄ c.id

end

theorem statusSystem_serial (C) (R) (U) (V) :
    (statusSystem C).Serial statusAgree (fun _ _ => True) (fun _ _ _ => True) (fun _ => StatusHeld)
      (StatusGood C R U V) where
  refl k _ := by cases k <;> rfl
  stamp _ := trivial
  body {db x t} h _ := by
    have hpost : ((statusSystem C).body x t).Post (statusLang.answers db) (onOk fun _ w => StatusGood C R U V (db.visible w))
        ⟨[], [], []⟩ := by
      cases x with
      | setState id state reason =>
        exact (setIssuedCredentialState_post h id state reason .admin nofun).mono_ok fun _ _ hw => hw.1
      | poll id org => exact pollWalletParent_post h id org
    refine (Disciplined.of_post (fun env op db' w hagree => ?_)
      (fun env op held w hw => ?_) (fun _ _ _ hw => hw) StatusHeld.fresh hpost).mono fun _ held w hw hend => ?_
    · simp only [statusLang, ofStatements] at hagree ⊢
      rw [perform_local env op w hagree]
    · simp only [statusLang, ofStatements]
      split
      · exact hw.mono (subset_append_right ..)
      · exact hw.perform env op
    · exact ⟨fun k hk => hw.publish hk, fun _ => ⟨hend, fun _ _ => trivial⟩⟩
  stmt _ s _ h := by
    cases s with
    | candidates => exact ⟨h, fun k => by cases k <;> rfl, fun _ ht => ht⟩
  other e := nomatch e

end

/-! ## Every interleaving -/

structure StatusInStep (C : StatusCodec) (earlier db : StatusStore) : Prop where
  agree : ∀ c ∈ db.creds.list, ∀ list index, c.statusListID = some list → c.statusIndex = some index →
    ∃ r ∈ db.lists.list, r.id = list ∧
      published C r index = some (if c.isRevoked then 1 else if c.isSuspended then 2 else 0)
  terminal : ∀ c ∈ earlier.creds.list, c.isRevoked = true → ∃ c' ∈ db.creds.list, c'.id = c.id ∧ c'.isRevoked = true
  others : ∀ r ∈ earlier.lists.list, ∀ r' ∈ db.lists.list, r'.id = r.id → ∀ n < slotCount,
    (∀ c ∈ earlier.creds.list, c.slot ≠ some (r.id, n)) → published C r' n = published C r n
  recorded : ∀ c ∈ db.creds.list, ∀ e, lastChange db.journal c.id = some e → c.stateValue = e.state.toNat
  lifted : PollsLiftOwn db.journal

theorem entryOf_mem (hr : r ∈ lists.list) (n) : entryOf C lists r.id n = published C r n := by
  have hfind : lists.find (fun b => decide (b.id = r.id)) = some r :=
    find_key hr (decide_eq_true rfl) fun _ hb => of_decide_eq_true hb
  rw [entryOf, hfind]
  rfl

theorem StatusSound.published {db} (h : StatusSound C db) (hc : c ∈ db.creds.list) {list}
    (hslot : c.slot = some (list, index)) :
    ∃ r ∈ db.lists.list, r.id = list ∧ Clavex.published C r index = some c.stateValue := by
  have hentry := h.agree c hc _ hslot
  unfold entryOf at hentry
  cases hfind : db.lists.find (fun r => decide (r.id = list)) with
  | none =>
    rw [hfind] at hentry
    cases hentry
  | some r =>
    obtain ⟨hr, hid⟩ := find_some hfind
    rw [hfind] at hentry
    exact ⟨r, hr, of_decide_eq_true hid, hentry⟩

theorem statusSystem_refines (C) {p} (hp : (statusSystem C).Sessions (fun _ _ => True) p)
    (h : StatusGood C R U V p.db) (ms) :
    StatusGood C R U V (run (statusSystem C).step p ms).db ∧
      (statusSystem C).Sessions (fun _ _ => True) (run (statusSystem C).step p ms) := by
  have htrace : Trace (statusSystem C).step ((statusSystem C).AtCommit fun _ _ _ => True) p ms
      (run (statusSystem C).step p ms) :=
    Trace.run_always (fun p m => .of_forall (fun _ _ _ => trivial) p m) ..
  have href := TxnSystem.refines (statusSystem_serial C R U V) htrace hp h
  exact ⟨href.data, href.sessions⟩

/-- Whatever the interleaving of revocations, suspensions, restorations and polls, the registry and
the published lists agree after every commit, a revoked credential stays revoked, slots of nobody
keep their entries, a poll restores only what a poll has suspended, and widening a list keeps its
entries. -/
theorem credential_states_published {C : StatusCodec} {db : StatusStore} (h : StatusSound C db)
    (ms ms' : List (TxnMove CredentialReq StatusEnv Empty)) :
    StatusInStep C (run (statusSystem C).step (TxnPool.init db) ms).db
      (run (statusSystem C).step (TxnPool.init db) (ms ++ ms')).db ∧
    ∀ sl : StatusBitList, ∃ sl' : StatusBitList, sl.widen = .ok sl' ∧ sl'.width = 2 ∧
      ∀ n < slotCount, ValidatedStatusList.entry ⟨2, sl'.bits, 0⟩ n = ValidatedStatusList.entry ⟨1, sl.bits, 0⟩ n := by
  refine ⟨?_, fun sl => ?_⟩
  swap
  · obtain ⟨sl', hok, _, hwidth, hfield⟩ := sl.widen_ok
    exact ⟨sl', hok, hwidth, hfield⟩
  have hstart : StatusKept C (fun _ => False) (fun _ _ => False) (fun _ _ => none) db :=
    ⟨fun _ hf => hf.elim, fun _ _ _ _ hf => hf, fun _ _ _ hf => hf.elim⟩
  obtain ⟨⟨hmid, -⟩, hsessions⟩ := statusSystem_refines C (.init db) ⟨h, hstart⟩ ms
  have happend : run (statusSystem C).step (TxnPool.init db) (ms ++ ms') =
      run (statusSystem C).step (run (statusSystem C).step (TxnPool.init db) ms) ms' := foldl_append ..
  rw [happend]
  generalize run (statusSystem C).step (TxnPool.init db) ms = p at hmid hsessions
  -- from here on: what is revoked, and what the slots of nobody show
  have hkept : StatusKept C (fun id => ∃ c ∈ p.db.creds.list, c.id = id ∧ c.isRevoked = true)
      (fun l n => ∀ c ∈ p.db.creds.list, c.slot ≠ some (l, n)) (fun l n => entryOf C p.db.lists l n) p.db :=
    ⟨fun _ hc => hc, fun c hc s hs hU => hU c hc hs, fun _ _ _ _ => rfl⟩
  obtain ⟨⟨hend, hkept'⟩, -⟩ := statusSystem_refines C hsessions ⟨hmid, hkept⟩ ms'
  constructor
  · intro c hc list index hlist hindex
    exact hend.published hc (by simp [IssuedCredential.slot, hlist, hindex])
  · exact fun c hc hr => hkept'.revoked c.id ⟨c, hc, rfl, hr⟩
  · intro r hr r' hr' hid n hn hU
    have hentry := hkept'.unowned r.id n hn hU
    rw [← hid, entryOf_mem hr', hid, entryOf_mem hr] at hentry
    exact hentry
  · exact hend.recorded
  · exact hend.lifted

def verbatimCodec : StatusCodec where
  deflate bits := bits
  inflate raw := (raw, false)
  encodeBase64 raw := String.ofList (raw.map fun b => Char.ofNat b.toNat)
  decodeBase64 s := some (s.toList.map fun c => UInt8.ofNat c.toNat)
  inflate_deflate _ := rfl
  decode_encode raw := by
    have hbyte : ∀ b : UInt8, UInt8.ofNat (Char.ofNat b.toNat).toNat = b := by
      intro b
      have hvalid : b.toNat.isValidChar := .inl (lt_of_lt_of_le b.toNat_lt (by decide))
      have hchar : (Char.ofNat b.toNat).toNat = b.toNat := by
        rw [Char.ofNat, dif_pos hvalid]
        rfl
      rw [hchar, UInt8.ofNat_toNat]
    rw [String.toList_ofList, List.map_map]
    simp [Function.comp_def, hbyte]

def trackedStore : StatusStore where
  creds := ⟨[{ id := 5, orgID := 1, statusListID := some 3, statusIndex := some 9 }], List.nodup_singleton _⟩
  lists := ⟨[⟨3, encodeStatusBits verbatimCodec (List.replicate (slotCount / 8) 0), 1⟩], List.nodup_singleton _⟩
  journal := []

theorem trackedStore_sound : StatusSound verbatimCodec trackedStore := by
  have hrow : ∀ c ∈ trackedStore.creds.list, c = { id := 5, orgID := 1, statusListID := some 3, statusIndex := some 9 } :=
    fun c hc => mem_singleton.mp hc
  constructor
  · intro c hc s hs
    cases hrow c hc
    cases hs
    decide
  · intro c hc c' hc' s _ _
    rw [hrow c hc, hrow c' hc']
  · intro c hc s hs
    cases hrow c hc
    cases hs
    refine (entryOf_mem (r := ⟨3, _, 1⟩) (mem_singleton_self _) 9).trans ?_
    rw [published_encode, fieldAt_of_zero fun b hb => eq_of_mem_replicate hb]
    rfl
  · intro c hc e he
    cases he
  · intro c hc hheld
    cases hrow c hc
    cases hheld
  · intro later e earlier heq
    cases later <;> cases heq

theorem credential_states_published_while_polled :
    StatusSound verbatimCodec trackedStore ∧ StatusInStep verbatimCodec
      (run (statusSystem verbatimCodec).step (TxnPool.init trackedStore)
        [.start 0 (.suspendIssuedCredential 5 "lost"), .start 1 .pollWalletStatusParents, .advance 0 {}, .advance 1 {}]).db
      (run (statusSystem verbatimCodec).step (TxnPool.init trackedStore)
        ([.start 0 (.suspendIssuedCredential 5 "lost"), .start 1 .pollWalletStatusParents, .advance 0 {}, .advance 1 {}] ++
          [.advance 0 {}, .advance 1 {}, .advance 0 {}, .advance 0 {}, .advance 0 {}, .advance 0 {}])).db :=
  ⟨trackedStore_sound, (credential_states_published trackedStore_sound _ _).1⟩

end Clavex
