import Mathlib.Data.Nat.Bitwise
import Mathlib.Data.List.Nodup

/-!
# Bits of byte strings

Bit `n` of a byte string is bit `n % 8` of its byte `n / 8`, the lowest one first.
-/

namespace Clavex

open List Nat

/-! ## One byte -/

def bitMask (j : Nat) : UInt8 := UInt8.ofNat (1 <<< j)

variable {j i n shift width : Nat} {bs : List UInt8} {α : Type} {val : UInt8}

theorem bitMask_toNat (hj : j < 8) : (bitMask j).toNat = 2 ^ j := by
  have hlt : 2 ^ j < 2 ^ 8 := Nat.pow_lt_pow_right (by decide) hj
  rw [bitMask, UInt8.toNat_ofNat', Nat.shiftLeft_eq, Nat.one_mul]
  exact mod_eq_of_lt hlt

variable (x : UInt8)

theorem and_bitMask_ne_zero (hj : j < 8) : (x &&& bitMask j != 0) = x.toNat.testBit j := by
  have hzero : x &&& bitMask j = 0 ↔ (x.toNat &&& 2 ^ j) = 0 := by
    rw [← UInt8.toNat_inj, UInt8.toNat_and, bitMask_toNat hj]
    rfl
  rw [and_two_pow] at hzero
  cases hbit : x.toNat.testBit j with
  | true | false => simpa [hbit] using hzero

theorem testBit_or_bitMask (hj : j < 8) :
    (x ||| bitMask j).toNat.testBit i = (x.toNat.testBit i || decide (j = i)) := by
  rw [UInt8.toNat_or, bitMask_toNat hj, testBit_or, testBit_two_pow]

def onesCount8 : Nat := (List.range 8).countP fun j => x.toNat.testBit j

/-! ## Byte strings -/

def bitAt (bs : List UInt8) (n : Nat) : Bool := (bs.getD (n / 8) 0).toNat.testBit (n % 8)

theorem bitAt_cons (b bs n) : bitAt (b :: bs) (8 + n) = bitAt bs n := by
  have hdiv : (8 + n) / 8 = n / 8 + 1 := by omega
  have hmod : (8 + n) % 8 = n % 8 := by omega
  rw [bitAt, hdiv, hmod, getD_cons_succ, bitAt]

theorem bitAt_cons_lt (b bs) (hn : n < 8) : bitAt (b :: bs) n = b.toNat.testBit n := by
  rw [bitAt, div_eq_of_lt hn, mod_eq_of_lt hn, getD_cons_zero]

theorem sum_onesCount8 (bs) : (bs.map onesCount8).sum = (range (8 * bs.length)).countP (bitAt bs) := by
  induction bs with
  | nil => rfl
  | cons b bs ih =>
    have hlow : (range 8).countP (bitAt (b :: bs)) = onesCount8 b := by
      apply countP_congr
      intro n hn
      rw [bitAt_cons_lt b bs (mem_range.mp hn)]
    have hhigh : ((range (8 * bs.length)).map (8 + ·)).countP (bitAt (b :: bs)) =
        (range (8 * bs.length)).countP (bitAt bs) := by
      rw [countP_map]
      apply countP_congr
      intro n _
      simp only [Function.comp, bitAt_cons]
    have hlen : 8 * (b :: bs).length = 8 + 8 * bs.length := by
      rw [length_cons]
      omega
    rw [map_cons, sum_cons, ih, hlen, range_add, countP_append, hlow, hhigh]

theorem getD_of_zero (h : ∀ b ∈ bs, b = 0) (n) : bs.getD n 0 = 0 := by
  rw [getD_eq_getElem?_getD]
  cases hget : bs[n]? with
  | none => rfl
  | some b => exact h b (mem_of_getElem? hget)

def setBit (bs : List UInt8) (n : Nat) : List UInt8 := bs.set (n / 8) (bs.getD (n / 8) 0 ||| bitMask (n % 8))

@[simp] theorem length_setBit (bs n) : (setBit bs n).length = bs.length := length_set

theorem getD_set {p} (hp : p < bs.length) (b q) : (bs.set p b).getD q 0 = if p = q then b else bs.getD q 0 := by
  rw [getD_eq_getElem?_getD, getElem?_set]
  by_cases hpq : p = q
  · rw [if_pos hpq, if_pos hpq, if_pos (hpq ▸ hp)]
    rfl
  · rw [if_neg hpq, if_neg hpq, getD_eq_getElem?_getD]

theorem bitAt_setBit (hn : n < 8 * bs.length) (m) : bitAt (setBit bs n) m = (bitAt bs m || decide (n = m)) := by
  have hp : n / 8 < bs.length := by omega
  rw [bitAt, setBit, getD_set hp]
  split
  · rename_i hdiv
    rw [testBit_or_bitMask _ (mod_lt n (by decide)), bitAt, hdiv]
    congr 1
    have hiff : n % 8 = m % 8 ↔ n = m := by omega
    simp only [hiff]
  · rename_i hdiv
    have hne : n ≠ m := fun heq => hdiv (heq ▸ rfl)
    rw [decide_eq_false hne, Bool.or_false, bitAt]

theorem countP_add_filter_not (p : α → Bool) (l : List α) :
    l.countP p + (l.filter fun a => !p a).length = l.length := by
  rw [← countP_eq_length_filter]
  simpa using (length_eq_countP_add_countP p).symm

theorem countP_or_eq [DecidableEq α] {p : α → Bool} {l : List α} (hl : l.Nodup) {a : α} (ha : a ∈ l)
    (hp : p a = false) : l.countP (fun b => p b || decide (a = b)) = l.countP p + 1 := by
  have hperm := perm_cons_erase ha
  rw [hperm.countP_eq, hperm.countP_eq p, countP_cons, countP_cons, hp, if_neg Bool.false_ne_true]
  have hrest : (l.erase a).countP (fun b => p b || decide (a = b)) = (l.erase a).countP p := by
    apply countP_congr
    intro b hb
    have hne : a ≠ b := fun heq => (hl.mem_erase_iff.mp hb).1 heq.symm
    rw [decide_eq_false hne, Bool.or_false]
  simp [hrest]

theorem sum_onesCount8_setBit (hn : n < 8 * bs.length) (hbit : bitAt bs n = false) :
    ((setBit bs n).map onesCount8).sum = (bs.map onesCount8).sum + 1 := by
  rw [sum_onesCount8, sum_onesCount8, length_setBit]
  have hset : (range (8 * bs.length)).countP (bitAt (setBit bs n)) =
      (range (8 * bs.length)).countP fun m => bitAt bs m || decide (n = m) := by
    apply countP_congr
    intro m _
    rw [bitAt_setBit hn]
  rw [hset]
  exact countP_or_eq nodup_range (mem_range.mpr hn) hbit

/-! ## Fields

A byte has `8 / width` fields of `width` bits, the lowest one first. -/

def fieldAt (bs : List UInt8) (width n : Nat) : Nat :=
  (bs.getD (n / (8 / width)) 0).toNat / 2 ^ (n % (8 / width) * width) % 2 ^ width

def fieldMask (width : Nat) : UInt8 := UInt8.ofNat (1 <<< width - 1)

def putField (width shift : Nat) (val : UInt8) : UInt8 :=
  (x &&& ~~~(fieldMask width <<< UInt8.ofNat shift)) ||| (val <<< UInt8.ofNat shift)

theorem ofNat_shift (h : shift < 8) : (UInt8.ofNat shift).toNat % 8 = shift := by
  have hlt : shift < 2 ^ 8 := by omega
  rw [UInt8.toNat_ofNat', mod_eq_of_lt hlt, mod_eq_of_lt h]

theorem testBit_shiftLeft_byte (hs : shift < 8) (hi : i < 8) :
    (x <<< UInt8.ofNat shift).toNat.testBit i = (decide (shift ≤ i) && x.toNat.testBit (i - shift)) := by
  rw [UInt8.toNat_shiftLeft, ofNat_shift hs, testBit_mod_two_pow, testBit_shiftLeft]
  simp [hi]

theorem testBit_not_byte (hi : i < 8) : (~~~x).toNat.testBit i = !x.toNat.testBit i := by
  have h := testBit_two_pow_sub_succ x.toNat_lt i
  rw [decide_eq_true hi, Bool.true_and] at h
  have hnot : (~~~x).toNat = 2 ^ 8 - (x.toNat + 1) := by
    rw [UInt8.toNat_not]
    show 256 - 1 - x.toNat = 256 - (x.toNat + 1)
    omega
  rw [hnot, h]

theorem testBit_fieldMask (hw : width ≤ 8) (i) : (fieldMask width).toNat.testBit i = decide (i < width) := by
  have hlt : 2 ^ width - 1 < 2 ^ 8 := by
    have hle : 2 ^ width ≤ 2 ^ 8 := Nat.pow_le_pow_right (by decide) hw
    omega
  rw [fieldMask, UInt8.toNat_ofNat', shiftLeft_eq, one_mul, mod_eq_of_lt hlt, testBit_two_pow_sub_one]

theorem testBit_putField (hw : shift + width ≤ 8) (hs : shift < 8) (hi : i < 8)
    (hval : val.toNat < 2 ^ width) : (putField x width shift val).toNat.testBit i =
      if shift ≤ i ∧ i < shift + width then val.toNat.testBit (i - shift) else x.toNat.testBit i := by
  have hwidth : width ≤ 8 := by omega
  rw [putField, UInt8.toNat_or, UInt8.toNat_and, testBit_or, testBit_and, testBit_not_byte _ hi,
    testBit_shiftLeft_byte _ hs hi, testBit_shiftLeft_byte _ hs hi, testBit_fieldMask hwidth]
  by_cases hlow : shift ≤ i
  · by_cases hhigh : i < shift + width
    · have hin : i - shift < width := by omega
      simp [hlow, hhigh, hin]
    · have hout : ¬ i - shift < width := by omega
      have hzero : val.toNat.testBit (i - shift) = false := by
        apply testBit_lt_two_pow
        exact lt_of_lt_of_le hval (Nat.pow_le_pow_right (by decide) (by omega))
      simp [hlow, hhigh, hout, hzero]
  · simp [hlow]

theorem putField_div {other} (hw : shift + width ≤ 8) (ho : other + width ≤ 8)
    (hwidth : 0 < width) (happart : other = shift ∨ other + width ≤ shift ∨ shift + width ≤ other) (hval : val.toNat < 2 ^ width) :
    (putField x width shift val).toNat / 2 ^ other % 2 ^ width =
      if other = shift then val.toNat else x.toNat / 2 ^ other % 2 ^ width := by
  apply eq_of_testBit_eq
  intro i
  rw [testBit_mod_two_pow, testBit_div_two_pow]
  by_cases hi : i < width
  · rw [testBit_putField x hw (by omega) (by omega) hval]
    split
    · rename_i hin
      have heq : other = shift := by omega
      simp [heq, hi]
    · rename_i hout
      have hne : other ≠ shift := by omega
      rw [if_neg hne, testBit_mod_two_pow, testBit_div_two_pow]
  · have hfalse : (if other = shift then val.toNat else x.toNat / 2 ^ other % 2 ^ width).testBit i = false := by
      apply testBit_lt_two_pow
      have hle : 2 ^ width ≤ 2 ^ i := Nat.pow_le_pow_right (by decide) (by omega)
      split
      · omega
      · exact lt_of_lt_of_le (Nat.mod_lt _ (Nat.two_pow_pos _)) hle
    rw [hfalse]
    simp [hi]

def setField (bs : List UInt8) (width n : Nat) (val : UInt8) : List UInt8 :=
  bs.set (n * width / 8) (putField (bs.getD (n * width / 8) 0) width (n * width % 8) val)

theorem field_place (hw : width ∣ 8) (n) :
    n * width / 8 = n / (8 / width) ∧ n * width % 8 = n % (8 / width) * width := by
  obtain ⟨k, hk⟩ := hw
  have hpos : 0 < width := Nat.pos_of_ne_zero fun h => by simp [h] at hk
  have hdiv : 8 / width = k := by rw [hk, Nat.mul_div_cancel_left _ hpos]
  rw [hdiv, hk, Nat.mul_comm n width]
  exact ⟨Nat.mul_div_mul_left _ _ hpos, by rw [Nat.mul_mod_mul_left, Nat.mul_comm]⟩

theorem fieldAt_setField (hw : width ∣ 8) (hn : n * width < 8 * bs.length)
    (hval : val.toNat < 2 ^ width) (m) :
    fieldAt (setField bs width n val) width m = if m = n then val.toNat else fieldAt bs width m := by
  obtain ⟨k, hk⟩ := id hw
  have hpos : 0 < width := Nat.pos_of_ne_zero fun h => by simp [h] at hk
  have hkpos : 0 < k := Nat.pos_of_ne_zero fun h => by simp [h] at hk
  have hdiv : 8 / width = k := by rw [hk, Nat.mul_div_cancel_left _ hpos]
  have hfits : ∀ j, j % k * width + width ≤ 8 := by
    intro j
    have hlt : j % k + 1 ≤ k := mod_lt j hkpos
    calc j % k * width + width = (j % k + 1) * width := by rw [add_mul, one_mul]
      _ ≤ k * width := mul_le_mul_right _ hlt
      _ = 8 := by rw [hk, mul_comm]
  have hp : n * width / 8 < bs.length := by omega
  unfold fieldAt setField
  rw [getD_set hp, (field_place hw n).1, (field_place hw n).2, hdiv]
  split
  · rename_i hbyte
    -- within the byte, fields are the same or apart
    have hplace : m % k * width = n % k * width ↔ m = n := by
      constructor
      · intro heq
        have hmod : m % k = n % k := eq_of_mul_eq_mul_right hpos heq
        rw [← div_add_mod m k, ← div_add_mod n k, hmod, hbyte]
      · intro heq
        rw [heq]
    have happart : m % k * width = n % k * width ∨ m % k * width + width ≤ n % k * width ∨
        n % k * width + width ≤ m % k * width := by
      rcases lt_trichotomy (m % k) (n % k) with hlt | heq | hlt
      · have hle := mul_le_mul_right width (succ_le_of_lt hlt)
        rw [succ_mul] at hle
        exact .inr (.inl hle)
      · exact .inl (by rw [heq])
      · have hle := mul_le_mul_right width (succ_le_of_lt hlt)
        rw [succ_mul] at hle
        exact .inr (.inr hle)
    rw [putField_div _ (hfits n) (hfits m) hpos happart hval, hbyte]
    simp only [hplace]
  · rename_i hbyte
    have hne : m ≠ n := fun heq => hbyte (heq ▸ rfl)
    rw [if_neg hne]

theorem fieldAt_of_zero (h : ∀ b ∈ bs, b = 0) (width n) : fieldAt bs width n = 0 := by
  rw [fieldAt, getD_of_zero h]
  simp

theorem fieldAt_one (bs n) : ((bs.getD (n / 8) 0 >>> UInt8.ofNat (n % 8)) &&& 1).toNat = fieldAt bs 1 n := by
  rw [UInt8.toNat_and, UInt8.toNat_shiftRight, ofNat_shift (mod_lt n (by decide)), shiftRight_eq_div_pow]
  show _ &&& 1 = _
  rw [and_one_is_mod, fieldAt]
  simp

end Clavex
