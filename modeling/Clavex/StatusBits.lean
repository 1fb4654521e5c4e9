import Clavex.CredentialStateSound

/-!
# Packed status entries

The `StatusList` of `statuslist.go`, which an issuer sets, encodes and decodes, and the reading of the
same bytes by `ValidatedStatusList.Check`. Entries of 1, 2, 4 or 8 bits are packed from the low end.
-/

namespace Clavex

open List Nat

namespace LocalList

def newStatusListWithBits (width : Nat) : Option StatusBitList :=
  if width ≠ 1 ∧ width ≠ 2 ∧ width ≠ 4 ∧ width ≠ 8 then none else some ⟨replicate (slotCount * width / 8) 0, width⟩

/-- `std` is base64 with padding, which is tried second. -/
def decodeStatusListWithBits (C : StatusCodec) (std : String → Option Bytes) (encoded : String) (width : Nat) :
    Except CredentialError StatusBitList :=
  if (newStatusListWithBits width).isNone then .error (.message "unsupported local status width")
  else if encoded.utf8ByteSize > 128 * 1024 then .error (.message "local status list exceeds size limit")
  else
    match (C.decodeBase64 encoded).or (std encoded) with
    | none => .error .library
    | some compressed =>
      match C.readAll (slotCount * width / 8 + 1) compressed with
      | none => .error .library
      | some bits =>
        if bits.length ≠ slotCount * width / 8 then .error (.message "status list: invalid local list size")
        else .ok ⟨bits, width⟩

def get (sl : StatusBitList) (index : Int) : Except CredentialError UInt8 :=
  if sl.width < 1 ∨ index < 0 ∨ slotCount ≤ index ∨ sl.bits.length ≤ index.toNat * sl.width / 8 then
    .error (.message "status list index out of range")
  else .ok ((sl.bits.getD (index.toNat * sl.width / 8) 0 >>> UInt8.ofNat (index.toNat * sl.width % 8)) &&& fieldMask sl.width)

def set (sl : StatusBitList) (index : Int) (val : UInt8) : Except CredentialError StatusBitList :=
  match get sl index with
  | .error e => .error e
  | .ok _ =>
    if val.toNat > (fieldMask sl.width).toNat then .error (.message "status does not fit list width")
    else .ok { sl with bits := setField sl.bits sl.width index.toNat val }

/-- A `Set` that is refused changes nothing. -/
def setAll (sl : StatusBitList) (calls : List (Int × UInt8)) : StatusBitList :=
  calls.foldl (fun sl c => (set sl c.1 c.2).toOption.getD sl) sl

def lastSet (width : Nat) (calls : List (Int × UInt8)) (index : Int) : Nat :=
  ((calls.reverse.find? fun c => c.1 = index ∧ c.2.toNat < 2 ^ width).map (·.2.toNat)).getD 0

variable {sl sl' : StatusBitList} {n width : Nat}

theorem fieldMask_toNat (hw : width ≤ 8) : (fieldMask width).toNat = 2 ^ width - 1 := by
  refine eq_of_testBit_eq fun i => ?_
  rw [testBit_fieldMask hw, testBit_two_pow_sub_one]

theorem get_field (h : sl.Sized) (hn : n < slotCount) : ∃ v, get sl n = .ok v ∧ v.toNat = fieldAt sl.bits sl.width n := by
  have hpos : 0 < sl.width := pos_of_dvd_of_pos h.width (by decide)
  have hplace : n * sl.width < 8 * sl.bits.length := by
    rw [h.bits]
    exact Nat.mul_lt_mul_of_pos_right hn hpos
  unfold get
  rw [Int.toNat_natCast, if_neg (by omega)]
  refine ⟨_, rfl, ?_⟩
  rw [UInt8.toNat_and, UInt8.toNat_shiftRight, ofNat_shift (mod_lt _ (by decide)),
    fieldMask_toNat (le_of_dvd (by decide) h.width), and_two_pow_sub_one_eq_mod, shiftRight_eq_div_pow]
  obtain ⟨hdiv, hmod⟩ := field_place h.width n
  rw [hdiv, hmod, fieldAt]

theorem set_step (h : sl.Sized) (index) (val) (hsl' : sl' = (set sl index val).toOption.getD sl) :
    sl'.Sized ∧ sl'.width = sl.width ∧ ∀ m < slotCount, fieldAt sl'.bits sl'.width m =
      if index = m ∧ val.toNat < 2 ^ sl.width then val.toNat else fieldAt sl.bits sl.width m := by
  have hpow := Nat.two_pow_pos sl.width
  unfold set at hsl'
  rw [fieldMask_toNat (le_of_dvd (by decide) h.width)] at hsl'
  cases hget : get sl index with
  | error e =>
    rw [hget] at hsl'
    subst hsl'
    refine ⟨h, rfl, fun m hm => (if_neg ?_).symm⟩
    intro ⟨hindex, _⟩
    obtain ⟨v, hv, -⟩ := get_field h hm
    rw [hindex, hv] at hget
    cases hget
  | ok v =>
    rw [hget] at hsl'
    by_cases hval : val.toNat < 2 ^ sl.width
    · obtain ⟨n, hn, rfl⟩ : ∃ n < slotCount, index = ((n : Nat) : Int) := by
        unfold get at hget
        split at hget
        · cases hget
        · exact ⟨index.toNat, by omega, by omega⟩
      rw [if_neg (by omega)] at hsl'
      obtain ⟨hsized, hwidth, hfield⟩ := h.set (StatusBitList.set_eq_ok.mpr ⟨hn, hval, hsl'⟩)
      refine ⟨hsized, hwidth, fun m _ => ?_⟩
      have hiff : m = n ↔ (n : Int) = m ∧ val.toNat < 2 ^ sl.width := by omega
      simp only [hfield m, hiff]
    · rw [if_pos (by omega)] at hsl'
      subst hsl'
      exact ⟨h, rfl, fun m _ => by simp [hval]⟩

theorem setAll_field (h : sl.Sized) (hzero : ∀ m, fieldAt sl.bits sl.width m = 0) (calls) :
    (setAll sl calls).Sized ∧ (setAll sl calls).width = sl.width ∧
      ∀ m < slotCount, fieldAt (setAll sl calls).bits sl.width m = lastSet sl.width calls m := by
  induction calls using List.reverseRecOn with
  | nil => exact ⟨h, rfl, fun m _ => hzero m⟩
  | append_singleton calls c ih =>
    obtain ⟨hsized, hwidth, hfield⟩ := ih
    obtain ⟨hsized', hwidth', hfield'⟩ := set_step hsized c.1 c.2 rfl
    have hstep : setAll sl (calls ++ [c]) = (set (setAll sl calls) c.1 c.2).toOption.getD (setAll sl calls) := by
      simp [setAll]
    rw [hstep]
    refine ⟨hsized', hwidth'.trans hwidth, fun m hm => ?_⟩
    have hm' := hfield' m hm
    rw [hwidth', hwidth, hfield m hm] at hm'
    rw [hm']
    unfold lastSet
    rw [reverse_append, reverse_singleton, singleton_append, find?_cons]
    by_cases hc : c.1 = m ∧ c.2.toNat < 2 ^ sl.width <;> simp [hc]

theorem decode_encode {C} {std} (h : sl.Sized)
    (hnew : newStatusListWithBits sl.width = some sl') (hsize : (encodeStatusBits C sl.bits).utf8ByteSize ≤ 128 * 1024) :
    decodeStatusListWithBits C std (encodeStatusBits C sl.bits) sl.width = .ok sl := by
  have hread : C.readAll (slotCount * sl.width / 8 + 1) (C.deflate sl.bits) = some sl.bits := by
    simp [StatusCodec.readAll, C.inflate_deflate, h.size]
  unfold decodeStatusListWithBits
  rw [hnew, if_neg (by simp), if_neg (by omega), encodeStatusBits, C.decode_encode]
  simp [hread, h.size]

def statusOf : Nat → Except StatusError Unit
  | 0 => .ok ()
  | 1 => .error .revoked
  | 2 => .error .suspended
  | _ => .error .unknown

/-- What was set last is what the issuer and the verifier read, through the encoding and for every
entry. -/
theorem last_set_read (C : StatusCodec) (std : String → Option Bytes) (hnew : newStatusListWithBits width = some sl)
    (calls : List (Int × UInt8)) (freshUntil : Int) :
    ((encodeStatusBits C (setAll sl calls).bits).utf8ByteSize ≤ 128 * 1024 →
      decodeStatusListWithBits C std (encodeStatusBits C (setAll sl calls).bits) width = .ok (setAll sl calls)) ∧
    ∀ n < slotCount, (get (setAll sl calls) n).map (·.toNat) = .ok (lastSet width calls n) ∧
      ValidatedStatusList.check ⟨width, (setAll sl calls).bits, freshUntil⟩ n = statusOf (lastSet width calls n) := by
  have hstart : sl.Sized ∧ sl.width = width ∧ (∀ m, fieldAt sl.bits sl.width m = 0) ∧ width ∈ statusWidths := by
    unfold newStatusListWithBits at hnew
    split at hnew
    · cases hnew
    · cases hnew
      have hcases : width = 1 ∨ width = 2 ∨ width = 4 ∨ width = 8 := by omega
      refine ⟨⟨?_, length_replicate⟩, rfl, fun m => fieldAt_of_zero (fun b hb => eq_of_mem_replicate hb) _ m, ?_⟩ <;>
        rcases hcases with rfl | rfl | rfl | rfl <;> decide
  obtain ⟨hsized, rfl, hzero, hwidths⟩ := hstart
  obtain ⟨hs, hwidth, hfield⟩ := setAll_field hsized hzero calls
  refine ⟨fun hsize => ?_, fun n hn => ⟨?_, ?_⟩⟩
  · rw [← hwidth] at hnew ⊢
    exact decode_encode hs hnew hsize
  · obtain ⟨v, hv, hfield'⟩ := get_field hs hn
    rw [hv, ← hfield n hn, ← hwidth, ← hfield']
    rfl
  · have hrange : (setAll sl calls).bits.length * (8 / sl.width) = slotCount := by
      rw [hs.size, hwidth]
      revert hwidths
      generalize sl.width = width
      decide +revert
    unfold ValidatedStatusList.check ValidatedStatusList.entry
    have hentry := hfield n hn
    unfold fieldAt at hentry
    simp only [Int.toNat_natCast]
    rw [if_neg (by simpa using hwidths), if_neg (by omega), hentry]
    rfl

theorem utf8ByteSize_le (l) : (String.ofList l).utf8ByteSize ≤ 4 * l.length := by
  induction l with
  | nil => simp
  | cons c l ih =>
    have hc : (String.ofList [c]).utf8ByteSize ≤ 4 := by simpa using c.utf8Size_le_four
    rw [← singleton_append, String.ofList_append, String.utf8ByteSize_append, length_append, length_singleton]
    omega

theorem last_set_read_suspended :
    ∃ sl, newStatusListWithBits 2 = some sl ∧
      decodeStatusListWithBits verbatimCodec (fun _ => none)
        (encodeStatusBits verbatimCodec (setAll sl [(3, 1), (3, 2)]).bits) 2 = .ok (setAll sl [(3, 1), (3, 2)]) ∧
      ∀ n < slotCount, (get (setAll sl [(3, 1), (3, 2)]) n).map (·.toNat) = .ok (lastSet 2 [(3, 1), (3, 2)] n) := by
  have hread := last_set_read verbatimCodec (fun _ => none) (rfl : newStatusListWithBits 2 = some _) [(3, 1), (3, 2)] 0
  refine ⟨_, rfl, hread.1 ((utf8ByteSize_le _).trans ?_), fun n hn => (hread.2 n hn).1⟩
  rw [length_map]
  decide +kernel

end LocalList

end Clavex
