import Clavex.Models
import Clavex.Trace
import Mathlib.Logic.Function.Basic

/-!
# Subscriptions to credential states

`CredStatusDispatcher` keeps the channels of subscribers under the credentials they watch. `Publish`
copies a list under the lock and sends after its release; `cancel` takes its channel out of the
lists under the lock and closes it after its release.
-/

namespace Clavex

open List Function

inductive ChannelPanic where
  | sendOnClosed (ch : Nat)
  | closeOfClosed (ch : Nat)
  deriving DecidableEq

/-- The channel of the `n`th subscription is `n`. `leaving` are those between the two halves of
`cancel`, `sending` what is left of the copies of each `Publish`. -/
structure CredStatusDispatcher where
  subs : UUID → List Nat := fun _ => []
  subscribed : List (List UUID) := []
  (once closed : Nat → Bool := fun _ => false)
  leaving : List Nat := []
  sending : List (List Nat) := []
  panics : List ChannelPanic := []

inductive HubStep where
  | subscribe (credentialIDs : List UUID)
  | cancel (ch : Nat)
  | close (ch : Nat)
  | publish (credentialID : UUID)
  | send (i : Nat)

def forEach (f : List Nat → List Nat) (ids : List UUID) (subs : UUID → List Nat) : UUID → List Nat :=
  ids.foldl (fun subs id => update subs id (f (subs id))) subs

namespace CredStatusDispatcher

def send (s : CredStatusDispatcher) (ch : Nat) : CredStatusDispatcher :=
  if s.closed ch then { s with panics := .sendOnClosed ch :: s.panics } else s

def close (s : CredStatusDispatcher) (ch : Nat) : CredStatusDispatcher :=
  if s.closed ch then { s with panics := .closeOfClosed ch :: s.panics }
  else { s with closed := update s.closed ch true }

def step (s : CredStatusDispatcher) : HubStep → CredStatusDispatcher
  | .subscribe ids =>
    { s with
      subs := forEach (· ++ [s.subscribed.length]) ids s.subs
      subscribed := s.subscribed ++ [ids] }
  | .cancel ch =>
    match s.subscribed[ch]? with
    | none => s
    | some ids =>
      if s.once ch then s
      else { s with once := update s.once ch true, subs := forEach (·.erase ch) ids s.subs, leaving := ch :: s.leaving }
  | .close ch => if ch ∈ s.leaving then { s with leaving := s.leaving.erase ch }.close ch else s
  | .publish id => { s with sending := s.subs id :: s.sending }
  | .send i =>
    match s.sending[i]? with
    | some (ch :: rest) => { s with sending := s.sending.set i rest }.send ch
    | _ => s

/-- A channel is closed when no copy of the lists has it. -/
def settled (s : CredStatusDispatcher) : HubStep → Bool
  | .close ch => s.sending.all fun l => ch ∉ l
  | _ => true

/-! ## Lists of channels -/

variable {ids : List UUID} {subs : UUID → List Nat} {id : UUID} {n ch : Nat}

theorem count_subscribe : (forEach (· ++ [n]) ids subs id).count ch =
    (subs id).count ch + if ch = n then ids.count id else 0 := by
  unfold forEach
  induction ids generalizing subs with
  | nil => simp
  | cons a ids ih => by_cases ha : a = id <;> by_cases hc : ch = n <;> simp [ih, ha, hc] <;> grind

theorem count_cancel : (forEach (·.erase n) ids subs id).count ch =
    (subs id).count ch - if ch = n then ids.count id else 0 := by
  unfold forEach
  induction ids generalizing subs with
  | nil => simp
  | cons a ids ih => by_cases ha : a = id <;> by_cases hc : ch = n <;> simp [ih, update_apply, ha, hc] <;> grind

/-! ## Runs -/

/-- The lists have a channel at most as often as it was subscribed, and not at all once `cancel`
has begun. With `safe`, copies have open channels only. -/
structure Inv (safe : Prop) (s : CredStatusDispatcher) : Prop where
  nodup : s.leaving.Nodup
  leaving : ∀ ch ∈ s.leaving, s.once ch = true ∧ s.closed ch = false
  closed : ∀ ch, s.closed ch = true → s.once ch = true
  fresh : ∀ ch, s.once ch = true → ch < s.subscribed.length
  listed : ∀ ch id, (s.subs id).count ch ≤ if s.once ch then 0 else ((s.subscribed[ch]?).getD []).count id
  sending : safe → ∀ l ∈ s.sending, ∀ ch ∈ l, s.closed ch = false
  panics : ∀ p ∈ s.panics, ¬ safe ∧ ∃ ch, p = .sendOnClosed ch

variable {safe : Prop} {s : CredStatusDispatcher}

theorem Inv.publish (h : Inv safe s) (hch : ch ∈ s.subs id) : s.closed ch = false := by
  have hlisted := h.listed ch id
  have hpos := count_pos_iff.mpr hch
  grind [h.closed ch]

theorem Inv.close (h : Inv safe s) (hch : ch ∈ s.leaving) (hok : safe → ∀ l ∈ s.sending, ch ∉ l) :
    Inv safe ({ s with leaving := s.leaving.erase ch }.close ch) := by
  have hopen := (h.leaving ch hch).2
  rw [CredStatusDispatcher.close, if_neg (by simp [hopen])]
  have hleaving := h.leaving
  have hnodup := h.nodup
  refine { h with nodup := hnodup.erase ch, leaving := ?_, closed := ?_, sending := fun hsafe => ?_ }
  · grind [Nodup.mem_erase_iff]
  · grind [h.closed]
  · grind [h.sending hsafe, hok hsafe]

theorem Inv.send {i rest} (h : Inv safe s) (hl : s.sending[i]? = some (ch :: rest)) :
    Inv safe ({ s with sending := s.sending.set i rest }.send ch) := by
  have hmem := mem_of_getElem? hl
  have hrest : safe → ∀ l ∈ s.sending.set i rest, ∀ c ∈ l, s.closed c = false := by
    intro hsafe
    have hsending := h.sending hsafe
    grind [mem_or_eq_of_mem_set]
  unfold CredStatusDispatcher.send
  split
  · refine { h with sending := hrest, panics := forall_mem_cons.mpr ⟨⟨fun hsafe => ?_, ch, rfl⟩, h.panics⟩ }
    have hopen := h.sending hsafe _ hmem ch (mem_cons_self ..)
    simp_all
  · exact { h with sending := hrest }

theorem Inv.step (h : Inv safe s) {a} (hok : safe → s.settled a = true) : Inv safe (s.step a) := by
  cases a with
  | subscribe ids =>
    refine { h with fresh := fun ch hch => ?_, listed := fun ch id => ?_ }
    · have hlt := h.fresh ch hch
      simp only [CredStatusDispatcher.step, length_append]
      omega
    · have hlisted := h.listed ch id
      have hfresh := h.fresh ch
      simp only [CredStatusDispatcher.step, count_subscribe]
      grind
  | cancel ch =>
    simp only [CredStatusDispatcher.step]
    split
    · exact h
    split
    · exact h
    obtain ⟨hnodup, hleaving, hclosed, hfresh, hlisted, hsending, hpanics⟩ := h
    refine ⟨by grind, by grind, by grind, by grind, fun c id => ?_, hsending, hpanics⟩
    rw [count_cancel]
    grind [hlisted c id]
  | close ch =>
    simp only [CredStatusDispatcher.step]
    split
    · rename_i hch
      exact h.close hch fun hsafe => by simpa [settled] using hok hsafe
    · exact h
  | publish id =>
    exact { h with sending := fun hsafe => forall_mem_cons.mpr ⟨fun ch hch => h.publish hch, h.sending hsafe⟩ }
  | send i =>
    simp only [CredStatusDispatcher.step]
    split
    · exact h.send ‹_›
    · exact h

/-- In every run no channel is closed twice, and nothing is sent on a closed one as long as
channels are closed while no copy has them. -/
theorem no_channel_panics (as : List HubStep) :
    (∀ ch, .closeOfClosed ch ∉ (run step {} as).panics) ∧
    (checkRun step (settled · · = true) {} as = true → (run step {} as).panics = []) := by
  have hinit : ∀ safe, Inv safe {} := fun _ => ⟨nodup_nil, by simp, by simp, by simp, by simp, by simp, by simp⟩
  refine ⟨fun ch hch => ?_, fun hok => ?_⟩
  · have hrun : Trace step (fun _ _ => True) {} as (run step {} as) := Trace.run_always (fun _ _ => trivial) _ as
    obtain ⟨-, _, heq⟩ := (hrun.inv _ (fun s a hs _ => hs.step False.elim) (hinit False)).panics _ hch
    cases heq
  · have hinv := (Trace.of_checkRun hok).inv _ (fun s a hs hok => hs.step fun _ => hok) (hinit True)
    exact eq_nil_iff_forall_not_mem.mpr fun p hp => (hinv.panics p hp).1 trivial

theorem send_on_closed_channel :
    (run step {} [.subscribe [1], .publish 1, .cancel 0, .close 0, .send 0]).panics = [.sendOnClosed 0] := by
  decide

end CredStatusDispatcher

end Clavex
