import Clavex.Rows
import Mathlib.Algebra.GroupWithZero.Nat
import Mathlib.Algebra.BigOperators.Group.List.Basic

/-!
# A bounded cache with shared loads

Items are kept under their key until a deadline, within a number of entries and of bytes.
A key that is missing is loaded once, for all who ask for it meanwhile; the loads in flight
are bounded in all and for each scope. Each operation is one critical section. `Exact` says
that the counters are what they count.
-/

namespace Clavex

open List Function Rows

structure Cached (κ V : Type) where
  key : κ
  item : V
  size : Nat
  (deadline lastUse : Int)

structure Flight (κ S : Type) where
  key : κ
  scope : S
  id : Nat
  deriving DecidableEq

structure Loaded (V : Type) where
  item : V
  size : Nat
  (deadline lastUse : Int)

structure LoadLimits where
  (entries bytes flights perScope : Nat)

/-- `outcomes` are the loads that have ended, as those who wait for them see it. -/
structure Loader (κ S V ε : Type) where
  cache : Rows fun c : Cached κ V => c.key
  flights : Rows fun f : Flight κ S => f.key
  perScope : S → Int
  cacheBytes : Int
  outcomes : List (Flight κ S × Except ε V)
  nextFlight : Nat

inductive Admission (κ S V : Type) where
  | hit (c : Cached κ V)
  | wait (f : Flight κ S)
  | busy
  | opened (f : Flight κ S)

namespace Loader

variable {κ S V ε : Type} [DecidableEq κ] [DecidableEq S]

def empty : Loader κ S V ε := ⟨.empty, .empty, fun _ => 0, 0, [], 0⟩

/-! ## Asking -/

def drop (s : Loader κ S V ε) (c : Cached κ V) : Loader κ S V ε :=
  { s with cache := s.cache.delete (fun b => b.key = c.key), cacheBytes := s.cacheBytes - c.size }

def touch (s : Loader κ S V ε) (k : κ) (now : Int) : Loader κ S V ε :=
  { s with cache := s.cache.modify (fun b => b.key = k) (fun b => { b with lastUse := now }) fun _ => rfl }

def openFlight (s : Loader κ S V ε) (k : κ) (scope : S) : Loader κ S V ε :=
  { s with
    flights := s.flights.set ⟨k, scope, s.nextFlight⟩
    perScope := Function.update s.perScope scope (s.perScope scope + 1)
    nextFlight := s.nextFlight + 1 }

def join (lim : LoadLimits) (s : Loader κ S V ε) (k : κ) (scope : S) : Admission κ S V × Loader κ S V ε :=
  match s.flights.find fun f => f.key = k with
  | some f => (.wait f, s)
  | none =>
    if lim.flights ≤ s.flights.list.length ∨ lim.perScope ≤ s.perScope scope then (.busy, s)
    else (.opened ⟨k, scope, s.nextFlight⟩, s.openFlight k scope)

def enter (lim : LoadLimits) (s : Loader κ S V ε) (k : κ) (scope : S) (now : Int) :
    Admission κ S V × Loader κ S V ε :=
  match s.cache.find fun c => c.key = k with
  | some c => if now < c.deadline then (.hit c, s.touch k now) else join lim (s.drop c) k scope
  | none => join lim s k scope

/-! ## Making room -/

def oldest (l : List (Cached κ V)) : Option (Cached κ V) :=
  l.foldl (fun old c =>
    match old with
    | none => some c
    | some b => if c.lastUse < b.lastUse then some c else some b) none

def evictLoop (lim : LoadLimits) (ord : MapOrder (Cached κ V)) (size : Nat) :
    Nat → Loader κ S V ε → Bool × Loader κ S V ε
  | 0, s => (false, s)
  | fuel + 1, s =>
    if lim.entries ≤ s.cache.list.length ∨ lim.bytes < s.cacheBytes + size then
      match oldest (ord.range fuel s.cache.list) with
      | none => (false, s)
      | some c => evictLoop lim ord size fuel (s.drop c)
    else (true, s)

def evictFor (lim : LoadLimits) (ord : MapOrder (Cached κ V)) (size : Nat) (s : Loader κ S V ε) :
    Bool × Loader κ S V ε :=
  if lim.bytes < size then (false, s) else evictLoop lim ord size (s.cache.list.length + 1) s

/-! ## Delivering -/

def closeFlight (s : Loader κ S V ε) (f : Flight κ S) (r : Except ε V) : Loader κ S V ε :=
  { s with
    flights := s.flights.delete fun g => g.key = f.key
    perScope := Function.update s.perScope f.scope (s.perScope f.scope - 1)
    outcomes := (f, r) :: s.outcomes }

def keep (s : Loader κ S V ε) (k : κ) (l : Loaded V) : Loader κ S V ε :=
  { s with cache := s.cache.set ⟨k, l.item, l.size, l.deadline, l.lastUse⟩, cacheBytes := s.cacheBytes + l.size }

def leave (lim : LoadLimits) (ord : MapOrder (Cached κ V)) (s : Loader κ S V ε) (f : Flight κ S) (now : Int)
    (r : Except ε (Loaded V)) : Loader κ S V ε :=
  match r with
  | .error e => s.closeFlight f (.error e)
  | .ok l =>
    if now < l.deadline then
      match evictFor lim ord l.size (s.closeFlight f (.ok l.item)) with
      | (true, s') => s'.keep f.key l
      | (false, s') => s'
    else s.closeFlight f (.ok l.item)

def outcome (s : Loader κ S V ε) (f : Flight κ S) : Option (Except ε V) :=
  (s.outcomes.find? fun o => decide (o.1 = f)).map (·.2)

/-! ## Exact counters -/

structure Exact (lim : LoadLimits) (s : Loader κ S V ε) : Prop where
  bytes : s.cacheBytes = ((s.cache.list.map (·.size)).sum : Nat)
  bytes_le : s.cacheBytes ≤ lim.bytes
  entries_le : s.cache.list.length ≤ lim.entries
  scope : ∀ sc, s.perScope sc = (s.flights.list.countP fun f => f.scope = sc : Nat)
  scope_le : ∀ sc, s.perScope sc ≤ lim.perScope
  flights_le : s.flights.list.length ≤ lim.flights
  apart : ∀ f ∈ s.flights.list, ∀ c ∈ s.cache.list, c.key ≠ f.key

variable {lim : LoadLimits} {s : Loader κ S V ε}

omit [DecidableEq κ] in
theorem Exact.empty : Exact lim (empty : Loader κ S V ε) where
  bytes := rfl
  bytes_le := Int.natCast_nonneg _
  entries_le := Nat.zero_le _
  scope := fun _ => rfl
  scope_le := fun _ => Int.natCast_nonneg _
  flights_le := Nat.zero_le _
  apart := nofun

variable {c : Cached κ V} {k : κ} {f : Flight κ S} {r : Except ε V}

theorem Exact.drop (h : Exact lim s) (hc : c ∈ s.cache.list) : Exact lim (s.drop c) := by
  have hp := perm_delete hc
  have hsum : (s.cache.list.map (·.size)).sum = c.size + ((s.drop c).cache.list.map (·.size)).sum := by
    rw [(hp.map _).sum_eq, map_cons, sum_cons]
    rfl
  have hlen : s.cache.list.length = (s.drop c).cache.list.length + 1 := hp.length_eq
  have hbytes : (s.drop c).cacheBytes = (((s.drop c).cache.list.map (·.size)).sum : Nat) := by
    have hb := h.bytes
    show s.cacheBytes - c.size = _
    omega
  refine ⟨hbytes, ?_, ?_, h.scope, h.scope_le, h.flights_le, ?_⟩
  · have hle := h.bytes_le
    show s.cacheBytes - c.size ≤ lim.bytes
    omega
  · have hle := h.entries_le
    omega
  · intro f hf b hb
    exact h.apart f hf b (mem_delete.mp hb).1

omit [DecidableEq S] in
theorem mem_touch {now} {b} (hb : b ∈ (s.touch k now).cache.list) :
    ∃ c ∈ s.cache.list, b = { c with lastUse := b.lastUse } := by
  obtain ⟨c, hc, rfl⟩ := mem_map.mp hb
  refine ⟨c, hc, ?_⟩
  split
  · rfl
  · rfl

theorem Exact.touch (h : Exact lim s) (k now) : Exact lim (s.touch k now) := by
  have hsize : (s.touch k now).cache.list.map (·.size) = s.cache.list.map (·.size) := by
    show (s.cache.list.map _).map _ = _
    rw [map_map]
    refine map_congr_left fun c _ => ?_
    simp only [comp]
    split <;> rfl
  refine ⟨?_, h.bytes_le, ?_, h.scope, h.scope_le, h.flights_le, ?_⟩
  · rw [hsize]
    exact h.bytes
  · show (s.cache.list.map _).length ≤ lim.entries
    rw [length_map]
    exact h.entries_le
  · intro f hf b hb
    obtain ⟨c, hc, heq⟩ := mem_touch hb
    rw [heq]
    exact h.apart f hf c hc

theorem openFlight_list (hk : ∀ f ∈ s.flights.list, f.key ≠ k) (scope) :
    (s.openFlight k scope).flights.list = ⟨k, scope, s.nextFlight⟩ :: s.flights.list := set_list hk

theorem Exact.openFlight (h : Exact lim s) {scope} (hk : ∀ f ∈ s.flights.list, f.key ≠ k)
    (hc : ∀ c ∈ s.cache.list, c.key ≠ k) (hfree : s.flights.list.length < lim.flights)
    (hscope : s.perScope scope < lim.perScope) : Exact lim (s.openFlight k scope) := by
  have hl := openFlight_list hk scope
  refine ⟨h.bytes, h.bytes_le, h.entries_le, ?_, ?_, ?_, ?_⟩
  · intro sc
    rw [hl, countP_cons]
    show update s.perScope scope (s.perScope scope + 1) sc = _
    by_cases hsc : sc = scope
    · subst hsc
      rw [update_self, h.scope sc]
      simp
    · rw [update_of_ne hsc, h.scope sc]
      simp [Ne.symm hsc]
  · intro sc
    show update s.perScope scope (s.perScope scope + 1) sc ≤ _
    by_cases hsc : sc = scope
    · subst hsc
      rw [update_self]
      omega
    · rw [update_of_ne hsc]
      exact h.scope_le sc
  · rw [hl]
    exact hfree
  · intro f hf c hcc
    rw [hl] at hf
    rcases mem_cons.mp hf with rfl | hf
    · exact hc c hcc
    · exact h.apart f hf c hcc

theorem join_cases (lim : LoadLimits) (s : Loader κ S V ε) (k : κ) (scope : S) :
    (∃ f ∈ s.flights.list, f.key = k ∧ s.join lim k scope = (.wait f, s)) ∨ s.join lim k scope = (.busy, s) ∨
      (∀ f ∈ s.flights.list, f.key ≠ k) ∧ s.flights.list.length < lim.flights ∧ s.perScope scope < lim.perScope ∧
        s.join lim k scope = (.opened ⟨k, scope, s.nextFlight⟩, s.openFlight k scope) := by
  unfold join
  split
  · rename_i f hf
    obtain ⟨hmem, hk⟩ := find_some hf
    exact .inl ⟨f, hmem, of_decide_eq_true hk, rfl⟩
  · rename_i hf
    split
    · exact .inr (.inl rfl)
    · rename_i hfull
      rw [not_or] at hfull
      exact .inr (.inr ⟨fun f hmem => of_decide_eq_false (find_none hf f hmem), Nat.lt_of_not_le hfull.1, Int.lt_of_not_ge hfull.2, rfl⟩)

theorem enter_cases (lim : LoadLimits) (s : Loader κ S V ε) (k : κ) (scope : S) (now : Int) :
    (∃ c ∈ s.cache.list, c.key = k ∧ now < c.deadline ∧ s.enter lim k scope now = (.hit c, s.touch k now)) ∨
      (∃ c ∈ s.cache.list, c.key = k ∧ s.enter lim k scope now = (s.drop c).join lim k scope) ∨
      (∀ c ∈ s.cache.list, c.key ≠ k) ∧ s.enter lim k scope now = s.join lim k scope := by
  unfold enter
  split
  · rename_i c hc
    obtain ⟨hmem, hk⟩ := find_some hc
    split
    · rename_i hlt
      exact .inl ⟨c, hmem, of_decide_eq_true hk, hlt, rfl⟩
    · exact .inr (.inl ⟨c, hmem, of_decide_eq_true hk, rfl⟩)
  · rename_i hc
    exact .inr (.inr ⟨fun c hmem => of_decide_eq_false (find_none hc c hmem), rfl⟩)

theorem Exact.join (h : Exact lim s) (scope : S) (hc : ∀ c ∈ s.cache.list, c.key ≠ k) :
    Exact lim (s.join lim k scope).2 := by
  rcases join_cases lim s k scope with ⟨f, -, -, heq⟩ | heq | ⟨hk, hfree, hscope, heq⟩ <;> rw [heq]
  · exact h
  · exact h
  · exact h.openFlight hk hc hfree hscope

omit [DecidableEq S] in
theorem drop_notMem (hk : c.key = k) : ∀ b ∈ (s.drop c).cache.list, b.key ≠ k := by
  intro b hb
  have hne := (mem_delete.mp hb).2
  rw [hk] at hne
  exact of_decide_eq_false hne

theorem Exact.enter (h : Exact lim s) (k scope now) : Exact lim (s.enter lim k scope now).2 := by
  rcases enter_cases lim s k scope now with ⟨c, -, -, -, heq⟩ | ⟨c, hc, hk, heq⟩ | ⟨hc, heq⟩ <;> rw [heq]
  · exact h.touch k now
  · exact (h.drop hc).join scope (drop_notMem hk)
  · exact h.join scope hc

omit [DecidableEq κ] in
theorem oldest_mem {l} (h : oldest l = some c) : c ∈ l := by
  have hinv : ∀ (l : List (Cached κ V)) (old : Option (Cached κ V)),
      l.foldl (fun old c =>
        match old with
        | none => some c
        | some b => if c.lastUse < b.lastUse then some c else some b) old = some c → c ∈ l ∨ old = some c := by
    intro l
    induction l with
    | nil => exact fun old h => .inr h
    | cons a l ih =>
      intro old h
      rcases ih _ h with hmem | hnew
      · exact .inl (mem_cons_of_mem _ hmem)
      · cases old with
        | none =>
          cases hnew
          exact .inl (mem_cons_self ..)
        | some b =>
          dsimp only at hnew
          split at hnew
          · cases hnew
            exact .inl (mem_cons_self ..)
          · exact .inr hnew
  exact (hinv l none h).resolve_right nofun

structure Shrunk (s s' : Loader κ S V ε) : Prop where
  cache : s'.cache.list ⊆ s.cache.list
  flights : s'.flights = s.flights
  perScope : s'.perScope = s.perScope
  outcomes : s'.outcomes = s.outcomes
  nextFlight : s'.nextFlight = s.nextFlight

omit [DecidableEq κ] [DecidableEq S] in
theorem Shrunk.refl (s : Loader κ S V ε) : Shrunk s s := ⟨List.Subset.refl _, rfl, rfl, rfl, rfl⟩

omit [DecidableEq S] in
theorem Shrunk.drop {s'} (h : Shrunk (s.drop c) s') : Shrunk s s' :=
  ⟨fun _ hb => (mem_delete.mp (h.cache hb)).1, h.flights, h.perScope, h.outcomes, h.nextFlight⟩

omit [DecidableEq S] in
theorem evictLoop_shrunk (lim : LoadLimits) (ord : MapOrder (Cached κ V)) (size fuel : Nat) (s : Loader κ S V ε) :
    Shrunk s (s.evictLoop lim ord size fuel).2 := by
  induction fuel generalizing s with
  | zero => exact .refl s
  | succ fuel ih =>
    unfold evictLoop
    split
    · split
      · exact .refl s
      · exact (ih _).drop
    · exact .refl s

omit [DecidableEq S] in
theorem evictFor_shrunk (lim : LoadLimits) (ord : MapOrder (Cached κ V)) (size : Nat) (s : Loader κ S V ε) :
    Shrunk s (s.evictFor lim ord size).2 := by
  unfold evictFor
  split
  · exact .refl s
  · exact evictLoop_shrunk lim ord size _ s

theorem evictLoop_spec (ord size) {fuel} (h : Exact lim s) :
    Exact lim (s.evictLoop lim ord size fuel).2 ∧
      ((s.evictLoop lim ord size fuel).1 = true →
        (s.evictLoop lim ord size fuel).2.cache.list.length < lim.entries ∧
          (s.evictLoop lim ord size fuel).2.cacheBytes + size ≤ lim.bytes) := by
  induction fuel generalizing s with
  | zero => exact ⟨h, nofun⟩
  | succ fuel ih =>
    unfold evictLoop
    split
    · split
      · exact ⟨h, nofun⟩
      · rename_i c hc
        have hmem : c ∈ s.cache.list := (ord.perm fuel s.cache.list).mem_iff.mp (oldest_mem hc)
        exact ih (h.drop hmem)
    · rename_i hroom
      rw [not_or] at hroom
      exact ⟨h, fun _ => ⟨Nat.lt_of_not_le hroom.1, Int.not_lt.mp hroom.2⟩⟩

theorem evictFor_spec (ord size) (h : Exact lim s) :
    Exact lim (s.evictFor lim ord size).2 ∧
      ((s.evictFor lim ord size).1 = true →
        (s.evictFor lim ord size).2.cache.list.length < lim.entries ∧
          (s.evictFor lim ord size).2.cacheBytes + size ≤ lim.bytes) := by
  unfold evictFor
  split
  · exact ⟨h, nofun⟩
  · exact evictLoop_spec ord size h

theorem closeFlight_list {g} : g ∈ (s.closeFlight f r).flights.list ↔ g ∈ s.flights.list ∧ g.key ≠ f.key := by
  show g ∈ (s.flights.delete fun g => g.key = f.key).list ↔ _
  rw [mem_delete, decide_eq_false_iff_not]

theorem Exact.closeFlight (h : Exact lim s) (hf : f ∈ s.flights.list) (r) :
    Exact lim (s.closeFlight f r) := by
  have hp := perm_delete hf
  have hcount : ∀ sc, s.flights.list.countP (fun g => g.scope = sc) =
      (s.closeFlight f r).flights.list.countP (fun g => g.scope = sc) + if f.scope = sc then 1 else 0 := by
    intro sc
    rw [hp.countP_eq, countP_cons]
    simp only [decide_eq_true_eq]
    rfl
  have hscope : ∀ sc, (s.closeFlight f r).perScope sc =
      ((s.closeFlight f r).flights.list.countP fun g => g.scope = sc : Nat) := by
    intro sc
    have hb := h.scope sc
    have hc := hcount sc
    show update s.perScope f.scope (s.perScope f.scope - 1) sc = _
    by_cases hsc : sc = f.scope
    · subst hsc
      rw [if_pos rfl] at hc
      rw [update_self]
      omega
    · rw [if_neg (Ne.symm hsc)] at hc
      rw [update_of_ne hsc]
      omega
  refine ⟨h.bytes, h.bytes_le, h.entries_le, hscope, ?_, ?_, ?_⟩
  · intro sc
    have hb := h.scope sc
    have hle := h.scope_le sc
    have hc := hcount sc
    rw [hscope sc]
    omega
  · have hlen : s.flights.list.length = (s.closeFlight f r).flights.list.length + 1 := hp.length_eq
    have hle := h.flights_le
    omega
  · intro g hg c hc
    exact h.apart g (closeFlight_list.mp hg).1 c hc

theorem Exact.keep (h : Exact lim s) (hk : ∀ c ∈ s.cache.list, c.key ≠ k) (l)
    (hf : ∀ f ∈ s.flights.list, f.key ≠ k) (hroom : s.cache.list.length < lim.entries)
    (hbytes : s.cacheBytes + l.size ≤ lim.bytes) : Exact lim (s.keep k l) := by
  have hl : (s.keep k l).cache.list = ⟨k, l.item, l.size, l.deadline, l.lastUse⟩ :: s.cache.list := set_list hk
  refine ⟨?_, hbytes, ?_, h.scope, h.scope_le, h.flights_le, ?_⟩
  · have hb := h.bytes
    rw [hl, map_cons, sum_cons]
    show s.cacheBytes + l.size = ((l.size + (s.cache.list.map (·.size)).sum : Nat) : Int)
    omega
  · rw [hl]
    exact hroom
  · intro f hff c hc
    rw [hl] at hc
    rcases mem_cons.mp hc with rfl | hc
    · exact (hf f hff).symm
    · exact h.apart f hff c hc

theorem Exact.leave (h : Exact lim s) (ord) (hf : f ∈ s.flights.list) (now r) : Exact lim (s.leave lim ord f now r) := by
  unfold Loader.leave
  cases r with
  | error e => exact h.closeFlight hf _
  | ok l =>
    dsimp only
    split
    · obtain ⟨hexact, hroom⟩ := evictFor_spec ord l.size (h.closeFlight hf (.ok l.item))
      have hshrunk := evictFor_shrunk lim ord l.size (s.closeFlight f (.ok l.item))
      have hcache : ∀ c ∈ ((s.closeFlight f (.ok l.item)).evictFor lim ord l.size).2.cache.list, c.key ≠ f.key :=
        fun c hc => h.apart f hf c (hshrunk.cache hc)
      have hflights : ∀ g ∈ ((s.closeFlight f (.ok l.item)).evictFor lim ord l.size).2.flights.list, g.key ≠ f.key := by
        rw [hshrunk.flights]
        exact fun g hg => (closeFlight_list.mp hg).2
      split
      · rename_i s' heq
        rw [heq] at hexact hroom hcache hflights
        obtain ⟨hlen, hbytes⟩ := hroom rfl
        exact hexact.keep hcache l hflights hlen hbytes
      · rename_i s' heq
        rw [heq] at hexact
        exact hexact
    · exact h.closeFlight hf _

/-! ## What an operation leaves behind -/

structure Delivered (s s' : Loader κ S V ε) (f : Flight κ S) (now : Int) (r : Except ε (Loaded V)) : Prop where
  flights : ∀ g, g ∈ s'.flights.list ↔ g ∈ s.flights.list ∧ g.key ≠ f.key
  outcomes : s'.outcomes = (f, r.map (·.item)) :: s.outcomes
  cache : ∀ b ∈ s'.cache.list, b ∈ s.cache.list ∨
    ∃ l, r = .ok l ∧ now < l.deadline ∧ b = ⟨f.key, l.item, l.size, l.deadline, l.lastUse⟩

theorem leave_delivered (lim : LoadLimits) (ord : MapOrder (Cached κ V)) (s : Loader κ S V ε) (f : Flight κ S) (now : Int)
    (r : Except ε (Loaded V)) : Delivered s (s.leave lim ord f now r) f now r := by
  unfold leave
  cases r with
  | error e => exact ⟨fun _ => closeFlight_list, rfl, fun _ hb => .inl hb⟩
  | ok l =>
    dsimp only
    split
    · rename_i hnow
      have hshrunk := evictFor_shrunk lim ord l.size (s.closeFlight f (.ok l.item))
      have hflights : ∀ g, g ∈ ((s.closeFlight f (.ok l.item)).evictFor lim ord l.size).2.flights.list ↔
          g ∈ s.flights.list ∧ g.key ≠ f.key := by
        intro g
        rw [hshrunk.flights]
        exact closeFlight_list
      split
      · rename_i s' heq
        rw [heq] at hshrunk hflights
        refine ⟨hflights, hshrunk.outcomes, fun b hb => ?_⟩
        rcases mem_set.mp hb with rfl | ⟨hb, -⟩
        · exact .inr ⟨l, rfl, hnow, rfl⟩
        · exact .inl (hshrunk.cache hb)
      · rename_i s' heq
        rw [heq] at hshrunk hflights
        exact ⟨hflights, hshrunk.outcomes, fun b hb => .inl (hshrunk.cache hb)⟩
    · exact ⟨fun _ => closeFlight_list, rfl, fun _ hb => .inl hb⟩

theorem enter_flights (lim : LoadLimits) (s : Loader κ S V ε) (k : κ) (scope : S) (now : Int) :
    ((s.enter lim k scope now).2.flights = s.flights ∧ ∀ f, (s.enter lim k scope now).1 ≠ .opened f) ∨
      ∃ f, (s.enter lim k scope now).1 = .opened f ∧ f.key = k ∧ f.scope = scope ∧ (∀ g ∈ s.flights.list, g.key ≠ k) ∧
        (s.enter lim k scope now).2.flights.list = f :: s.flights.list := by
  have hjoin : ∀ s' : Loader κ S V ε, s'.flights = s.flights →
      ((s'.join lim k scope).2.flights = s.flights ∧ ∀ f, (s'.join lim k scope).1 ≠ .opened f) ∨
        ∃ f, (s'.join lim k scope).1 = .opened f ∧ f.key = k ∧ f.scope = scope ∧ (∀ g ∈ s.flights.list, g.key ≠ k) ∧
          (s'.join lim k scope).2.flights.list = f :: s.flights.list := by
    intro s' hs
    rcases join_cases lim s' k scope with ⟨f, -, -, heq⟩ | heq | ⟨hk, -, -, heq⟩ <;> rw [heq]
    · exact .inl ⟨hs, nofun⟩
    · exact .inl ⟨hs, nofun⟩
    · refine .inr ⟨_, rfl, rfl, rfl, hs ▸ hk, ?_⟩
      rw [openFlight_list hk, hs]
  rcases enter_cases lim s k scope now with ⟨c, -, -, -, heq⟩ | ⟨c, -, -, heq⟩ | ⟨-, heq⟩ <;> rw [heq]
  · exact .inl ⟨rfl, nofun⟩
  · exact hjoin (s.drop c) rfl
  · exact hjoin s rfl

theorem enter_cache (lim : LoadLimits) (s : Loader κ S V ε) (k : κ) (scope : S) (now : Int) :
    (s.enter lim k scope now).2.outcomes = s.outcomes ∧
      ∀ b ∈ (s.enter lim k scope now).2.cache.list, ∃ c ∈ s.cache.list, b = { c with lastUse := b.lastUse } := by
  have hjoin : ∀ s' : Loader κ S V ε, (s'.join lim k scope).2.outcomes = s'.outcomes ∧
      (s'.join lim k scope).2.cache = s'.cache := by
    intro s'
    rcases join_cases lim s' k scope with ⟨f, -, -, heq⟩ | heq | ⟨-, -, -, heq⟩ <;> rw [heq] <;> exact ⟨rfl, rfl⟩
  rcases enter_cases lim s k scope now with ⟨c, -, -, -, heq⟩ | ⟨c, -, -, heq⟩ | ⟨-, heq⟩ <;> rw [heq]
  · exact ⟨rfl, fun b hb => mem_touch hb⟩
  · refine ⟨(hjoin (s.drop c)).1, fun b hb => ⟨b, ?_, rfl⟩⟩
    rw [(hjoin (s.drop c)).2] at hb
    exact (mem_delete.mp hb).1
  · refine ⟨(hjoin s).1, fun b hb => ⟨b, ?_, rfl⟩⟩
    rw [(hjoin s).2] at hb
    exact hb

def Answers (s : Loader κ S V ε) (k : κ) (scope : S) (now : Int) : Admission κ S V → Prop
  | .hit c => c ∈ s.cache.list ∧ c.key = k ∧ now < c.deadline
  | .wait f => f.key = k
  | .busy => True
  | .opened f => f.key = k ∧ f.scope = scope

theorem enter_answers (lim : LoadLimits) (s : Loader κ S V ε) (k : κ) (scope : S) (now : Int) :
    Answers s k scope now (s.enter lim k scope now).1 := by
  have hjoin : ∀ s' : Loader κ S V ε, Answers s k scope now (s'.join lim k scope).1 := by
    intro s'
    rcases join_cases lim s' k scope with ⟨f, -, hk, heq⟩ | heq | ⟨-, -, -, heq⟩ <;> rw [heq]
    · exact hk
    · exact trivial
    · exact ⟨rfl, rfl⟩
  rcases enter_cases lim s k scope now with ⟨c, hc, hk, hnow, heq⟩ | ⟨c, -, -, heq⟩ | ⟨-, heq⟩ <;> rw [heq]
  · exact ⟨hc, hk, hnow⟩
  · exact hjoin (s.drop c)
  · exact hjoin s

theorem outcome_mem (h : s.outcome f = some r) : (f, r) ∈ s.outcomes := by
  obtain ⟨o, ho, rfl⟩ := Option.map_eq_some_iff.mp h
  have hf := find?_some ho
  rw [← of_decide_eq_true hf]
  exact mem_of_find?_eq_some ho

end Loader

end Clavex
