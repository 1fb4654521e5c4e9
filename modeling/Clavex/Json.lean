import Mathlib.Data.Finmap
import Clavex.Strings

/-!
# JSON values and `encoding/json`

The source keeps step configurations, user metadata and token claims as JSON.
Decoding into a Go struct sets one field per member, in the order of the text:
a member of the wrong type records an error and leaves its field alone, the
rest are still decoded. Code that ignores the error therefore still sees the
other fields.
-/

namespace Clavex

open Finmap

/-- A JSON value. `num m e` is the number `m * 10 ^ (-e)`, so an integer
literal has `e = 0`. -/
inductive Json where
  | null
  | bool (b : Bool)
  | num (mantissa : Int) (exponent : Nat)
  | str (s : String)
  | arr (items : List Json)
  | obj (members : List (String × Json))
  deriving Repr, Inhabited

/-! ## Equality -/

mutual
def Json.same : Json → Json → Bool
  | .null, .null => true
  | .bool a, .bool b => a == b
  | .num m e, .num m' e' => m == m' && e == e'
  | .str s, .str t => s == t
  | .arr l, .arr l' => Json.sameItems l l'
  | .obj ms, .obj ms' => Json.sameMembers ms ms'
  | _, _ => false
def Json.sameItems : List Json → List Json → Bool
  | [], [] => true
  | v :: l, v' :: l' => Json.same v v' && Json.sameItems l l'
  | _, _ => false
def Json.sameMembers : List (String × Json) → List (String × Json) → Bool
  | [], [] => true
  | (k, v) :: ms, (k', v') :: ms' => k == k' && Json.same v v' && Json.sameMembers ms ms'
  | _, _ => false
end

mutual
theorem Json.same_iff : ∀ v v' : Json, Json.same v v' = true ↔ v = v'
  | .null, v' | .bool a, v' | .num m e, v' | .str s, v' => by cases v' <;> simp [Json.same]
  | .arr l, v' => by cases v' <;> simp [Json.same, Json.sameItems_iff l]
  | .obj ms, v' => by cases v' <;> simp [Json.same, Json.sameMembers_iff ms]
theorem Json.sameItems_iff : ∀ l l' : List Json, Json.sameItems l l' = true ↔ l = l'
  | [], l' => by cases l' <;> simp [Json.sameItems]
  | v :: l, l' => by cases l' <;> simp [Json.sameItems, Json.same_iff v, Json.sameItems_iff l]
theorem Json.sameMembers_iff : ∀ ms ms' : List (String × Json), Json.sameMembers ms ms' = true ↔ ms = ms'
  | [], ms' => by cases ms' <;> simp [Json.sameMembers]
  | (k, v) :: ms, ms' => by
    cases ms' <;> simp [Json.sameMembers, Json.same_iff v, Json.sameMembers_iff ms, Prod.ext_iff]
end

instance : DecidableEq Json := fun v v' => decidable_of_iff _ (Json.same_iff v v')

/-- A Go `map[string]V`: keys are distinct and have no order. -/
abbrev GoMap (V : Type) := Finmap (fun _ : String => V)

namespace GoMap

variable {V : Type}

def len (m : GoMap V) : Nat := m.keys.card

def assignAll (dst src : GoMap V) : GoMap V := src ∪ dst

def ofMembers (ms : List (String × V)) : GoMap V :=
  ms.foldl (fun m kv => m.insert kv.1 kv.2) ∅

def mapValues (f : V → V) (m : GoMap V) : GoMap V :=
  m.liftOn (fun l => AList.toFinmap ⟨l.entries.map (.map id fun _ => f), l.nodupKeys.map₂ (fun _ => f) l.entries⟩) <| by
    intro l l' hp
    exact AList.toFinmap_eq.mpr (hp.map _)

theorem lookup_mapValues (f : V → V) (m : GoMap V) (k : String) : (m.mapValues f).lookup k = (m.lookup k).map f := by
  induction m using induction_on with | _ l
  exact List.dlookup_map₂ k

theorem lookup_ofMembers {ms : List (String × V)} (h : ∀ k v v', (k, v) ∈ ms → (k, v') ∈ ms → v = v') (k v) :
    (ofMembers ms).lookup k = some v ↔ (k, v) ∈ ms := by
  induction ms using List.reverseRecOn with
  | nil => simp [ofMembers]
  | append_singleton ms e ih =>
    unfold ofMembers at ih ⊢
    rw [List.foldl_append, List.foldl_cons, List.foldl_nil]
    by_cases hk : k = e.1
    · subst hk
      rw [lookup_insert, Option.some.injEq]
      have he : e ∈ ms ++ [e] := by simp
      exact ⟨fun hv => hv ▸ he, fun hv => h e.1 _ _ he hv⟩
    · rw [lookup_insert_of_ne _ hk, ih fun k v v' hv hv' => h k v v' (by simp [hv]) (by simp [hv'])]
      simp [Prod.ext_iff, hk]

theorem len_eq_zero {m : GoMap V} : m.len = 0 ↔ m = ∅ := by
  unfold len
  rw [Finset.card_eq_zero]
  constructor
  · intro h
    apply ext_lookup
    intro a
    have ha : a ∉ m := fun hm => by
      have := mem_keys.mpr hm
      rw [h] at this; cases this
    rw [lookup_eq_none.mpr ha, lookup_empty]
  · rintro rfl; rfl

end GoMap

/-! ## Decoding into a struct -/

/-- Decode the members called `name` into a field that holds `z`. `dec` maps the
field's value and a member to the new value, or `none` on a type error; the
flag says whether there was one. -/
def decodeField {α : Type} (dec : α → Json → Option α) (z : α) (name : String)
    (ms : List (String × Json)) : α × Bool :=
  ms.foldl (fun acc kv =>
    if foldName kv.1 = foldName name then
      match dec acc.1 kv.2 with
      | some a => (a, acc.2)
      | none => (acc.1, true)
    else acc) (z, false)

def decStr (cur : String) : Json → Option String
  | .null => some cur
  | .str s => some s
  | _ => none

def decBool (cur : Bool) : Json → Option Bool
  | .null => some cur
  | .bool b => some b
  | _ => none

def decInt (cur : Int) : Json → Option Int
  | .null => some cur
  | .num m 0 => if -2 ^ 63 ≤ m ∧ m < 2 ^ 63 then some m else none
  | _ => none

def decMap (cur : Option (GoMap Json)) : Json → Option (Option (GoMap Json))
  | .null => some none
  | .obj ms => some (some ((cur.getD ∅).assignAll (GoMap.ofMembers ms)))
  | _ => none

def strField (name : String) (ms : List (String × Json)) : String × Bool := decodeField decStr "" name ms

def boolField (name : String) (ms : List (String × Json)) : Bool × Bool := decodeField decBool false name ms

def intField (name : String) (ms : List (String × Json)) : Int × Bool := decodeField decInt 0 name ms

def mapField (name : String) (ms : List (String × Json)) : Option (GoMap Json) × Bool :=
  decodeField decMap none name ms

/-- `json.Unmarshal` of a text into a struct whose zero value is `z`; `none` is a
text that is not JSON. The flag is `err != nil`. -/
def unmarshal {α : Type} (z : α) (fields : List (String × Json) → α × Bool) : Option Json → α × Bool
  | none => (z, true)
  | some .null => (z, false)
  | some (.obj ms) => fields ms
  | some _ => (z, true)

def Json.asString : Json → Option String
  | .str s => some s
  | _ => none

def Json.asBool : Json → Option Bool
  | .bool b => some b
  | _ => none

def Json.member (k : String) : Json → Option Json
  | .obj ms => (GoMap.ofMembers ms).lookup k
  | _ => none

def textClaim (claims : GoMap Json) (k : String) : String := ((claims.lookup k).bind Json.asString).getD ""

def decMembers : Json → Option (GoMap Json)
  | .null => some ∅
  | .obj ms => some (GoMap.ofMembers ms)
  | _ => none

/-! ## Calls that can fail -/

theorem except_bind_ok {ε α β : Type} {x : Except ε α} {f} {b : β} (h : (x >>= f) = .ok b) :
    ∃ a, x = .ok a ∧ f a = .ok b := by
  cases x with
  | error e => cases h
  | ok a => exact ⟨a, rfl, h⟩

theorem except_mapError_ok {ε ε' α : Type} {x : Except ε α} {f : ε → ε'} {a : α} (h : x.mapError f = .ok a) :
    x = .ok a := by
  cases x with
  | error e => cases h
  | ok b =>
    cases h
    rfl

end Clavex
