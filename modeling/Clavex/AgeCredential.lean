import Clavex.Json
import Clavex.Rows

/-!
# Age credentials

`IssueAgeCredential` up to the claims that can be disclosed. It looks for one birth date, in the
order of a range over the claims mapping, and computes every claim from it.
-/

namespace Clavex

structure CalendarDate where
  (year month day : Int)

abbrev ClaimsMapping := Rows (Prod.fst : String × Json → String)

def isAgeOnlyConfig (mapping : ClaimsMapping) : Bool :=
  !mapping.list.isEmpty && mapping.list.all fun e => e.1 == "age_over_18" || e.1 == "age_in_years"

def ageClaim (age : Int) (claim : String) : Option Json :=
  if claim = "age_over_18" then some (.bool (decide (18 ≤ age)))
  else if claim = "age_in_years" then some (.num age 0)
  else none

section
variable (parse : String → String → Option CalendarDate) (now : CalendarDate) (attrs : GoMap Json) (mapping : ClaimsMapping)

/-- `parse` is `time.Parse`. -/
def computeAgeFromStr (s : String) : Option Int :=
  (["2006-01-02", "02/01/2006", "2006-01-02T15:04:05Z"].findSome? (parse · s)).map fun dob =>
    now.year - dob.year - if now.month < dob.month ∨ (now.month = dob.month ∧ now.day < dob.day) then 1 else 0

/-- The age by the date in the field that a claim is mapped to. -/
def mappedAge (field : Json) : Option Int :=
  ((field.asString.bind attrs.lookup).bind Json.asString).bind fun s =>
    if s = "" then none else computeAgeFromStr parse now s

def issueAgeCredential (userID : String) (ord : MapOrder (String × Json)) : Except String (List (String × Json)) :=
  match ((ord.range 0 mapping.list).find? fun e => (mappedAge parse now attrs e.2).isSome).bind
      (mappedAge parse now attrs ·.2) with
  | none => .error ("age credential: birth date not available for user " ++ userID)
  | some age =>
    let disclosable := mapping.list.filterMap fun e => (ageClaim age e.1).map (e.1, ·)
    if disclosable = [] then .error "age credential: no recognised age claims in claims_mapping" else .ok disclosable

/-- The claim is computed from the field that it is mapped to. -/
def OwnAge (claim : String) (v : Json) : Prop :=
  ∃ field age, (claim, field) ∈ mapping.list ∧ mappedAge parse now attrs field = some age ∧ ageClaim age claim = some v

/-- What a claim is by the date of any mapped field, it is by that of its own. -/
def OneAge : Prop :=
  ∀ e ∈ mapping.list, ∀ e' ∈ mapping.list, ∀ age v, mappedAge parse now attrs e'.2 = some age →
    ageClaim age e.1 = some v → OwnAge parse now attrs mapping e.1 v

theorem age_claims_own_iff (userID : String) :
    (∀ ord disclosable, issueAgeCredential parse now attrs mapping userID ord = .ok disclosable →
      ∀ c ∈ disclosable, OwnAge parse now attrs mapping c.1 c.2) ↔ OneAge parse now attrs mapping := by
  constructor
  · intro hall e he e' he' age v hage hv
    have hmem : (e.1, v) ∈ mapping.list.filterMap fun e => (ageClaim age e.1).map (e.1, ·) :=
      List.mem_filterMap.mpr ⟨e, he, by rw [hv]; rfl⟩
    refine hall (.prefer Prod.fst fun _ => e'.1) _ ?_ (e.1, v) hmem
    rw [issueAgeCredential, MapOrder.find?_prefer _ 0 he' rfl (by rw [hage]; rfl), Option.bind_some, hage]
    exact if_neg (List.ne_nil_of_mem hmem)
  · intro hone ord disclosable h c hc
    unfold issueAgeCredential at h
    split at h
    · cases h
    rename_i age hage
    dsimp only at h
    split at h
    · cases h
    cases h
    obtain ⟨e', he', hage⟩ := Option.bind_eq_some_iff.mp hage
    obtain ⟨e, he, hc⟩ := List.mem_filterMap.mp hc
    obtain ⟨v, hv, rfl⟩ := Option.map_eq_some_iff.mp hc
    exact hone e he e' (ord.find?_mem he').1 age v hage hv

end

def birthDates : GoMap Json := GoMap.ofMembers [("metadata.own", .str "1990-05-01"), ("metadata.child", .str "01/05/2015")]

def twoDates : ClaimsMapping := ⟨[("age_over_18", .str "metadata.own"), ("age_in_years", .str "metadata.child")], by decide⟩

def parseDates (layout s : String) : Option CalendarDate :=
  [(("2006-01-02", "1990-05-01"), ⟨1990, 5, 1⟩), (("02/01/2006", "01/05/2015"), ⟨2015, 5, 1⟩)].lookup (layout, s)

/-- Both claims come from the field of the one that is ranged over first. -/
theorem age_by_another_field : isAgeOnlyConfig twoDates = true ∧
    ∀ e ∈ [("age_over_18", true, 35), ("age_in_years", false, 10)],
      (issueAgeCredential parseDates ⟨2026, 1, 1⟩ birthDates twoDates "u" (.prefer Prod.fst fun _ => e.1)).toOption =
        some [("age_over_18", .bool e.2.1), ("age_in_years", .num e.2.2 0)] := by
  decide +kernel

end Clavex
