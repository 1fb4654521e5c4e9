import Clavex.Json
import Mathlib.Data.Finset.Sort
import Mathlib.Data.String.Basic

/-!
# Presentation definitions

`matchPresentationDefinition` compares the claims of a credential with the input descriptors
of a verifier. Values are compared by their JSON texts; `jsonText` is the text of a value that
was itself read from JSON.
-/

namespace Clavex

structure JSONSchemaFilter where
  type : String := ""
  const : Json := .null
  pattern : String := ""
  enum : List Json := []

structure FieldConstraint where
  path : List String
  filter : Option JSONSchemaFilter := none
  optional : Bool := false

structure InputDescriptor where
  id : String
  constraints : Option (List FieldConstraint) := none

def objectOf (m : GoMap Json) : Json :=
  .obj ((m.keys.sort (· ≤ ·)).filterMap fun k => (m.lookup k).map fun v => (k, v))

def jsonPathGet (claims : GoMap Json) (path : String) : Option Json :=
  if hasPrefix path "$." ∧ path ≠ "$." then claims.lookup (trimPfx path "$.")
  else if path = "$" then some (objectOf claims)
  else claims.lookup path

section
variable {T : Type} [DecidableEq T] (jsonText : Json → T)

def matchFilter (value : Json) (filter : JSONSchemaFilter) : Bool :=
  if filter.const ≠ .null then jsonText value == jsonText filter.const
  else if filter.enum ≠ [] then filter.enum.any fun e => jsonText value == jsonText e
  else true

def pathSatisfies (claims : GoMap Json) (field : FieldConstraint) (path : String) : Bool :=
  match jsonPathGet claims path with
  | none => false
  | some val => field.filter.all (matchFilter jsonText val)

def checkFields (claims : GoMap Json) (descID : String) : List FieldConstraint → Except String Unit
  | [] => .ok ()
  | field :: rest =>
    if field.optional then checkFields claims descID rest
    else if field.path.any (pathSatisfies jsonText claims field) then checkFields claims descID rest
    else
      .error ("required field not satisfied in descriptor " ++ quote descID ++ " (paths: [" ++
        " ".intercalate field.path ++ "])")

def matchPresentationDefinition (claims : GoMap Json) : List InputDescriptor → Except String (List String)
  | [] => .ok []
  | desc :: rest => do
    checkFields jsonText claims desc.id (desc.constraints.getD [])
    let matched ← matchPresentationDefinition claims rest
    return desc.id :: matched

variable {jsonText}

/-! ## What an accepted presentation has -/

structure FilterMet (value : Json) (filter : JSONSchemaFilter) : Prop where
  const : filter.const ≠ .null → value = filter.const
  enum : filter.const = .null → filter.enum ≠ [] → value ∈ filter.enum

theorem matchFilter_satisfies (hinj : Function.Injective jsonText) {value} {filter}
    (h : matchFilter jsonText value filter = true) : FilterMet value filter := by
  unfold matchFilter at h
  refine ⟨?_, ?_⟩
  · intro hc
    rw [if_pos hc] at h
    exact hinj (beq_iff_eq.mp h)
  · intro hc he
    rw [if_neg (fun hne => hne hc), if_pos he] at h
    obtain ⟨e, hmem, heq⟩ := List.any_eq_true.mp h
    rw [hinj (beq_iff_eq.mp heq)]
    exact hmem

def Found (claims : GoMap Json) (field : FieldConstraint) (P : Json → JSONSchemaFilter → Prop) : Prop :=
  ∃ path ∈ field.path, ∃ value, jsonPathGet claims path = some value ∧ ∀ filter ∈ field.filter, P value filter

theorem found_iff {claims field} :
    field.path.any (pathSatisfies jsonText claims field) = true ↔
      Found claims field fun value filter => matchFilter jsonText value filter = true := by
  rw [List.any_eq_true]
  unfold pathSatisfies Found
  constructor
  · rintro ⟨path, hpath, h⟩
    cases hget : jsonPathGet claims path with
    | none =>
      rw [hget] at h
      cases h
    | some value =>
      rw [hget] at h
      refine ⟨path, hpath, value, hget, fun filter hf => ?_⟩
      rw [hf] at h
      exact h
  · rintro ⟨path, hpath, value, hget, h⟩
    refine ⟨path, hpath, ?_⟩
    rw [hget]
    cases hf : field.filter with
    | none => rfl
    | some filter => exact h filter hf

theorem checkFields_ok {claims} {descID} {fields} :
    checkFields jsonText claims descID fields = .ok () ↔
      ∀ field ∈ fields, field.optional = false →
        Found claims field fun value filter => matchFilter jsonText value filter = true := by
  induction fields with
  | nil => simp [checkFields]
  | cons field rest ih =>
    rw [checkFields, List.forall_mem_cons]
    cases hopt : field.optional with
    | true => simp [ih]
    | false =>
      rw [← found_iff]
      cases hany : field.path.any (pathSatisfies jsonText claims field) with
      | true => simp [ih]
      | false => simp

theorem matchPresentationDefinition_ok {claims descs matched} :
    matchPresentationDefinition jsonText claims descs = .ok matched ↔
      matched = descs.map (·.id) ∧ ∀ desc ∈ descs, checkFields jsonText claims desc.id (desc.constraints.getD []) = .ok () := by
  induction descs generalizing matched with
  | nil => simp [matchPresentationDefinition, eq_comm]
  | cons desc rest ih =>
    rw [matchPresentationDefinition, List.forall_mem_cons]
    cases hc : checkFields jsonText claims desc.id (desc.constraints.getD []) with
    | error e =>
      constructor
      · intro h
        cases h
      · rintro ⟨-, h, -⟩
        cases h
    | ok u =>
      cases hm : matchPresentationDefinition jsonText claims rest with
      | error e =>
        constructor
        · intro h
          cases h
        · rintro ⟨-, -, h⟩
          have := ih.mpr ⟨rfl, h⟩
          rw [hm] at this
          cases this
      | ok ms =>
        obtain ⟨hms, hrest⟩ := ih.mp hm
        constructor
        · intro h
          cases h
          exact ⟨by rw [List.map_cons, hms], rfl, hrest⟩
        · rintro ⟨rfl, -, -⟩
          rw [List.map_cons, ← hms]
          rfl

theorem accepted_fields_satisfied {T : Type} [DecidableEq T] (jsonText : Json → T) (hinj : Function.Injective jsonText)
    (claims : GoMap Json) (descs : List InputDescriptor) (matched : List String)
    (h : matchPresentationDefinition jsonText claims descs = .ok matched) :
    (∀ desc ∈ descs, ∀ fields ∈ desc.constraints, ∀ field ∈ fields, field.optional = false →
      Found claims field FilterMet) ∧
    ∀ value filter type, matchFilter jsonText value { filter with type := type } = matchFilter jsonText value filter := by
  refine ⟨?_, fun _ _ _ => rfl⟩
  intro desc hdesc fields hfields field hfield hopt
  have hcheck := (matchPresentationDefinition_ok.mp h).2 desc hdesc
  rw [Option.mem_def.mp hfields] at hcheck
  obtain ⟨path, hpath, value, hget, hfilter⟩ := checkFields_ok.mp hcheck field hfield hopt
  exact ⟨path, hpath, value, hget, fun filter hf => matchFilter_satisfies hinj (hfilter filter hf)⟩

end

/-! ## A verifier that asks for a degree -/

def degreeClaims : GoMap Json := GoMap.ofMembers [("degree", .str "MSc"), ("age", .str "old")]

def degreeDescriptor : InputDescriptor where
  id := "degree"
  constraints := some
    [{ path := ["$.title", "$.degree"], filter := some { type := "string", enum := [.str "BSc", .str "MSc"] } }]

theorem accepted_fields_satisfied_degree :
    matchPresentationDefinition id degreeClaims [degreeDescriptor] = .ok ["degree"] ∧
    ∀ desc ∈ [degreeDescriptor], ∀ fields ∈ desc.constraints, ∀ field ∈ fields, field.optional = false →
      Found degreeClaims field FilterMet := by
  have h : matchPresentationDefinition id degreeClaims [degreeDescriptor] = .ok ["degree"] := by
    with_unfolding_all rfl
  exact ⟨h, (accepted_fields_satisfied id Function.injective_id degreeClaims [degreeDescriptor] ["degree"] h).1⟩

def ageField : FieldConstraint := { path := ["$.age"], filter := some { type := "number" } }

def jsonType : Json → String
  | .null => "null"
  | .bool _ => "boolean"
  | .num .. => "number"
  | .str _ => "string"
  | .arr _ => "array"
  | .obj _ => "object"

/-- The only path leads to a text, where a number was asked for. -/
theorem type_not_checked :
    matchPresentationDefinition id degreeClaims [{ id := "age", constraints := some [ageField] }] = .ok ["age"] ∧
    ¬ Found degreeClaims ageField fun value filter => jsonType value = filter.type := by
  refine ⟨by with_unfolding_all rfl, ?_⟩
  rintro ⟨path, hpath, value, hget, hfilter⟩
  obtain rfl := List.mem_singleton.mp hpath
  have hvalue : jsonPathGet degreeClaims "$.age" = some (.str "old") := by with_unfolding_all rfl
  rw [hvalue, Option.some_inj] at hget
  have htype := hfilter _ rfl
  rw [← hget] at htype
  exact absurd htype (by decide)

end Clavex
