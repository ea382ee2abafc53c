import Avon.Json

/-!
# Validation against a JSON schema

A schema is the set of values it accepts: the part of draft 7 for types, enumerations, patterns,
lists and objects. `default` and `format` accept everything. How a number that is not written as an
integer compares is a parameter: in draft 7 `2.0` is an integer.
-/

set_option autoImplicit false

namespace Avon.Lib.JsonSchema

abbrev Schema := Json → Bool

/-- Numbers that are not written as integers, in the language of the validator. -/
structure Floats where
  isIntegral : String → Bool
  isNonnegative : String → Bool

def boolean : Schema
  | .bool _ => true
  | _ => false

def string : Schema
  | .string _ => true
  | _ => false

def integer (F : Floats) : Schema
  | .int _ => true
  | .float text => F.isIntegral text
  | _ => false

def natural (F : Floats) : Schema
  | .int n => 0 ≤ n
  | .float text => F.isIntegral text && F.isNonnegative text
  | _ => false

def enum (values : List String) : Schema
  | .string s => values.contains s
  | _ => false

def pattern (search : List Char → Bool) : Schema
  | .string s => search s.toList
  | _ => false

def array (items : Schema) : Schema
  | .array vs => vs.all items
  | _ => false

def nullable (s : Schema) : Schema
  | .null => true
  | j => s j

/-- `"type": "object"` with `"required"`, `"properties"` and `"additionalProperties"`. -/
def object (required : List String) (properties : List (String × Schema)) (additional : Bool) :
    Schema
  | .object fields =>
    required.all (fun key => ((Json.object fields).get key).isSome) &&
      properties.all (fun p => ((Json.object fields).get p.1).all p.2) &&
      (additional || fields.all fun f => properties.any fun p => p.1 = f.1)
  | _ => false

/-! ### What is accepted -/

variable {j : Json}

theorem of_boolean (h : boolean j = true) : ∃ b, j = .bool b := by
  cases j <;> cases h
  exact ⟨_, rfl⟩

theorem of_string (h : string j = true) : ∃ s, j = .string s := by
  cases j <;> cases h
  exact ⟨_, rfl⟩

theorem of_enum {values : List String}
    (h : enum values j = true) : ∃ s ∈ values, j = .string s := by
  cases j with
  | string s => exact ⟨s, by simpa [enum] using h, rfl⟩
  | _ => cases h

theorem of_pattern {search : List Char → Bool} (h : pattern search j = true) :
    ∃ s : String, search s.toList = true ∧ j = .string s := by
  cases j with
  | string s => exact ⟨s, h, rfl⟩
  | _ => cases h

theorem of_array {items : Schema} (h : array items j = true) :
    ∃ vs, j = .array vs ∧ ∀ v ∈ vs, items v = true := by
  cases j with
  | array vs => exact ⟨vs, rfl, List.all_eq_true.mp h⟩
  | _ => cases h

theorem of_nullable {s : Schema} (h : nullable s j = true) : j = .null ∨ s j = true := by
  cases j with
  | null => exact .inl rfl
  | _ => exact .inr h

section Objects

variable {required : List String} {properties : List (String × Schema)} {additional : Bool}

section
variable (h : object required properties additional j = true)
include h

theorem of_object : ∃ fields, j = .object fields ∧ (∀ key ∈ required, ∃ v, j.get key = some v) ∧
      (∀ p ∈ properties, ∀ v, j.get p.1 = some v → p.2 v = true) ∧
      (additional = true ∨ ∀ f ∈ fields, ∃ p ∈ properties, p.1 = f.1) := by
  cases j with
  | object fields =>
    simp only [object, Bool.and_eq_true, Bool.or_eq_true, List.all_eq_true, List.any_eq_true,
      decide_eq_true_eq, Option.isSome_iff_exists, Option.all_eq_true] at h
    obtain ⟨⟨hrequired, hproperties⟩, hknown⟩ := h
    exact ⟨fields, rfl, hrequired, hproperties, hknown⟩
  | _ => cases h

theorem property_of_object {key : String} {schema : Schema} {v : Json}
    (hmem : (key, schema) ∈ properties) (hget : j.get key = some v) : schema v = true := by
  obtain ⟨-, -, -, hproperties, -⟩ := of_object h
  exact hproperties (key, schema) hmem v hget

theorem exists_of_object {key : String} (hmem : key ∈ required) : ∃ v, j.get key = some v := by
  obtain ⟨-, -, hrequired, -⟩ := of_object h
  exact hrequired key hmem

theorem required_property {key : String} {schema : Schema} (hkey : key ∈ required)
    (hmem : (key, schema) ∈ properties) : ∃ v, j.get key = some v ∧ schema v = true := by
  obtain ⟨v, hget⟩ := exists_of_object h hkey
  exact ⟨v, hget, property_of_object h hmem hget⟩

end

end Objects

end Avon.Lib.JsonSchema
