import FeatureToggles.Decimal.Layout
import FeatureToggles.Text.Quoted

/-!
# JSON values

A JSON value keeps integers apart from other numbers: a number without fraction and exponent is an
integer of any size, every other number is binary64. An object keeps its fields in the order of their
first occurrence.
-/

namespace FeatureToggles

/-- A JSON value. -/
inductive Json where
  | null
  | bool (value : Bool)
  | int (value : Int)
  | float (value : Binary64)
  | string (value : Text)
  | array (items : List Json)
  | object (fields : List (Text × Json))

namespace Json

instance : Inhabited Json := ⟨null⟩

/-- The value of the first field called `name`. -/
def fieldOf? (name : Text) (fields : List (Text × Json)) : Option Json :=
  (fields.find? (·.1 = name)).map (·.2)

/-- Gives the field called `name` a value, in the place it has, or else at the end. -/
def withField (name : Text) (value : Json) : List (Text × Json) → List (Text × Json)
  | [] => [(name, value)]
  | (key, old) :: rest =>
    if key = name then (name, value) :: rest else (key, old) :: withField name value rest

/-- The field called `name`, if the value is an object that has one. -/
def field? (name : Text) : Json → Option Json
  | object fields => fieldOf? name fields
  | _ => none

/-- The text that a string value holds. -/
def text? : Json → Option Text
  | string s => some s
  | _ => none

mutual

/-- Whether everything within passes a check: all values without parts, and all names of fields, as
strings. -/
def everywhere (check : Json → Bool) : Json → Bool
  | array items => everyItem check items
  | object fields => everyField check fields
  | value => check value

@[inherit_doc everywhere] def everyItem (check : Json → Bool) : List Json → Bool
  | [] => true
  | item :: rest => item.everywhere check && everyItem check rest

@[inherit_doc everywhere] def everyField (check : Json → Bool) : List (Text × Json) → Bool
  | [] => true
  | (name, value) :: rest => check (string name) && value.everywhere check && everyField check rest

end

mutual

/-- Whether every number within is finite, as the JSON standard requires. -/
def isStandard : Json → Bool
  | float x => x.isFinite
  | array items => itemsStandard items
  | object fields => fieldsStandard fields
  | _ => true

@[inherit_doc isStandard] def itemsStandard : List Json → Bool
  | [] => true
  | item :: rest => isStandard item && itemsStandard rest

@[inherit_doc isStandard] def fieldsStandard : List (Text × Json) → Bool
  | [] => true
  | (_, value) :: rest => isStandard value && fieldsStandard rest

end

mutual

/-- The value with null in place of every number within that is not finite. -/
def standardized : Json → Json
  | float x => if x.isFinite then float x else null
  | array items => array (itemsStandardized items)
  | object fields => object (fieldsStandardized fields)
  | value => value

@[inherit_doc standardized] def itemsStandardized : List Json → List Json
  | [] => []
  | item :: rest => standardized item :: itemsStandardized rest

@[inherit_doc standardized] def fieldsStandardized : List (Text × Json) → List (Text × Json)
  | [] => []
  | (name, value) :: rest => (name, standardized value) :: fieldsStandardized rest

end

mutual

theorem isStandard_standardized : ∀ value : Json, value.standardized.isStandard = true
  | null => rfl
  | bool _ => rfl
  | int _ => rfl
  | float x => by
    by_cases h : x.isFinite = true <;> simp [standardized, isStandard, h]
  | string _ => rfl
  | array items => by
    simpa [standardized, isStandard] using itemsStandard_itemsStandardized items
  | object fields => by
    simpa [standardized, isStandard] using fieldsStandard_fieldsStandardized fields

theorem itemsStandard_itemsStandardized :
    ∀ items : List Json, itemsStandard (itemsStandardized items) = true
  | [] => rfl
  | item :: rest => by
    simp [itemsStandardized, itemsStandard, isStandard_standardized item,
      itemsStandard_itemsStandardized rest]

theorem fieldsStandard_fieldsStandardized :
    ∀ fields : List (Text × Json), fieldsStandard (fieldsStandardized fields) = true
  | [] => rfl
  | (_, value) :: rest => by
    simp [fieldsStandardized, fieldsStandard, isStandard_standardized value,
      fieldsStandard_fieldsStandardized rest]

end

theorem everyItem_eq_true_iff {check : Json → Bool} {items : List Json} :
    everyItem check items = true ↔ ∀ item ∈ items, item.everywhere check = true := by
  induction items with
  | nil => simp [everyItem]
  | cons item rest ih => simp [everyItem, ih]

theorem everyField_eq_true_iff {check : Json → Bool} {fields : List (Text × Json)} :
    everyField check fields = true
      ↔ ∀ field ∈ fields, check (string field.1) = true ∧ field.2.everywhere check = true := by
  induction fields with
  | nil => simp [everyField]
  | cons field rest ih => simp [everyField, ih]

theorem fieldOf?_cons (name key : Text) (value : Json) (rest : List (Text × Json)) :
    fieldOf? name ((key, value) :: rest) = if key = name then some value else fieldOf? name rest := by
  unfold fieldOf?
  by_cases h : key = name <;> simp [h]

theorem isSome_fieldOf?_iff {name : Text} {fields : List (Text × Json)} :
    (fieldOf? name fields).isSome = true ↔ name ∈ fields.map (·.1) := by
  simp [fieldOf?, List.mem_map]

theorem mem_of_fieldOf? {name : Text} {fields : List (Text × Json)} {value : Json}
    (h : fieldOf? name fields = some value) : (name, value) ∈ fields := by
  unfold fieldOf? at h
  obtain ⟨field, hfind, rfl⟩ := Option.map_eq_some_iff.1 h
  have hname : field.1 = name := by simpa using List.find?_some hfind
  rw [← hname]
  exact List.mem_of_find?_eq_some hfind

end Json

end FeatureToggles
