import Mathlib.Data.List.Basic
import Mathlib.Data.Rat.Defs
import Mathlib.Tactic

/-!
# Config: JSON files

A settings file holds a text that is no JSON, or a value in some layout.  The
engine reads a file as a value, changes that and writes it in a layout of its
own.

**Rules.**
* `get_set`, `get_set_of_ne`: a key after it was set.
* `SameValue`: the value of a key on disk, whatever the layout.
-/

namespace CockatielEngine

/-- A number as it is written: an integer of 64 bits, or another number. -/
inductive JsonNumber where
  | int (n : Int)
  | float (q : ℚ)
deriving DecidableEq

def JsonNumber.value : JsonNumber → ℚ
  | .int n => n
  | .float q => q

/-- A JSON value; an object has each key once. -/
inductive JsonValue where
  | null
  | bool (b : Bool)
  | num (n : JsonNumber)
  | str (s : String)
  | arr (elements : List JsonValue)
  | obj (fields : List (String × JsonValue))

/-- What a text has beside its value: how it is spaced, and whether it writes
a key of an object twice, which a reader that knows the key refuses. -/
structure Layout where
  spacing : String
  repeatsKey : Bool
deriving DecidableEq

/-- The layout of everything that the engine writes. -/
def Layout.pretty : Layout := ⟨"pretty", false⟩

/-- What a file holds. -/
inductive FileText where
  | malformed (text : String)
  | json (layout : Layout) (value : JsonValue)

/-- The value that a text is read as. -/
def FileText.value? : FileText → Option JsonValue
  | .malformed _ => none
  | .json _ value => some value

/-- The text that a value is written as. -/
def FileText.pretty (value : JsonValue) : FileText :=
  .json .pretty value

@[simp] theorem FileText.value?_pretty
    (value : JsonValue) :
    (FileText.pretty value).value? = some value := rfl

namespace JsonValue

/-- The field of an object; other values have none. -/
def get : JsonValue → String → Option JsonValue
  | .obj fields, key => (fields.find? fun f => f.1 = key).map (·.2)
  | _, _ => none

def asStr : JsonValue → Option String
  | .str s => some s
  | _ => none

def asArray : JsonValue → Option (List JsonValue)
  | .arr elements => some elements
  | _ => none

def isObject : JsonValue → Bool
  | .obj _ => true
  | _ => false

/-- Bind the key in the fields: in its place, or at the end. -/
def setField (key : String) (value : JsonValue) :
    List (String × JsonValue) → List (String × JsonValue)
  | [] => [(key, value)]
  | f :: rest =>
      if f.1 = key then (key, value) :: rest else f :: setField key value rest

/-- The object with the key bound; other values stay as they are. -/
def set (j : JsonValue) (key : String) (value : JsonValue) : JsonValue :=
  match j with
  | .obj fields => .obj (setField key value fields)
  | j => j

section Lemmas

variable {j v v' : JsonValue} {fields : List (String × JsonValue)} {key key' : String}

@[simp] theorem get_obj_nil : (obj []).get key = none := rfl

theorem get_obj_cons
    {f : String × JsonValue} :
    (obj (f :: fields)).get key =
      if f.1 = key then some f.2 else (obj fields).get key := by
  by_cases h : f.1 = key <;> simp [get, h]

theorem isObject_of_get
    (h : j.get key = some v) :
    j.isObject = true := by
  cases j with
  | obj fields => rfl
  | _ => cases h

theorem get_setField :
    (obj (setField key v fields)).get key' =
      if key' = key then some v else (obj fields).get key' := by
  induction fields with
  | nil =>
      rw [setField, get_obj_cons]
      by_cases h : key' = key
      · simp [h]
      · rw [if_neg (Ne.symm h), if_neg h]
  | cons f fields ih =>
      by_cases hf : f.1 = key
      · rw [setField, if_pos hf, get_obj_cons, get_obj_cons]
        by_cases h : key' = key
        · simp [h]
        · simp [h, Ne.symm h, hf]
      · rw [setField, if_neg hf, get_obj_cons, get_obj_cons, ih]
        by_cases h : key' = key
        · subst h
          simp [hf]
        · simp [h]

theorem get_set
    (h : j.isObject = true) :
    (j.set key v).get key' = if key' = key then some v else j.get key' := by
  cases j with
  | obj fields => exact get_setField
  | _ => cases h

@[simp] theorem isObject_set : (j.set key v).isObject = j.isObject := by
  cases j <;> rfl

end Lemmas

/-- The same value, up to the way in which a number is written. -/
def SameValue (v v' : JsonValue) : Prop :=
  v = v' ∨ ∃ n n' : JsonNumber, v = .num n ∧ v' = .num n' ∧ n.value = n'.value

theorem SameValue.refl
    (v : JsonValue) :
    v.SameValue v :=
  Or.inl rfl

end JsonValue

end CockatielEngine
