import Mathlib.Data.Rat.Defs
import Mathlib.Data.List.Lex
import Mathlib.Order.Nat
import TrueAlpha.Lib.Sort

/-!
# Canonical JSON

What `json.dumps(..., sort_keys=True)` writes.  A number, a decimal or an instant that is dumped as its text keeps its value.
Arrays and objects are chains, so equality is decided by recursion; `array` and `object` build them.
-/

namespace TrueAlpha

inductive Json where
  | null
  | text (value : String)
  | number (value : ℤ)
  | decimal (value : ℚ)
  | nil
  | cons (head tail : Json)
  | empty
  | field (key : String) (value rest : Json)
  deriving DecidableEq, Repr

namespace Json

def array (items : List Json) : Json := items.foldr cons nil

def object (fields : List (String × Json)) : Json := fields.foldr (fun entry rest => field entry.1 entry.2 rest) empty

@[simp] theorem array_nil : array [] = nil := rfl

@[simp] theorem array_cons (item : Json) (items : List Json) : array (item :: items) = cons item (array items) := rfl

@[simp] theorem object_nil : object [] = empty := rfl

@[simp] theorem object_cons (key : String) (value : Json) (fields : List (String × Json)) :
    object ((key, value) :: fields) = field key value (object fields) := rfl

theorem array_injective : Function.Injective array := by
  intro items items' h
  induction items generalizing items' with
  | nil =>
    cases items' with
    | nil => rfl
    | cons _ _ => cases h
  | cons item items ih =>
    cases items' with
    | nil => cases h
    | cons item' items' =>
      obtain ⟨hitem, hitems⟩ := Json.cons.inj h
      rw [hitem, ih hitems]

theorem object_injective : Function.Injective object := by
  intro fields fields' h
  induction fields generalizing fields' with
  | nil =>
    cases fields' with
    | nil => rfl
    | cons _ _ => cases h
  | cons entry fields ih =>
    cases fields' with
    | nil => cases h
    | cons entry' fields' =>
      obtain ⟨hkey, hvalue, hrest⟩ := Json.field.inj h
      rw [Prod.ext hkey hvalue, ih hrest]

/-- Dumps that say everything give arrays that do. -/
theorem array_map_eq_iff {α : Type} {dump : α → Json} (h : Function.Injective dump) {items items' : List α} :
    array (items.map dump) = array (items'.map dump) ↔ items = items' :=
  array_injective.eq_iff.trans (List.map_injective_iff.mpr h).eq_iff

theorem text_injective : Function.Injective text := fun _ _ => Json.text.inj

def optional {α : Type} (dump : α → Json) : Option α → Json
  | none => null
  | some value => dump value

/-- The value of a key of an object. -/
def get? (key : String) : Json → Option Json
  | field name value rest => if name = key then some value else rest.get? key
  | _ => none

def without (key : String) : Json → Json
  | field name value rest => if name = key then rest.without key else field name value (rest.without key)
  | other => other

/-- An object with the value of a key changed. -/
def modify (key : String) (change : Json → Json) : Json → Json
  | field name value rest => field name (if name = key then change value else value) (rest.modify key change)
  | other => other

def mapItems (change : Json → Json) : Json → Json
  | cons head tail => cons (change head) (tail.mapItems change)
  | other => other

/-- A dictionary, written with its keys in order. -/
def dict (fields : List (String × Json)) : Json := object (sortedBy (fun entry => entry.1.toList.map Char.toNat) fields)

theorem without_object (key : String) (fields : List (String × Json)) :
    (object fields).without key = object (fields.filter (·.1 ≠ key)) := by
  induction fields with
  | nil => rfl
  | cons entry fields ih =>
    obtain ⟨name, value⟩ := entry
    by_cases h : name = key <;> simp [without, h, ih]

theorem modify_object (key : String) (change : Json → Json) (fields : List (String × Json)) : (object fields).modify key change =
      object (fields.map fun entry => (entry.1, if entry.1 = key then change entry.2 else entry.2)) := by
  induction fields with
  | nil => rfl
  | cons entry fields ih =>
    obtain ⟨name, value⟩ := entry
    simp [modify, ih]

theorem without_dict (key : String) (fields : List (String × Json)) :
    (dict fields).without key = dict (fields.filter (·.1 ≠ key)) := by
  rw [dict, without_object, filter_sortedBy, dict]

theorem modify_dict (key : String) (change : Json → Json) (fields : List (String × Json)) : (dict fields).modify key change =
      dict (fields.map fun entry => (entry.1, if entry.1 = key then change entry.2 else entry.2)) := by
  rw [dict, modify_object, dict, sortedBy_map]
  exact fun _ => rfl

end Json

end TrueAlpha
