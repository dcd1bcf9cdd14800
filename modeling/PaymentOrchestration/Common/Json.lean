import Mathlib.Data.Rat.Defs

/-!
This module contains JSON values together with the JavaScript operators the source applies to them.
`none` stands for `undefined`.
-/

namespace PaymentOrchestration

inductive Json where
  | null
  | bool (b : Bool)
  | num (q : ℚ)
  | str (s : String)
  | arr (xs : List Json)
  | obj (fields : List (String × Json))

namespace Json

def truthy (v : Json) : Bool :=
  match v with
  | .null => false
  | .bool b => b
  | .num q => q ≠ 0
  | .str s => s ≠ ""
  | .arr _ => true
  | .obj _ => true

-- `v.name`, where `v` is neither `null` nor `undefined`.
def field (name : String) (v : Json) : Option Json :=
  match v with
  | .obj fields => fields.lookup name
  | _ => none

-- `v?.name`
def field? (name : String) (v : Option Json) : Option Json :=
  match v with
  | none => none
  | some v => v.field name

-- `a || b`
def or (a b : Option Json) : Option Json :=
  match a with
  | none => b
  | some v => if v.truthy then some v else b

-- `v || null`, tested for truth
def orNull (v : Option Json) : Option Json :=
  v.filter truthy

mutual

-- `${v}` looks for a `toString` that can be called, and nothing in a JSON value can be.
def convertible (v : Json) : Bool :=
  match v with
  | .arr xs => allConvertible xs
  | .obj fields => (fields.lookup "toString").isNone
  | _ => true

def allConvertible (xs : List Json) : Bool :=
  match xs with
  | [] => true
  | v :: xs => v.convertible && allConvertible xs

end

@[simp]
theorem or_none (b : Option Json) : or none b = b := by
  rfl

theorem or_some_of_truthy {v : Json} (b : Option Json) (h : v.truthy = true)
    : or (some v) b = some v := by
  simp [or, h]

theorem or_some_of_not_truthy {v : Json} (b : Option Json) (h : v.truthy = false)
    : or (some v) b = b := by
  simp [or, h]

theorem orNull_str {s : String} (h : s ≠ "") : orNull (some (.str s)) = some (.str s) := by
  simp [orNull, Option.filter, truthy, h]

end Json

end PaymentOrchestration
