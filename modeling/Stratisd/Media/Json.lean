import Mathlib.Algebra.Group.Int.Defs
import Mathlib.Tactic.Common

/-! JSON values. The fields of an object are in the order of their names, each name once, so that
values are equal exactly if they have the same fields. -/

namespace Stratisd.Media

/-- A number without a fraction and without an exponent, or the text of another one. -/
inductive Number where
  | int (n : ℤ)
  | float (text : String)
  deriving DecidableEq

def Number.display : Number → String
  | int n => toString n
  | float text => text

mutual

inductive Value where
  | null
  | bool (b : Bool)
  | number (n : Number)
  | string (s : String)
  | array (values : Values)
  | object (fields : Fields)
  deriving DecidableEq

inductive Values where
  | nil
  | cons (value : Value) (values : Values)
  deriving DecidableEq

inductive Fields where
  | nil
  | cons (name : String) (value : Value) (fields : Fields)
  deriving DecidableEq

end

namespace Fields

/-- The fields without the one of the given name, and its value. -/
def remove (name : String) : Fields → Fields × Option Value
  | nil => (nil, none)
  | cons n v fields =>
    if n = name then (fields, some v)
    else
      let r := fields.remove name
      (cons n v r.1, r.2)

def get (name : String) : Fields → Option Value
  | nil => none
  | cons n v fields => if n = name then some v else fields.get name

/-- Put a value into its place, instead of another one of that name. -/
def insert (name : String) (value : Value) : Fields → Fields
  | nil => cons name value nil
  | cons n v fields =>
    if n = name then cons name value fields
    else if name < n then cons name value (cons n v fields)
    else cons n v (fields.insert name value)

theorem get_insert (name m : String) (value : Value) (fields : Fields) :
    (fields.insert name value).get m = if name = m then some value else fields.get m := by
  match fields with
  | nil => rfl
  | cons n v fields =>
    have ih := get_insert name m value fields
    by_cases hn : n = name
    · subst hn
      by_cases hm : n = m <;> simp [insert, get, hm]
    by_cases hlt : name < n
    · simp only [insert, if_neg hn, if_pos hlt, get]
    · simp only [insert, if_neg hn, if_neg hlt, get, ih]
      by_cases hm : name = m
      · rw [if_pos hm, if_pos hm, if_neg fun h => hn (h.trans hm.symm)]
      · rw [if_neg hm, if_neg hm]

end Fields

namespace Values

def toList : Values → List Value
  | nil => []
  | cons v values => v :: values.toList

def push (value : Value) : Values → Values
  | nil => cons value nil
  | cons v values => cons v (values.push value)

theorem toList_push (value : Value) (values : Values) :
    (values.push value).toList = values.toList ++ [value] := by
  match values with
  | nil => rfl
  | cons v values => rw [push, toList, toList_push value values, toList, List.cons_append]

end Values

namespace Value

def asBool : Value → Option Bool
  | bool b => some b
  | _ => none

def asStr : Value → Option String
  | string s => some s
  | _ => none

def asU64 : Value → Option ℕ
  | number (.int n) => if 0 ≤ n ∧ n < 2 ^ 64 then some n.toNat else none
  | _ => none

def asArray : Value → Option (List Value)
  | array values => some values.toList
  | _ => none

def asObject : Value → Option Fields
  | object fields => some fields
  | _ => none

def get (name : String) (value : Value) : Option Value := value.asObject.bind (Fields.get name)

def hexDigit (n : ℕ) : Char := Char.ofNat (if n < 10 then 0x30 + n else 0x61 + (n - 10))

/-- A character as it stands in a string. -/
def escape (c : Char) : String :=
  if c = '"' then "\\\""
  else if c = '\\' then "\\\\"
  else if c.toNat = 8 then "\\b"
  else if c.toNat = 9 then "\\t"
  else if c.toNat = 10 then "\\n"
  else if c.toNat = 12 then "\\f"
  else if c.toNat = 13 then "\\r"
  else if c.toNat < 32 then
    "\\u00".push (hexDigit (c.toNat / 16)) |>.push (hexDigit (c.toNat % 16))
  else c.toString

def quote (s : String) : String := "\"" ++ String.join (s.toList.map escape) ++ "\""

mutual

/-- The text of a value, without blanks. -/
def display : Value → String
  | null => "null"
  | bool true => "true"
  | bool false => "false"
  | number n => n.display
  | string s => quote s
  | array values => "[" ++ ",".intercalate (displayValues values) ++ "]"
  | object fields => "\x7b" ++ ",".intercalate (displayFields fields) ++ "\x7d"

def displayValues : Values → List String
  | .nil => []
  | .cons v values => display v :: displayValues values

def displayFields : Fields → List String
  | .nil => []
  | .cons n v fields => (quote n ++ ":" ++ display v) :: displayFields fields

end

/-! ### The strings in a value -/

mutual

/-- How many characters the longest string in a value has. -/
def weight : Value → ℕ
  | string s => s.length
  | array values => weightValues values
  | object fields => weightFields fields
  | _ => 0

def weightValues : Values → ℕ
  | .nil => 0
  | .cons v values => max (weight v) (weightValues values)

def weightFields : Fields → ℕ
  | .nil => 0
  | .cons _ v fields => max (weight v) (weightFields fields)

end

theorem weight_le_weightFields {name : String} {v : Value} {fields : Fields}
    (h : fields.get name = some v) : v.weight ≤ weightFields fields := by
  match fields with
  | .nil => cases h
  | .cons n v' fields =>
    rw [Fields.get] at h
    rw [weightFields]
    split_ifs at h
    · cases h
      exact Nat.le_max_left _ _
    · exact Nat.le_trans (weight_le_weightFields h) (Nat.le_max_right _ _)

theorem weight_le_weightValues {v : Value} {values : Values} (h : v ∈ values.toList) :
    v.weight ≤ weightValues values := by
  match values with
  | .nil => cases h
  | .cons v' values =>
    rw [weightValues]
    rcases List.mem_cons.mp h with rfl | h
    · exact Nat.le_max_left _ _
    · exact Nat.le_trans (weight_le_weightValues h) (Nat.le_max_right _ _)

theorem weight_le_of_get {name : String} {v value : Value} (h : value.get name = some v) :
    v.weight ≤ value.weight := by
  cases value <;> simp only [get, asObject, Option.bind_some, Option.bind_none, reduceCtorEq] at h
  rw [weight]
  exact weight_le_weightFields h

theorem weight_le_of_asArray {v value : Value} {values : List Value}
    (h : value.asArray = some values) (hv : v ∈ values) : v.weight ≤ value.weight := by
  cases value <;> simp only [asArray, Option.some.injEq, reduceCtorEq] at h
  rw [weight]
  exact weight_le_weightValues (h ▸ hv)

end Value

example : Value.display (.object (.cons "thp" .null (.cons "url" (.string "a\"b") .nil))) =
    "\x7b\"thp\":null,\"url\":\"a\\\"b\"\x7d" := by decide

end Stratisd.Media
