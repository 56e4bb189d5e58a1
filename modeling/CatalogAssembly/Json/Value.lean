import CatalogAssembly.Binary64.Basic

/-!
# JSON values

A number is either an integer or a binary number of 64 bits; the two kinds are
never equal to each other, so `1` and `1.0` are different values. The fields of
an object are kept in the order of their names by code points, each name once;
`insertField` keeps that order and lets the last of two values win.
-/
namespace CatalogAssembly.Json

inductive Number where
  | integer (n : Int)
  | real (x : Binary64)
  deriving DecidableEq, Repr

def Number.equal : Number → Number → Bool
  | .integer m, .integer n => m == n
  | .real x, .real y => x.equal y
  | _, _ => false

/-- The number of 64 bits that is nearest. -/
def Number.toBinary64 : Number → Binary64
  | .integer n => .ofInt n
  | .real x => x

inductive Value where
  | null
  | bool (b : Bool)
  | number (n : Number)
  | string (s : String)
  | array (items : List Value)
  | object (fields : List (String × Value))
  deriving Repr, Inhabited

namespace Value

mutual

/-- Equality of values, by which `0.0` and `-0.0` are one number. -/
def equal : Value → Value → Bool
  | .null, .null => true
  | .bool a, .bool b => a == b
  | .number a, .number b => a.equal b
  | .string a, .string b => a == b
  | .array xs, .array ys => equalItems xs ys
  | .object fs, .object gs => equalFields fs gs
  | _, _ => false

def equalItems : List Value → List Value → Bool
  | [], [] => true
  | x :: xs, y :: ys => equal x y && equalItems xs ys
  | _, _ => false

def equalFields : List (String × Value) → List (String × Value) → Bool
  | [], [] => true
  | (k, x) :: fs, (l, y) :: gs => k == l && equal x y && equalFields fs gs
  | _, _ => false

end

/-- The value of a field, absent in everything that is no object. -/
def field? (v : Value) (name : String) : Option Value :=
  match v with
  | .object fields => fields.lookup name
  | _ => none

/-- Null counts as absent. -/
def present? : Option Value → Option Value
  | some .null => none
  | v => v

def ofInt (n : Int) : Value := .number (.integer n)

end Value

/-- Adds a field at its place in the order of names, or gives it a new value. -/
def insertField (name : String) (v : Value) : List (String × Value) → List (String × Value)
  | [] => [(name, v)]
  | (k, w) :: rest =>
    if name = k then (name, v) :: rest
    else if name < k then (name, v) :: (k, w) :: rest
    else (k, w) :: insertField name v rest

/-- The object with these fields, of which the last with a given name counts. -/
def Value.ofFields (fields : List (String × Value)) : Value :=
  .object (fields.foldl (fun sorted f => insertField f.1 f.2 sorted) [])

end CatalogAssembly.Json
