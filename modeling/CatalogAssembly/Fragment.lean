import CatalogAssembly.Identity

/-!
# Fragments

A fragment is an object with one field, whose name is the kind of the fragment
and whose value is its payload.
-/
namespace CatalogAssembly

open Json (Value)

inductive FragmentFault where
  | notAnObject (found : Value)
  | noKey
  | manyKeys (count : Nat)

structure Fragment where
  key : String
  payload : Value

namespace Fragment

def parse (raw : Value) : Except FragmentFault Fragment :=
  match raw with
  | .object [] => .error .noKey
  | .object [(key, payload)] => .ok ⟨key, payload⟩
  | .object fields => .error (.manyKeys fields.length)
  | _ => .error (.notAnObject raw)

def id? (f : Fragment) : Option Value := f.payload.payloadId?

end Fragment

end CatalogAssembly
