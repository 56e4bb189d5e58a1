import CatalogAssembly.Json.Value

/-!
# Identifiers

A payload is identified by its field `id`. A place that waits for a payload
holds the bare identifier; once filled, it is identified as the payload is.
`sameId` compares identifiers: two numbers by their 64-bit values, so that `1`
is `1.0`, everything else by plain equality.
-/
namespace CatalogAssembly

open Json (Value)

def Json.Value.payloadId? (payload : Value) : Option Value := Value.present? (payload.field? "id")

/-- The identifier of what a place holds; null and arrays have none. -/
def Json.Value.slotId? (v : Value) : Option Value :=
  match v with
  | .null => none
  | .array _ => none
  | .object _ => v.payloadId?
  | _ => some v

def sameId (a b : Value) : Bool :=
  match a, b with
  | .number x, .number y => x.equal y || x.toBinary64.equal y.toBinary64
  | _, _ => a.equal b

/-- Both identifiers are there and are the same. -/
def matchingIds (a b : Option Value) : Bool :=
  match a, b with
  | some a, some b => sameId a b
  | _, _ => false

end CatalogAssembly
