import StorageUpgrade.Dictionary
import StorageUpgrade.Json.Float

/-!
# JSON values

Numbers come in three kinds: natural numbers of 64 bits, negative integers, and floating-point
numbers. The members of an object are a list, so that an object can be written in any order. An
object that was read lists them in the order of their keys.
-/
namespace StorageUpgrade

inductive Json.Number where
  | natural (n : UInt64)
  | negative (magnitude : Nat)
  | float (x : Json.Float64)
  deriving DecidableEq

inductive Json where
  | null
  | bool (b : Bool)
  | number (n : Json.Number)
  | string (s : String)
  | array (elements : List Json)
  | object (members : List (String × Json))

namespace Json

def Number.text : Number → String
  | natural n => toString n.toNat
  | negative n => "-" ++ toString n
  | float x => x.text

def ofNat (n : Nat) : Json := .number (.natural (UInt64.ofNat n))

/-- The last member with this key. -/
def findMember? (key : String) (members : List (String × Json)) : Option Json :=
  (members.reverse.find? fun m => m.1 = key).map (·.2)

/-- Member of an object. Any other value has no members. -/
def get? (v : Json) (key : String) : Option Json :=
  match v with
  | object members => findMember? key members
  | _ => none

end Json

end StorageUpgrade
