import StorageUpgrade.Position
import StorageUpgrade.Json.Fault
import StorageUpgrade.Text.Quoted

/-!
# Errors

What can stop a comparison. A layout that has changed is never an error. The wording of each error
is fixed here.
-/
namespace StorageUpgrade

inductive NumericField where
  | slot
  | offset
  | size
  deriving DecidableEq

def NumericField.key : NumericField → String
  | slot => "slot"
  | offset => "offset"
  | size => "numberOfBytes"

inductive ReadFault where
  | notFound
  | isDirectory
  | notDirectory
  | notText
  deriving DecidableEq

def ReadFault.message : ReadFault → String
  | notFound => "No such file or directory (os error 2)"
  | isDirectory => "Is a directory (os error 21)"
  | notDirectory => "Not a directory (os error 20)"
  | notText => "stream did not contain valid UTF-8"

/-- What stopped a comparison. -/
inductive Error where
  /-- A variable refers to a type that the document does not define. -/
  | missingType (label typeKey : String)
  /-- A field does not spell a number that fits. -/
  | invalidNumber (label : String) (field : NumericField) (spelling : String)
  /-- The aligned sequences have different lengths. -/
  | alignmentMismatch (overlay old : Nat)
  /-- Both sides of an aligned pair are placeholders. -/
  | unalignedPosition (start : Position)
  | scanRootMissing (path : String)
  | unreadable (fault : ReadFault)
  | json (fault : Json.Fault)
  deriving DecidableEq

namespace Error

def message : Error → String
  | missingType label typeKey =>
    "Malformed input: type '" ++ typeKey ++ "' referenced by '" ++ label ++
      "' is missing from the type dictionary"
  | invalidNumber label field spelling =>
    "Malformed input: " ++ field.key ++ " of '" ++ label ++ "' is not a usable number: " ++
      Text.quoted spelling
  | alignmentMismatch overlay old =>
    "Internal invariant violated: aligned lengths differ (overlay " ++ toString overlay ++
      ", old " ++ toString old ++ "). This is a bug, please report it"
  | unalignedPosition start =>
    "Internal invariant violated: no entry on either side at byte " ++ toString start ++
      ". This is a bug, please report it"
  | scanRootMissing path => "Path does not exist: " ++ path
  | unreadable fault => "I/O error: " ++ fault.message
  | json fault => "JSON parse error: " ++ fault.message

/-- The wording followed by that of the deeper cause, where an error has one. -/
def causes (e : Error) : List String :=
  match e with
  | unreadable fault => [e.message, fault.message]
  | json fault => [e.message, fault.message]
  | _ => [e.message]

/-- The input is at fault. -/
def isMalformedInput : Error → Bool
  | missingType .. | invalidNumber .. => true
  | _ => false

/-- An invariant of the comparison is broken. -/
def isInternal : Error → Bool
  | alignmentMismatch .. | unalignedPosition .. => true
  | _ => false

end Error

end StorageUpgrade
