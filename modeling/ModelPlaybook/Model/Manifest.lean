import ModelPlaybook.Error
import ModelPlaybook.Schema.Field

/-!
# Manifests

A manifest says what a model is called, which inputs it takes and which outputs it gives.
-/

namespace ModelPlaybook.Model

open ModelPlaybook.Schema

structure InputSpec where
  id : String
  type : String
  label : String
  values : Option (List Value)
  extra : Entries
deriving DecidableEq, Repr

structure OutputSpec where
  id : String
  label : String
  extra : Entries
deriving DecidableEq, Repr

structure Manifest where
  id : String
  name : String
  version : String
  description : String
  inputs : List InputSpec
  outputs : List OutputSpec
  extra : Entries
deriving DecidableEq, Repr

/-- A list of any values, or nothing. -/
def optionalList (v : Value) : Checked (Option (List Value)) :=
  match v with
  | .none => .valid none
  | v => (listOf .valid v).map some

def InputSpec.check (entries : Entries) : Checked InputSpec :=
  InputSpec.mk <$> required entries ["id"] text <*> required entries ["type"] text <*>
    withDefault entries "label" "" text <*> withDefault entries "values" none optionalList <*>
    unclaimed entries ["id", "type", "label", "values"]

def OutputSpec.check (entries : Entries) : Checked OutputSpec :=
  OutputSpec.mk <$> required entries ["id"] text <*> withDefault entries "label" "" text <*>
    unclaimed entries ["id", "label"]

/-- Reads a manifest from the entries of a document. -/
def Manifest.check (entries : Entries) : Checked Manifest :=
  Manifest.mk <$> required entries ["id"] text <*> required entries ["name"] text <*>
    required entries ["version"] versionText <*> withDefault entries "description" "" text <*>
    withDefault entries "inputs" [] (listOf (record "InputSpec" InputSpec.check)) <*>
    withDefault entries "outputs" [] (listOf (record "OutputSpec" OutputSpec.check)) <*>
    unclaimed entries ["id", "name", "version", "description", "inputs", "outputs"]

/-- The manifest that the entries of a document write. -/
def Manifest.ofEntries (entries : Entries) : Except Error Manifest :=
  if hasTextKeys entries then
    match check entries with
    | .valid m => .ok m
    | .invalid issues => .error (.invalidDocument issues)
  else .error (.fault badKey)

end ModelPlaybook.Model
