import FunctionPipeline.Document.Frozen
import FunctionPipeline.Fault

/-!
Deep merge of documents. Mappings are merged key by key; anything else in the overriding document
takes the place of what was there. The result is writable throughout.
-/

namespace FunctionPipeline

mutual

def Entries.mergeInto (base : Entries) : List (Value × Value) → Entries
  | [] => base
  | (key, value) :: rest =>
      Entries.mergeInto (Entries.put base key (Value.mergeOver (Entries.get? base key) value)) rest

/-- The value that stands under a key after an overriding value was written over the current one. -/
def Value.mergeOver (current : Option Value) : Value → Value
  | .mapping access entries =>
      match current with
      | some (.mapping _ below) =>
          .mapping .writable (Entries.mergeInto (Entries.thaw below) entries)
      | _ => Value.thaw (.mapping access entries)
  | value => Value.thaw value

end

def Entries.deepMerge (base override : Entries) : Entries :=
  Entries.mergeInto (Entries.thaw base) override

/-- The deep merge of values that nobody checked to be mappings. Over a base that is none only an
empty mapping can be merged, and what holds itself has no copy. -/
def Value.deepMerge (base override : Value) : Except Fault Value :=
  if base.hasReference then .error .endless
  else
    match override, base with
    | .mapping _ [], base => .ok base.thaw
    | .mapping access entries, .mapping _ below =>
        if Value.hasReference (.mapping access entries) then .error .endless
        else .ok (.object (Entries.deepMerge below entries))
    | .mapping .., base => .error (.noAttribute base.thaw.typeName "get")
    | override, _ => .error (.noAttribute override.typeName "items")

end FunctionPipeline
