import FunctionPipeline.Document.Value

/-!
Read-only and writable copies of documents. `freeze` makes every container below the root
read-only, `thaw` writable; both leave sets and scalars as they are.
-/

namespace FunctionPipeline.Value

mutual

/-- A copy with the given access at every level. -/
def withAccess (access : Access) : Value → Value
  | .sequence _ items => .sequence access (withAccessAll access items)
  | .mapping _ entries => .mapping access (withAccessEntries access entries)
  | v => v

def withAccessAll (access : Access) : List Value → List Value
  | [] => []
  | x :: xs => withAccess access x :: withAccessAll access xs

/-- Copies of the values of several entries; keys are kept. -/
def withAccessEntries (access : Access) : List (Value × Value) → List (Value × Value)
  | [] => []
  | (k, v) :: es => (k, withAccess access v) :: withAccessEntries access es

end

def freeze (v : Value) : Value := withAccess .readOnly v

def thaw (v : Value) : Value := withAccess .writable v

end FunctionPipeline.Value

namespace FunctionPipeline.Entries

def freeze (entries : Entries) : Entries := Value.withAccessEntries .readOnly entries

def thaw (entries : Entries) : Entries := Value.withAccessEntries .writable entries

end FunctionPipeline.Entries
