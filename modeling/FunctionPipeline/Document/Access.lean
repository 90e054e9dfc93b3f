import FunctionPipeline.Fault

/-!
Taking apart values whose shape nobody checked. Each operation has the fault of a value of the
wrong shape.
-/

namespace FunctionPipeline.Value

/-- The value under a text key of something that should be a mapping. -/
def lookUp (v : Value) (name : String) : Except Fault (Option Value) :=
  match v.entries? with
  | some entries => .ok (Entries.field? entries name)
  | none => .error (.noAttribute v.typeName "get")

def subscript (v : Value) (name : String) : Except Fault Value :=
  match v with
  | .mapping .. =>
      match (v.entries?).bind (Entries.field? · name) with
      | some found => .ok found
      | none => .error (.noSuchKey (.str name))
  | .sequence .. | .str _ | .bytes _ => .error (.badIndex v.typeName "str")
  | _ => .error (.notSubscriptable v.typeName)

def first (v : Value) : Except Fault Value :=
  match v with
  | .sequence .. =>
      match (v.items?).getD [] with
      | x :: _ => .ok x
      | [] => .error (.indexOutOfRange v.typeName)
  | .str s =>
      match s.toList with
      | c :: _ => .ok (.str (String.singleton c))
      | [] => .error (.indexOutOfRange "str")
  | .mapping .. =>
      match (v.entries?).bind (Entries.get? · (.int 0)) with
      | some found => .ok found
      | none => .error (.noSuchKey (.int 0))
  | _ => .error (.notSubscriptable v.typeName)

/-- The parts of a value one by one: items, members, keys, or characters. -/
def elements (v : Value) : Except Fault (List Value) :=
  match v with
  | .sequence .. => .ok ((v.items?).getD [])
  | .set members => .ok members
  | .mapping _ entries => .ok (Entries.keys entries)
  | .str s => .ok (s.toList.map fun c => .str (String.singleton c))
  | .bytes octets => .ok (octets.map fun b => .int b.toNat)
  | _ => .error (.notIterable v.typeName)

def count (v : Value) : Except Fault Nat :=
  match v with
  | .sequence .. | .set _ | .mapping .. | .str _ | .bytes _ => do return (← v.elements).length
  | _ => .error (.noLength v.typeName)

/-- A value as a key, which a writable container cannot be. -/
def asKey (v : Value) : Except Fault Value :=
  match v.unhashable? with
  | some type => .error (.unhashable type)
  | none => .ok v

end FunctionPipeline.Value
