import FunctionPipeline.Failure
import FunctionPipeline.Files.Path
import FunctionPipeline.Manifest.Input

/-!
Settings in sections. A setting that is a section or a list may be null, which is the empty one.
-/

namespace FunctionPipeline.Config

def refused {α : Type} (cause : ConfigError) : Except Failure α := .error (.config cause)

def refusedFor {α : Type} (v : Value) (telling : String → ConfigError) : Except Failure α :=
  match v.shown with
  | .ok text => refused (telling text)
  | .error cause => .error (.fault cause)

def sectionOf (what : String) (v : Option Value) : Except Failure Entries :=
  match v.getD .null with
  | .null => .ok []
  | .mapping .writable entries => .ok (((Value.object entries).entries?).getD [])
  | v => refused (.notMapping what v.typeName)

def itemsOf (what : String) (v : Option Value) : Except Failure (List Value) :=
  match v.getD .null with
  | .null => .ok []
  | .sequence .writable items => .ok (((Value.list items).items?).getD [])
  | v => refused (.notList what v.typeName)

/-- A setting, or what stands in for it. -/
def setting (settings : Entries) (key : String) (usual : Value) : Value :=
  (Entries.field? settings key).getD usual

/-- The directory that a setting names; what counts as no is none. -/
def directoryIn (settings : Entries) (key : String) : Except Failure (Option Path) :=
  match Entries.orElse settings key .null with
  | .null => .ok none
  | .str s => .ok (some (Path.ofText s))
  | v => .error (.fault (.notPath v.typeName))

/-- A number that is not at or below zero; not-a-number will do. -/
def isTimeout (v : Value) : Bool :=
  match v with
  | .bool b => b
  | .int n => n > 0
  | .float x => (x.position?.map fun p => Binary64.Position.before (.at 0) p).getD true
  | _ => false

def isOneOf (v : Value) (choices : List Value) : Bool := choices.any fun c => v.equals c

/-- How long an outside program may take unless something else is set, in seconds. -/
def usualTimeout : Value := .int 120

def usualProgram : Value := .str "node"

end FunctionPipeline.Config
