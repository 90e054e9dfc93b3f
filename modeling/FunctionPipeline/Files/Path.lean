import FunctionPipeline.Text.Pieces

/-!
Paths as lists of names. Empty names and single dots are no part of a path; a double dot is.
-/

namespace FunctionPipeline

inductive PathStart where
  /-- The current directory. -/
  | here
  /-- The root of all directories. -/
  | root
  /-- The root, written with two slashes. -/
  | doubleRoot
  deriving DecidableEq, Repr, Inhabited

structure Path where
  start : PathStart
  names : List String
  deriving DecidableEq, Repr, Inhabited

namespace Path

def namesIn (text : String) : List String :=
  (cutText '/' text).filter fun name => name ≠ "" && name ≠ "."

def startOf : List Char → PathStart
  | '/' :: '/' :: '/' :: _ => .root
  | '/' :: '/' :: _ => .doubleRoot
  | '/' :: _ => .root
  | _ => .here

def ofText (text : String) : Path := ⟨startOf text.toList, namesIn text⟩

/-- The text of a path; that of the current directory is a dot. -/
def text (p : Path) : String :=
  match p.start, p.names with
  | .here, [] => "."
  | .here, names => joined "/" names
  | .root, names => "/" ++ joined "/" names
  | .doubleRoot, names => "//" ++ joined "/" names

/-- The last name; that of a start is empty. -/
def name (p : Path) : String := (p.names.getLast?).getD ""

/-- Whether a name has a null character in it, which no name of a file may have. -/
def hasNull (p : Path) : Bool := p.names.any fun name => name.toList.contains '\x00'

def parent (p : Path) : Path := { p with names := p.names.dropLast }

def join (p q : Path) : Path :=
  match q.start with
  | .here => { p with names := p.names ++ q.names }
  | _ => q

/-- The names with double dots carried out. -/
def collapsed (names : List String) : List String :=
  (names.foldl (fun done name => if name = ".." then done.tail else name :: done) []).reverse

def workDirectory : Path := ⟨.root, ["work"]⟩

/-- The path from the root, without double dots. -/
def resolved (p : Path) : Path := ⟨.root, collapsed (workDirectory.join p).names⟩

def fromRoot (p : Path) : List String := (workDirectory.join p).names

end Path

end FunctionPipeline
