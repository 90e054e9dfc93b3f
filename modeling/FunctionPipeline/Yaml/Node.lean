import FunctionPipeline.Yaml.Token

/-!
The nodes of a YAML text: scalars, sequences and mappings with their tags and anchors, and aliases.
`Node.ofTokens` reads the one document of a text; a text without a document has no node.
-/

namespace FunctionPipeline.Yaml

/-- A node. An alias stands for the node with the anchor of its name. Every other node that is
written has a number of its own. -/
inductive Node where
  | alias (name : List Char)
  | scalar (anchor : Option (List Char)) (tag : Tag) (number : Nat) (text : List Char)
  | sequence (anchor : Option (List Char)) (tag : Tag) (number : Nat) (items : List Node)
  | mapping (anchor : Option (List Char)) (tag : Tag) (number : Nat) (pairs : List (Node × Node))
  deriving Repr, Inhabited

structure Properties where
  anchor : Option (List Char)
  /-- The full name of the tag; a lone exclamation mark asks for the tag of the content. -/
  tag : Option (List Char)

namespace Properties

def none : Properties := ⟨.none, .none⟩

/-- Whether the tag is left to the content. -/
def isOpen (p : Properties) : Bool := p.tag.isNone || p.tag == some ['!']

def containerTag (p : Properties) (standard : Tag) : Tag :=
  if p.isOpen then standard else Tag.ofName (String.ofList (p.tag.getD []))

/-- The tag of a scalar. A plain one without a tag, and one with a lone exclamation mark, has the
tag of its text. -/
def scalarTag (p : Properties) (plain : Bool) (text : List Char) : Tag :=
  match p.tag with
  | .none => if plain then Plain.tag text else .str
  | some name => if name = ['!'] then Plain.tag text else Tag.ofName (String.ofList name)

end Properties

abbrev Handles := List (List Char × List Char)

namespace Node

def blank : Node := .scalar none .null 0 []

def unexpected {α : Type} : List Token → Except ReadError α
  | .unreadable cause :: _ => .error (.fault cause)
  | _ => .error .malformed

def tagName (handles : Handles) (handle : Option (List Char)) (suffix : List Char) :
    Except ReadError (List Char) :=
  match handle with
  | none => .ok suffix
  | some handle =>
      match handles.find? (·.1 == handle) with
      | some (_, uri) => .ok (uri ++ suffix)
      | none => .error .malformed

/-- An anchor and a tag, in either order, in front of tokens. After a tag alone the next token is
looked at before the tag is. -/
def properties (handles : Handles) : List Token → Except ReadError (Properties × List Token)
  | .anchor name :: .tag handle suffix :: ts => do
      return (⟨some name, some (← tagName handles handle suffix)⟩, ts)
  | .tag handle suffix :: .anchor name :: ts => do
      return (⟨some name, some (← tagName handles handle suffix)⟩, ts)
  | .tag _ _ :: .unreadable cause :: _ | .anchor _ :: .unreadable cause :: _ => .error (.fault cause)
  | .anchor name :: ts => .ok (⟨some name, none⟩, ts)
  | .tag handle suffix :: ts => do return (⟨none, some (← tagName handles handle suffix)⟩, ts)
  | ts => .ok (.none, ts)

/-- Where a node stands: whether it may be a block, and whether it may be a sequence without an
indentation of its own. -/
inductive Allowed where
  | flow
  | block
  | blockOrIndentless
  deriving DecidableEq, Repr

mutual

def ofFront (handles : Handles) (allowed : Allowed) :
    Nat → List Token → Except ReadError (Node × List Token)
  | 0, _ => .error .malformed
  | _ + 1, .alias name :: ts => .ok (.alias name, ts)
  | fuel + 1, ts => do
      let number := ts.length
      let (p, ts) ← properties handles ts
      match ts with
      | .blockEntry :: _ =>
          if allowed = .blockOrIndentless then
            let (items, ts) ← indentlessItems handles fuel ts
            return (.sequence p.anchor (p.containerTag .seq) number items, ts)
          else absent p number ts
      | .scalar plain text :: ts =>
          return (.scalar p.anchor (p.scalarTag plain text) number text, ts)
      | .flowSequenceStart :: ts =>
          let (items, ts) ← flowItems handles true fuel ts
          return (.sequence p.anchor (p.containerTag .seq) number items, ts)
      | .flowMappingStart :: ts =>
          let (pairs, ts) ← flowPairs handles true fuel ts
          return (.mapping p.anchor (p.containerTag .map) number pairs, ts)
      | .blockSequenceStart :: rest =>
          if allowed = .flow then absent p number ts
          else
            let (items, ts) ← blockItems handles fuel rest
            return (.sequence p.anchor (p.containerTag .seq) number items, ts)
      | .blockMappingStart :: rest =>
          if allowed = .flow then absent p number ts
          else
            let (pairs, ts) ← blockPairs handles fuel rest
            return (.mapping p.anchor (p.containerTag .map) number pairs, ts)
      | ts => absent p number ts

/-- A node left out, which needs an anchor or a tag. -/
def absent (p : Properties) (number : Nat) (ts : List Token) :
    Except ReadError (Node × List Token) :=
  match ts with
  | .unreadable cause :: _ => .error (.fault cause)
  | ts =>
      if p.anchor.isSome || p.tag.isSome then
        .ok (.scalar p.anchor (p.scalarTag true []) number [], ts)
      else unexpected ts

def blockItems (handles : Handles) : Nat → List Token → Except ReadError (List Node × List Token)
  | 0, _ => .error .malformed
  | fuel + 1, .blockEntry :: ts => do
      let (first, ts) ←
        match ts with
        | .blockEntry :: _ | .blockEnd :: _ => pure (blank, ts)
        | _ => ofFront handles .block fuel ts
      let (others, ts) ← blockItems handles fuel ts
      return (first :: others, ts)
  | _ + 1, .blockEnd :: ts => .ok ([], ts)
  | _ + 1, ts => unexpected ts

/-- Items after dashes at the indentation of the mapping around them. -/
def indentlessItems (handles : Handles) :
    Nat → List Token → Except ReadError (List Node × List Token)
  | 0, _ => .error .malformed
  | fuel + 1, .blockEntry :: ts => do
      let (first, ts) ←
        match ts with
        | .blockEntry :: _ | .key :: _ | .value :: _ | .blockEnd :: _ => pure (blank, ts)
        | _ => ofFront handles .block fuel ts
      let (others, ts) ← indentlessItems handles fuel ts
      return (first :: others, ts)
  | _ + 1, ts => .ok ([], ts)

/-- The node after a key or value indicator in a block, which may be left out. -/
def blockPart (handles : Handles) : Nat → List Token → Except ReadError (Node × List Token)
  | 0, _ => .error .malformed
  | fuel + 1, ts =>
      match ts with
      | .key :: _ | .value :: _ | .blockEnd :: _ => .ok (blank, ts)
      | _ => ofFront handles .blockOrIndentless fuel ts

/-- Pairs up to the end of the block, each from a key on. A key without a colon has no value. -/
def blockPairs (handles : Handles) :
    Nat → List Token → Except ReadError (List (Node × Node) × List Token)
  | 0, _ => .error .malformed
  | fuel + 1, .key :: ts => do
      let (key, ts) ← blockPart handles fuel ts
      let (value, ts) ←
        match ts with
        | .value :: ts => blockPart handles fuel ts
        | _ => pure (blank, ts)
      let (others, ts) ← blockPairs handles fuel ts
      return ((key, value) :: others, ts)
  | _ + 1, .blockEnd :: ts => .ok ([], ts)
  | _ + 1, ts => unexpected ts

/-- Items in brackets; `first` says whether no comma is needed. A pair among them is a mapping of
its own. -/
def flowItems (handles : Handles) (first : Bool) :
    Nat → List Token → Except ReadError (List Node × List Token)
  | 0, _ => .error .malformed
  | _ + 1, .flowSequenceEnd :: ts => .ok ([], ts)
  | fuel + 1, ts => do
      let ts ←
        if first then pure ts
        else match ts with
          | .flowEntry :: ts => pure ts
          | _ => unexpected ts
      match ts with
      | .flowSequenceEnd :: ts => return ([], ts)
      | .key :: ts =>
          let number := ts.length
          let (key, ts) ←
            match ts with
            | .value :: _ | .flowEntry :: _ | .flowSequenceEnd :: _ => pure (blank, ts)
            | _ => ofFront handles .flow fuel ts
          let (value, ts) ←
            match ts with
            | .value :: ts =>
                match ts with
                | .flowEntry :: _ | .flowSequenceEnd :: _ => pure (blank, ts)
                | _ => ofFront handles .flow fuel ts
            | _ => pure (blank, ts)
          let (others, ts) ← flowItems handles false fuel ts
          return (.mapping none .map (number + 1) [(key, value)] :: others, ts)
      | _ =>
          let (item, ts) ← ofFront handles .flow fuel ts
          let (others, ts) ← flowItems handles false fuel ts
          return (item :: others, ts)

/-- Pairs in braces; `first` says whether no comma is needed. -/
def flowPairs (handles : Handles) (first : Bool) :
    Nat → List Token → Except ReadError (List (Node × Node) × List Token)
  | 0, _ => .error .malformed
  | _ + 1, .flowMappingEnd :: ts => .ok ([], ts)
  | fuel + 1, ts => do
      let ts ←
        if first then pure ts
        else match ts with
          | .flowEntry :: ts => pure ts
          | _ => unexpected ts
      match ts with
      | .flowMappingEnd :: ts => return ([], ts)
      | .key :: ts =>
          let (key, ts) ←
            match ts with
            | .value :: _ | .flowEntry :: _ | .flowMappingEnd :: _ => pure (blank, ts)
            | _ => ofFront handles .flow fuel ts
          let (value, ts) ←
            match ts with
            | .value :: ts =>
                match ts with
                | .flowEntry :: _ | .flowMappingEnd :: _ => pure (blank, ts)
                | _ => ofFront handles .flow fuel ts
            | _ => pure (blank, ts)
          let (others, ts) ← flowPairs handles false fuel ts
          return ((key, value) :: others, ts)
      | _ =>
          let (key, ts) ← ofFront handles .flow fuel ts
          let (others, ts) ← flowPairs handles false fuel ts
          return ((key, blank) :: others, ts)

end

mutual

/-- The anchors in a node after those before it; malformed if one is there twice or an alias comes
before its anchor. -/
def anchors (before : List (List Char)) : Node → Except ReadError (List (List Char))
  | .alias name => if before.contains name then .ok before else .error .malformed
  | .scalar anchor _ _ _ => addAnchor before anchor
  | .sequence anchor _ _ items => do anchorsOfItems (← addAnchor before anchor) items
  | .mapping anchor _ _ pairs => do anchorsOfPairs (← addAnchor before anchor) pairs

def addAnchor (before : List (List Char)) : Option (List Char) →
    Except ReadError (List (List Char))
  | none => .ok before
  | some name => if before.contains name then .error .malformed else .ok (name :: before)

def anchorsOfItems (before : List (List Char)) : List Node → Except ReadError (List (List Char))
  | [] => .ok before
  | x :: xs => do anchorsOfItems (← anchors before x) xs

def anchorsOfPairs (before : List (List Char)) :
    List (Node × Node) → Except ReadError (List (List Char))
  | [] => .ok before
  | (k, v) :: ps => do anchorsOfPairs (← anchors (← anchors before k) v) ps

end

/-- Whether no anchor is there twice and no alias comes before its anchor, up to what cannot be
read. An anchor right before that does not count yet. -/
def anchorsKept (before : List (List Char)) : List Token → Bool
  | .unreadable _ :: _ | .anchor _ :: .unreadable _ :: _
  | .anchor _ :: .tag _ _ :: .unreadable _ :: _ | [] => true
  | .anchor name :: ts => !before.contains name && anchorsKept (name :: before) ts
  | .alias name :: ts => before.contains name && anchorsKept before ts
  | _ :: ts => anchorsKept before ts

/-- A reading of tokens, malformed if an anchor is not kept before what cannot be read. -/
def keepingAnchors {α : Type} (ts : List Token) (reading : Except ReadError α) :
    Except ReadError α :=
  match reading with
  | .error (.fault cause) => .error (if anchorsKept [] ts then .fault cause else .malformed)
  | reading => reading

def standardHandles : Handles :=
  [(['!'], ['!']), (['!', '!'], standardTags.toList)]

/-- The directives before a document: one version at most, which has to be a first one, and each
handle once. -/
def directives (versioned : Bool) (handles : Handles) :
    List Token → Except ReadError (Handles × List Token)
  | .directive d :: ts =>
      match d with
      | .version major =>
          if versioned || major ≠ 1 then .error .malformed else directives true handles ts
      | .tagHandle handle uri =>
          if handles.any (·.1 == handle) then .error .malformed
          else directives versioned ((handle, uri) :: handles) ts
      | .other => directives versioned handles ts
  | ts => .ok (handles, ts)

def document (handles : Handles) (ts : List Token) : Except ReadError (Node × List Token) :=
  match ts with
  | [] | .directive _ :: _ | .documentStart :: _ | .documentEnd :: _ => .ok (blank, ts)
  | _ => ofFront handles .block (4 * ts.length + 4) ts

def skipEnds : List Token → List Token
  | .documentEnd :: ts => skipEnds ts
  | ts => ts

/-- The node of the one document that tokens hold; none if they hold no document. -/
def ofTokens (ts : List Token) : Except ReadError (Option Node) :=
  match ts with
  | [] => .ok none
  | _ => do
      let (root, rest) ← keepingAnchors ts <|
        match ts with
        | .directive _ :: _ | .documentStart :: _ => do
            let (handles, ts) ← directives false [] ts
            match ts with
            | .documentStart :: ts =>
                document (handles ++ standardHandles) ts
            | ts => unexpected ts
        | ts => ofFront standardHandles .block (4 * ts.length + 4) ts
      let _ ← anchors [] root
      match skipEnds rest with
      | [] => return some root
      | rest => unexpected rest

end Node

end FunctionPipeline.Yaml
