import FunctionPipeline.Decimal.Binary64
import FunctionPipeline.Decimal.Length
import FunctionPipeline.Text.Hex
import FunctionPipeline.Text.Pieces

/-!
Literals, which tags may take as arguments: numbers, texts, octets, the words for true, false and
nothing, and tuples, sets and mappings of them. `Literal.isOne` says whether a text is one.
-/

namespace FunctionPipeline.Literal

inductive Token where
  | integer (n : Nat)
  | decimal
  | imaginary
  | text
  | octets
  | word (name : List Char)
  | ellipsis
  | mark (c : Char)
  /-- The end of a line outside brackets. -/
  | lineEnd
  deriving DecidableEq, Repr

/-- Letters, digits, underscores, and all that is beyond ASCII. -/
def isNamePart (c : Char) : Bool := c.isAlphanum || c = '_' || c.toNat ≥ 128

def ends (s : List Char) : Bool := !(s.head?.map isNamePart).getD false

/-- Digits with single underscores between them, one digit at least, and what follows. An underscore
that no digit follows is left. -/
def digitRun (p : Char → Bool) : List Char → List Char × List Char
  | '_' :: c :: rest =>
      if p c then
        let (run, rest) := digitRun p rest
        (c :: run, rest)
      else ([], '_' :: c :: rest)
  | c :: rest =>
      if p c then
        let (run, rest) := digitRun p rest
        (c :: run, rest)
      else ([], c :: rest)
  | [] => ([], [])

def digits (p : Char → Bool) (s : List Char) : List Char × List Char :=
  if s.head? = some '_' then ([], s) else digitRun p s

def based? (base : Nat) (s : List Char) : Option (Token × List Char) :=
  let (run, rest) := digitRun (fun c => (hexValue? c).any (· < base)) s
  if run.isEmpty || !ends rest then none
  else some (.integer (run.foldl (fun n c => n * base + (hexValue? c).getD 0) 0), rest)

/-- What follows an exponent, if there is one; nothing if there is only its letter. -/
def afterExponent? (s : List Char) : Option (Bool × List Char) :=
  match s with
  | e :: rest =>
      if e = 'e' || e = 'E' then
        let rest := if rest.head? = some '+' || rest.head? = some '-' then rest.drop 1 else rest
        let (run, rest) := digits Char.isDigit rest
        if run.isEmpty then none else some (true, rest)
      else some (false, s)
  | [] => some (false, s)

/-- A number that starts with a digit, or with a point before one. -/
def decimal? (s : List Char) : Option (Token × List Char) := do
  let (whole, rest) := digits Char.isDigit s
  let (pointed, rest) :=
    match rest with
    | '.' :: rest => (true, (digits Char.isDigit rest).2)
    | rest => (false, rest)
  let (raised, rest) ← afterExponent? rest
  let (imaginary, rest) :=
    match rest with
    | 'j' :: rest | 'J' :: rest => (true, rest)
    | rest => (false, rest)
  if !ends rest then none
  else if imaginary then some (.imaginary, rest)
  else if pointed || raised then some (.decimal, rest)
  else if whole.head? = some '0' && whole.any (· ≠ '0') then none
  else if whole.length > digitLimit then none
  else some (.integer (whole.foldl (fun n c => n * 10 + (c.toNat - 48)) 0), rest)

def number? (s : List Char) : Option (Token × List Char) :=
  match s with
  | '0' :: c :: rest =>
      if c = 'x' || c = 'X' then based? 16 rest
      else if c = 'o' || c = 'O' then based? 8 rest
      else if c = 'b' || c = 'B' then based? 2 rest
      else decimal? s
  | _ => decimal? s

structure Quoting where
  mark : Char
  /-- Whether the marks stand three times. -/
  triple : Bool
  /-- Whether backslashes stand for themselves. -/
  raw : Bool
  /-- Whether octets are written. -/
  octets : Bool

/-- How many characters the escape after a backslash has more than its letter, if they are there. -/
def escapeLength? (octets : Bool) (letter : Char) (rest : List Char) : Option Nat :=
  let fixed := fun (count : Nat) =>
    let digits := rest.take count
    if digits.length == count then (hexNumber? digits).bind fun n =>
      if n < 0x110000 then some count else none
    else none
  if letter = 'x' then fixed 2
  else if octets then some 0
  else if letter = 'u' then fixed 4
  else if letter = 'U' then fixed 8
  else if letter = 'N' then
    let name := (rest.drop 1).takeWhile fun c => c.isAlphanum || c = ' ' || c = '-'
    if rest.head? = some '\x7b' && !name.isEmpty && (rest.drop (name.length + 1)).head? = some '\x7d'
    then some (name.length + 2)
    else none
  else some 0

/-- What follows the closing marks, after some characters that are passed over. -/
def afterQuoted? (q : Quoting) : Nat → List Char → Option (List Char)
  | _, [] => none
  | skip + 1, _ :: rest => afterQuoted? q skip rest
  | 0, c :: rest =>
      if c = q.mark then
        if !q.triple then some rest
        else if rest.take 2 = [c, c] then some (rest.drop 2)
        else afterQuoted? q 0 rest
      else if (c = '\n' && !q.triple) || (q.octets && c.toNat ≥ 128) then none
      else if c = '\\' then
        match rest with
        | [] => none
        | letter :: more =>
            if q.octets && letter.toNat ≥ 128 then none
            else if q.raw then afterQuoted? q 1 rest
            else (escapeLength? q.octets letter more).bind fun n => afterQuoted? q (n + 1) rest
      else afterQuoted? q 0 rest

def quoted? (raw octets : Bool) (s : List Char) : Option (Token × List Char) :=
  match s with
  | [] => none
  | mark :: rest => do
      let triple := rest.take 2 == [mark, mark]
      let after ← afterQuoted? ⟨mark, triple, raw, octets⟩ (if triple then 2 else 0) rest
      return (if octets then .octets else .text, after)

def isQuote (c : Char) : Bool := c = '\'' || c = '"'

/-- A word, or a text with letters in front that say how it is written. -/
def word? (s : List Char) : Option (Token × List Char) :=
  let name := s.takeWhile isNamePart
  let rest := s.drop name.length
  if (rest.head?.map isQuote).getD false then
    match String.ofList (name.map Char.toLower) with
    | "r" => quoted? true false rest
    | "u" => quoted? false false rest
    | "b" => quoted? false true rest
    | "br" | "rb" => quoted? true true rest
    | _ => none
  else some (.word name, rest)

def token? (s : List Char) : Option (Token × List Char) :=
  match s with
  | [] => none
  | '.' :: '.' :: '.' :: rest => some (.ellipsis, rest)
  | c :: rest =>
      if c.isDigit || (c = '.' && (rest.head?.map Char.isDigit).getD false) then number? s
      else if isQuote c then quoted? false false s
      else if isNamePart c then word? s
      else if "()\x7b\x7d,:+-".toList.contains c then some (.mark c, rest)
      else none

/-- How many brackets are open after a token; none may close more than there are. -/
def depthAfter (depth : Nat) : Token → Nat
  | .mark '(' | .mark '\x7b' => depth + 1
  | .mark ')' | .mark '\x7d' => depth - 1
  | _ => depth

/-- The greatest number of brackets that may be open at once. -/
def depthLimit : Nat := 200

def isSeparator (c : Char) : Bool := c = ' ' || c = '\t' || c = '\x0c'

def isBlankLine (s : List Char) : Bool :=
  match s.dropWhile isSeparator with
  | [] => true
  | c :: _ => c = '#' || c = '\n'

/-- The tokens of a text. Outside brackets a line may not be indented. -/
def tokens? : Nat → Nat → List Char → Option (List Token)
  | 0, _, _ => none
  | fuel + 1, depth, s =>
      match s with
      | [] => some []
      | '\\' :: '\n' :: rest => if rest.isEmpty then none else tokens? fuel depth rest
      | '#' :: rest => tokens? fuel depth (rest.dropWhile (· ≠ '\n'))
      | '\n' :: rest =>
          if depth > 0 then tokens? fuel depth rest
          else if (rest.head?.map isSeparator).getD false && !isBlankLine rest then none
          else (tokens? fuel depth rest).map (.lineEnd :: ·)
      | c :: rest =>
          if isSeparator c then tokens? fuel depth rest
          else do
            let (token, rest) ← token? s
            let depth := depthAfter depth token
            if depth > depthLimit then none
            else (tokens? fuel depth rest).map (token :: ·)

inductive Kind where
  | integer (n : Nat)
  | decimal
  | imaginary
  /-- An integer with a sign. -/
  | signedInteger (n : Nat)
  | signedDecimal
  | signedImaginary
  /-- Any other that can be a key. -/
  | key
  /-- One that can be no key: a set or a mapping, or what holds one. -/
  | container
  deriving DecidableEq, Repr

namespace Kind

def isKey (k : Kind) : Bool := k != .container

def signed? : Kind → Option Kind
  | .integer n => some (.signedInteger n)
  | .decimal => some .signedDecimal
  | .imaginary => some .signedImaginary
  | _ => none

/-- Whether an imaginary number can be added: to a real one that is not too large. -/
def isReal : Kind → Bool
  | .integer n | .signedInteger n => (Binary64.ofInt? n).isSome
  | .decimal | .signedDecimal => true
  | _ => false

def tuple (items : List Kind) : Kind := if items.all isKey then .key else .container

end Kind

mutual

def atom : Nat → List Token → Option (Kind × List Token)
  | 0, _ => none
  | fuel + 1, ts =>
      match ts with
      | .integer n :: ts => some (.integer n, ts)
      | .decimal :: ts => some (.decimal, ts)
      | .imaginary :: ts => some (.imaginary, ts)
      | .text :: ts => some (.key, ts.dropWhile (· = .text))
      | .octets :: ts => some (.key, ts.dropWhile (· = .octets))
      | .ellipsis :: ts => some (.key, ts)
      | .word name :: .mark '(' :: .mark ')' :: ts =>
          if String.ofList name == "set" then some (.container, ts) else none
      | .word name :: ts =>
          if ["True", "False", "None"].contains (String.ofList name) then some (.key, ts) else none
      | .mark '(' :: .mark ')' :: ts => some (.key, ts)
      | .mark '(' :: ts => do
          let (first, ts) ← sum fuel ts
          match ts with
          | .mark ')' :: ts => return (first, ts)
          | .mark ',' :: ts => do
              let (others, ts) ← items fuel (.mark ')') ts
              return (.tuple (first :: others), ts)
          | _ => none
      | .mark '\x7b' :: .mark '\x7d' :: ts => some (.container, ts)
      | .mark '\x7b' :: ts => do
          let (first, ts) ← sum fuel ts
          if !first.isKey then none
          match ts with
          | .mark ':' :: ts => do
              let (_, ts) ← sum fuel ts
              return (.container, ← entries fuel ts)
          | .mark '\x7d' :: ts => return (.container, ts)
          | .mark ',' :: ts => do
              let (others, ts) ← items fuel (.mark '\x7d') ts
              if others.all Kind.isKey then return (.container, ts) else none
          | _ => none
      | _ => none

def signed : Nat → List Token → Option (Kind × List Token)
  | 0, _ => none
  | fuel + 1, ts =>
      match ts with
      | .mark '+' :: ts | .mark '-' :: ts => do
          let (k, ts) ← atom fuel ts
          return (← k.signed?, ts)
      | ts => atom fuel ts

/-- A literal, or the sum or difference of a real number and an imaginary one. -/
def sum : Nat → List Token → Option (Kind × List Token)
  | 0, _ => none
  | fuel + 1, ts => do
      let (left, ts) ← signed fuel ts
      match ts with
      | .mark '+' :: ts | .mark '-' :: ts => do
          let (right, ts) ← atom fuel ts
          if left.isReal && right = .imaginary then return (.key, ts) else none
      | ts => return (left, ts)

/-- Literals with commas between them up to a closing token; a comma may come last. -/
def items : Nat → Token → List Token → Option (List Kind × List Token)
  | 0, _, _ => none
  | fuel + 1, closing, ts =>
      if ts.head? = some closing then some ([], ts.drop 1)
      else do
        let (first, ts) ← sum fuel ts
        match ts with
        | .mark ',' :: ts => do
            let (others, ts) ← items fuel closing ts
            return (first :: others, ts)
        | ts => if ts.head? = some closing then return ([first], ts.drop 1) else none

def entries : Nat → List Token → Option (List Token)
  | 0, _ => none
  | fuel + 1, ts =>
      match ts with
      | .mark '\x7d' :: ts => some ts
      | .mark ',' :: .mark '\x7d' :: ts => some ts
      | .mark ',' :: ts => do
          let (k, ts) ← sum fuel ts
          if !k.isKey then none
          match ts with
          | .mark ':' :: ts => do
              let (_, ts) ← sum fuel ts
              entries fuel ts
          | _ => none
      | _ => none

end

def withLineFeeds : List Char → List Char
  | '\r' :: '\n' :: rest => '\n' :: withLineFeeds rest
  | '\r' :: rest => '\n' :: withLineFeeds rest
  | c :: rest => c :: withLineFeeds rest
  | [] => []

/-- Whether a text without blanks around it is a literal, or several with commas between them. -/
def isOne (s : List Char) : Bool :=
  let found : Option Unit := do
    if s.contains '\x00' then none
    let ts ← tokens? (s.length + 1) 0 (withLineFeeds s)
    let ts := ts.dropWhile (· = .lineEnd)
    let line := ts.takeWhile (· ≠ .lineEnd)
    if (ts.drop line.length).any (· ≠ .lineEnd) then none
    let (_, ts) ← sum (4 * line.length + 4) line
    match ts with
    | [] => some ()
    | .mark ',' :: ts => do
        let _ ← items (4 * line.length + 4) .lineEnd (ts ++ [.lineEnd])
        some ()
    | _ => none
  found.isSome

end FunctionPipeline.Literal
