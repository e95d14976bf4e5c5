import ScopedQuery.Yaml.Scalar

set_option autoImplicit false

namespace ScopedQuery.Yaml

inductive Token where
  | scalar (text : String) (plain : Bool)
  | key
  | value
  | item
  | comma
  | openList
  | closeList
  | openMap
  | closeMap
  | beginList
  | beginMap
  | dedent
  | documentStart
  | documentEnd
  deriving DecidableEq, Repr

structure KeyCandidate where
  position : Position
  place : Nat
  required : Bool

structure Lexer where
  rest : List Char
  position : Position
  tokens : List Token
  /-- The columns of the open block collections, the innermost first. -/
  indents : List Nat
  candidate : Option KeyCandidate
  /-- The candidates outside of the open brackets, the innermost first. -/
  outer : List (Option KeyCandidate)
  keyAllowed : Bool

namespace Lexer

def start (text : List Char) : Lexer where
  rest := text
  position := .start
  tokens := []
  indents := []
  candidate := none
  outer := []
  keyAllowed := true

def inFlow (l : Lexer) : Bool := !l.outer.isEmpty

def emit (l : Lexer) (t : Token) : Lexer := { l with tokens := t :: l.tokens }

def emitAt (l : Lexer) (place : Nat) (t : Token) : Lexer :=
  let behind := l.tokens.length - place
  { l with tokens := l.tokens.take behind ++ t :: l.tokens.drop behind }

def pass (l : Lexer) (n : Nat) : Lexer :=
  { l with
    rest := l.rest.drop n
    position := (l.rest.take n).foldl Position.after l.position }

def innerColumn (l : Lexer) : Nat :=
  match l.indents with
  | [] => 0
  | c :: _ => c + 1

/-- Opens a block collection at a column, if it is further to the right; its first token comes
behind the first `place` ones. -/
def indentTo (l : Lexer) (column place : Nat) (t : Token) : Lexer :=
  if !l.inFlow && l.innerColumn ≤ column then
    { l.emitAt place t with indents := column :: l.indents }
  else l

def dedentTo (l : Lexer) (column : Nat) : Lexer :=
  if l.inFlow then l
  else
    let closed := (l.indents.takeWhile fun c => column < c).length
    { l with
      tokens := List.replicate closed .dedent ++ l.tokens
      indents := l.indents.drop closed }

def dedentAll (l : Lexer) : Lexer :=
  if l.inFlow then l
  else { l with tokens := List.replicate l.indents.length .dedent ++ l.tokens, indents := [] }

def dropCandidate (l : Lexer) : Option Lexer :=
  if l.candidate.any KeyCandidate.required then none else some { l with candidate := none }

def markCandidate (l : Lexer) : Option Lexer :=
  if l.keyAllowed then do
    let required := !l.inFlow && l.indents.head? == some l.position.column
    let l ← l.dropCandidate
    pure { l with candidate := some ⟨l.position, l.tokens.length, required⟩ }
  else some l

def keyReach : Nat := 1024

def isStale (p : Position) (c : KeyCandidate) : Bool :=
  c.position.line < p.line || c.position.index + keyReach < p.index

def dropStale (l : Lexer) : Option Lexer :=
  let fresh (c : Option KeyCandidate) : Option (Option KeyCandidate) :=
    match c with
    | some k => if isStale l.position k then (if k.required then none else some none) else some c
    | none => some none
  do
    let candidate ← fresh l.candidate
    let outer ← l.outer.mapM fresh
    pure { l with candidate := candidate, outer := outer }

def encodingMark : Char := '\ufeff'

/-- Passes blanks, breaks and comments. Behind a break outside of brackets a key may begin, and
there a tab is no blank. -/
def passGapFrom (inFlow : Bool) :
    Bool → Bool → Position → List Char → Bool × Position × List Char
  | allowed, _, p, [] => (allowed, p, [])
  | allowed, inComment, p, c :: r =>
    if isBreak c then passGapFrom inFlow (allowed || !inFlow) false (p.after c) r
    else if inComment then passGapFrom inFlow allowed true (p.after c) r
    else if c == '#' then passGapFrom inFlow allowed true (p.after c) r
    else if c == encodingMark && p.column == 0 then
      passGapFrom inFlow allowed false (p.after c) r
    else if c == ' ' || (c == '\t' && (inFlow || !allowed)) then
      passGapFrom inFlow allowed false (p.after c) r
    else (allowed, p, c :: r)

def passGap (l : Lexer) : Lexer :=
  let (allowed, position, rest) := passGapFrom l.inFlow l.keyAllowed false l.position l.rest
  { l with keyAllowed := allowed, position := position, rest := rest }

def documentMark (l : Lexer) (t : Token) : Option Lexer := do
  let l ← l.dedentAll.dropCandidate
  pure { (l.emit t).pass 3 with keyAllowed := false }

def openBracket (l : Lexer) (t : Token) : Option Lexer := do
  let l ← l.markCandidate
  pure { (l.emit t).pass 1 with
    outer := l.candidate :: l.outer
    candidate := none
    keyAllowed := true }

def closeBracket (l : Lexer) (t : Token) : Option Lexer := do
  let l ← l.dropCandidate
  let (candidate, outer) := match l.outer with
    | c :: cs => (c, cs)
    | [] => (none, [])
  pure { (l.emit t).pass 1 with candidate := candidate, outer := outer, keyAllowed := false }

def comma (l : Lexer) : Option Lexer := do
  let l ← l.dropCandidate
  pure { (l.emit .comma).pass 1 with keyAllowed := true }

def item (l : Lexer) : Option Lexer := do
  if !l.inFlow && !l.keyAllowed then none
  let l ← (l.indentTo l.position.column l.tokens.length .beginList).dropCandidate
  pure { (l.emit .item).pass 1 with keyAllowed := true }

def explicitKey (l : Lexer) : Option Lexer := do
  if !l.inFlow && !l.keyAllowed then none
  let l ← (l.indentTo l.position.column l.tokens.length .beginMap).dropCandidate
  pure { (l.emit .key).pass 1 with keyAllowed := !l.inFlow }

def colon (l : Lexer) : Option Lexer :=
  match l.candidate with
  | some k =>
    let l := (l.emitAt k.place .key).indentTo k.position.column k.place .beginMap
    some { (l.emit .value).pass 1 with candidate := none, keyAllowed := false }
  | none =>
    if !l.inFlow && !l.keyAllowed then none
    else
      let l := l.indentTo l.position.column l.tokens.length .beginMap
      some { (l.emit .value).pass 1 with keyAllowed := !l.inFlow }

def afterScalar (l : Lexer) (plain : Bool) (s : Lexeme) : Lexer :=
  { l.emit (.scalar (String.ofList s.text) plain) with
    rest := s.rest
    position := s.position
    keyAllowed := s.crossedLine }

def quoted (l : Lexer) (read : Position → Gap → List Char → Option Lexeme) : Option Lexer := do
  let l ← l.markCandidate
  let inside := l.pass 1
  pure (l.afterScalar false (← read inside.position .none inside.rest))

def plain (l : Lexer) : Option Lexer := do
  let l ← l.markCandidate
  pure (l.afterScalar true (← plainFrom l.inFlow l.innerColumn l.position .none l.rest))

def isIndicator (c : Char) : Bool :=
  "-?:,[]\x7b\x7d#&*!|>'\x22%@\x60".toList.contains c

def token (l : Lexer) (c : Char) (r : List Char) : Option Lexer :=
  let beforeGap := atGap r
  if l.position.column == 0 && c == '%' then none
  else if isDocumentMark l.position (c :: r) then
    l.documentMark (if c == '-' then .documentStart else .documentEnd)
  else match c with
    | '[' => l.openBracket .openList
    | '\x7b' => l.openBracket .openMap
    | ']' => l.closeBracket .closeList
    | '\x7d' => l.closeBracket .closeMap
    | ',' => l.comma
    | '\x27' => l.quoted (singleQuotedFrom false)
    | '\x22' => l.quoted (doubleQuotedFrom .none)
    | '-' => if beforeGap then l.item else l.plain
    | '?' => if l.inFlow || beforeGap then l.explicitKey else l.plain
    | ':' => if l.inFlow || beforeGap then l.colon else l.plain
    | c => if isIndicator c || isSpace c then none else l.plain

/-- Reads one token and the gap in front of it; at the end, closes what is open. -/
def step (l : Lexer) : Option Lexer := do
  let l ← l.passGap.dropStale
  match l.rest with
  | [] => l.dedentAll.dropCandidate
  | c :: r => (l.dedentTo l.position.column).token c r

/-- Reads tokens to the end of the text. Every step but the last one passes a character, so that
`steps` need not be more than the characters and one. -/
def run : Nat → Lexer → Option (List Token)
  | 0, _ => none
  | steps + 1, l => do
    let ended := l.passGap.rest.isEmpty
    let l ← l.step
    if ended then pure l.tokens.reverse else run steps l

end Lexer

def isPrintable (c : Char) : Bool :=
  let n := c.toNat
  n == 0x09 || n == 0x0A || n == 0x0D || (0x20 ≤ n && n ≤ 0x7E) || n == 0x85 ||
    (0xA0 ≤ n && n ≤ 0xFFFD) || 0x10000 ≤ n

def tokens? (text : String) : Option (List Token) :=
  let cs := text.toList
  if cs.all isPrintable then
    let cs := unifyBreaks cs
    Lexer.run (cs.length + 1) (.start cs)
  else none

end ScopedQuery.Yaml
