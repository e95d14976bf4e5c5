set_option autoImplicit false

namespace ScopedQuery.Yaml

def isBreak (c : Char) : Bool := c == '\n' || c == '\u2028' || c == '\u2029'

def isSpace (c : Char) : Bool := c == ' ' || c == '\t'

def unifyBreaks : List Char → List Char
  | [] => []
  | '\r' :: '\n' :: r => '\n' :: unifyBreaks r
  | c :: r => (if c == '\r' || c == '\u0085' then '\n' else c) :: unifyBreaks r

def atGap : List Char → Bool
  | [] => true
  | c :: _ => isSpace c || isBreak c

structure Position where
  line : Nat
  column : Nat
  index : Nat
  deriving DecidableEq, Repr

namespace Position

def start : Position := ⟨0, 0, 0⟩

def after (p : Position) (c : Char) : Position :=
  if isBreak c then ⟨p.line + 1, 0, p.index + c.utf8Size⟩
  else ⟨p.line, p.column + 1, p.index + c.utf8Size⟩

end Position

def isDocumentMark (p : Position) (cs : List Char) : Bool :=
  p.column == 0 &&
    match cs with
    | '-' :: '-' :: '-' :: r => atGap r
    | '.' :: '.' :: '.' :: r => atGap r
    | _ => false

inductive Gap where
  | none
  | spaces (text : List Char)
  /-- The first break, unless it was escaped, and the further ones. -/
  | breaks (first : Option Char) (more : List Char)

namespace Gap

def isNone : Gap → Bool
  | none => true
  | _ => false

def hasBreak : Gap → Bool
  | breaks _ _ => true
  | _ => false

def addSpace (c : Char) : Gap → Gap
  | none => spaces [c]
  | spaces text => spaces (text ++ [c])
  | breaks first more => breaks first more

def addBreak (c : Char) : Gap → Gap
  | none | spaces _ => breaks (some c) []
  | breaks first more => breaks first (more ++ [c])

def text : Gap → List Char
  | none => []
  | spaces text => text
  | breaks (some '\n') [] => [' ']
  | breaks (some '\n') more => more
  | breaks (some c) more => c :: more
  | breaks Option.none more => more

end Gap

structure Lexeme where
  text : List Char
  crossedLine : Bool
  position : Position
  rest : List Char

def Lexeme.prepend (head : List Char) (l : Lexeme) : Lexeme := { l with text := head ++ l.text }

def isFlowMark (c : Char) : Bool :=
  c == ',' || c == '[' || c == ']' || c == '\x7b' || c == '\x7d'

/-- The rest of a plain scalar. It ends at a comment, at a colon with a gap behind it, at a mark of
the collection around it, and at a line that is not indented far enough. -/
def plainFrom (inFlow : Bool) (indent : Nat) : Position → Gap → List Char → Option Lexeme
  | p, gap, [] => some ⟨[], gap.hasBreak, p, []⟩
  | p, gap, c :: r =>
    if isSpace c then
      if gap.hasBreak && c == '\t' && p.column < indent then none
      else plainFrom inFlow indent (p.after c) (gap.addSpace c) r
    else if isBreak c then plainFrom inFlow indent (p.after c) (gap.addBreak c) r
    else if !gap.isNone &&
        ((!inFlow && p.column < indent) || isDocumentMark p (c :: r) || c == '#') then
      some ⟨[], gap.hasBreak, p, c :: r⟩
    else if inFlow && c == ':' && (match r with | d :: _ => isFlowMark d || d == '?' | [] => false)
      then none
    else if (c == ':' && atGap r) || (inFlow && isFlowMark c) then
      some ⟨[], gap.hasBreak, p, c :: r⟩
    else (plainFrom inFlow indent (p.after c) .none r).map (Lexeme.prepend (gap.text ++ [c]))

def escaped? : Char → Option Char
  | '0' => some '\x00'
  | 'a' => some '\x07'
  | 'b' => some '\x08'
  | 't' | '\t' => some '\t'
  | 'n' => some '\n'
  | 'v' => some '\x0b'
  | 'f' => some '\x0c'
  | 'r' => some '\r'
  | 'e' => some '\x1b'
  | ' ' => some ' '
  | '\x22' => some '\x22'
  | '/' => some '/'
  | '\x5c' => some '\x5c'
  | 'N' => some '\u0085'
  | '_' => some '\u00a0'
  | 'L' => some '\u2028'
  | 'P' => some '\u2029'
  | _ => none

def hexLength? : Char → Option Nat
  | 'x' => some 2
  | 'u' => some 4
  | 'U' => some 8
  | _ => none

def hexDigit? (c : Char) : Option Nat :=
  if c.isDigit then some (c.toNat - '0'.toNat)
  else if 'a' ≤ c && c ≤ 'f' then some (c.toNat - 'a'.toNat + 10)
  else if 'A' ≤ c && c ≤ 'F' then some (c.toNat - 'A'.toNat + 10)
  else none

inductive Escape where
  | none
  | backslash
  | hex (missing value : Nat)

def doubleQuotedFrom : Escape → Position → Gap → List Char → Option Lexeme
  | _, _, _, [] => none
  | .backslash, p, _, c :: r =>
    if isBreak c then doubleQuotedFrom .none (p.after c) (.breaks none []) r
    else
      match escaped? c, hexLength? c with
      | some x, _ => (doubleQuotedFrom .none (p.after c) .none r).map (Lexeme.prepend [x])
      | none, some n => doubleQuotedFrom (.hex n 0) (p.after c) .none r
      | none, none => none
  | .hex missing value, p, _, c :: r =>
    match hexDigit? c with
    | none => none
    | some digit =>
      let value := value * 16 + digit
      if missing ≤ 1 then
        if h : value.isValidChar then
          (doubleQuotedFrom .none (p.after c) .none r).map
            (Lexeme.prepend [Char.ofNatAux value h])
        else none
      else doubleQuotedFrom (.hex (missing - 1) value) (p.after c) .none r
  | .none, p, gap, c :: r =>
    if isSpace c then doubleQuotedFrom .none (p.after c) (gap.addSpace c) r
    else if isBreak c then doubleQuotedFrom .none (p.after c) (gap.addBreak c) r
    else if isDocumentMark p (c :: r) then none
    else if c == '\x22' then some ⟨gap.text, false, p.after c, r⟩
    else if c == '\x5c' then
      (doubleQuotedFrom .backslash (p.after c) .none r).map (Lexeme.prepend gap.text)
    else (doubleQuotedFrom .none (p.after c) .none r).map (Lexeme.prepend (gap.text ++ [c]))

/-- The rest of a scalar in single quotes, in which a quote is written twice. `paired` tells that
the first quote of a pair was passed. -/
def singleQuotedFrom : Bool → Position → Gap → List Char → Option Lexeme
  | true, p, gap, '\x27' :: r =>
    (singleQuotedFrom false (p.after '\x27') .none r).map (Lexeme.prepend (gap.text ++ ['\x27']))
  | true, p, gap, cs => some ⟨gap.text, false, p, cs⟩
  | false, _, _, [] => none
  | false, p, gap, c :: r =>
    if isSpace c then singleQuotedFrom false (p.after c) (gap.addSpace c) r
    else if isBreak c then singleQuotedFrom false (p.after c) (gap.addBreak c) r
    else if isDocumentMark p (c :: r) then none
    else if c == '\x27' then singleQuotedFrom true (p.after c) gap r
    else (singleQuotedFrom false (p.after c) .none r).map (Lexeme.prepend (gap.text ++ [c]))

end ScopedQuery.Yaml
