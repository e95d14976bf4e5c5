import ScopedQuery.Assoc
import ScopedQuery.Text.AlphanumericTable
import ScopedQuery.Text.Blank

set_option autoImplicit false

/-!
Files of environment variables: one `NAME=value` per line, with comments, quotes, escapes and
references to other variables. A variable that is set already keeps its value, and reading ends at
the first line that is malformed.
-/

namespace ScopedQuery.Settings.EnvFile

/-- What the next character of a line may belong to. A quoted value may go on in further lines. -/
inductive LineState where
  | plain
  | blank
  | escape
  /-- Inside quotes of the given kind, perhaps behind a backslash. -/
  | quoted (mark : Char) (escaped : Bool)
  | comment
  deriving DecidableEq

def LineState.step : LineState → Char → LineState
  | comment, _ => comment
  | escape, _ => plain
  | quoted mark true, _ => quoted mark false
  | quoted mark false, c =>
    if c == '\x5c' then quoted mark true else if c == mark then plain else quoted mark false
  | s, c =>
    if s == blank && c == '#' then comment
    else if c == '\x5c' then escape
    else if c == '\x22' || c == '\x27' then quoted c false
    else if s == plain && Text.isBlank c && c != '\n' && c != '\r' then blank
    else plain

def physicalLines (cs : List Char) : List (List Char) :=
  match cs with
  | [] => []
  | '\n' :: r => ['\n'] :: physicalLines r
  | c :: r =>
    match physicalLines r with
    | line :: lines => if r.isEmpty then [[c]] else (c :: line) :: lines
    | [] => [[c]]

def cutComment : LineState → List Char → List Char × LineState
  | s, [] => ([], s)
  | s, c :: r =>
    match s.step c with
    | .comment => ([], .comment)
    | s =>
      let (kept, last) := cutComment s r
      (c :: kept, last)

def withoutBreak (line : List Char) : List Char :=
  match line.reverse with
  | '\n' :: '\r' :: r => r.reverse
  | '\n' :: r => r.reverse
  | _ => line

/-- The logical lines of some physical ones. `held` is what a logical line has so far, and nothing
stands for a line that never ends. -/
def logicalLines : List Char → LineState → List (List Char) → List (Option (List Char))
  | _, .plain, [] => []
  | _, _, [] => [none]
  | held, s, line :: lines =>
    if (Text.trimLeft (held ++ line)).head? == some '#' then logicalLines [] .plain lines
    else
      let (kept, last) := cutComment s line
      match last with
      | .plain => some (withoutBreak (held ++ line)) :: logicalLines [] .plain lines
      | .comment => some (held ++ kept) :: logicalLines [] .plain lines
      | s => logicalLines (held ++ line) s lines

inductive ValueState where
  | plain
  | doubleQuoted
  | singleQuoted
  | escaped (inQuotes : Bool)
  | name (text : List Char) (inQuotes : Bool)
  | braced (text : List Char) (inQuotes : Bool)
  | ended

def lookUp (vars : Assoc String) (name : List Char) : List Char :=
  ((vars.find? (String.ofList name)).getD "").toList

def unescaped? (c : Char) : Option Char :=
  if c == 'n' then some '\n'
  else if ['\x5c', '\x27', '\x22', '$', ' '].contains c then some c
  else none

def openStep (inQuotes : Bool) (c : Char) : ValueState × List Char :=
  let same : ValueState := if inQuotes then .doubleQuoted else .plain
  if c == '$' then (.name [] inQuotes, [])
  else if c == '\x5c' then (.escaped inQuotes, [])
  else if inQuotes then
    if c == '\x22' then (.plain, []) else (same, [c])
  else if c == '\x27' then (.singleQuoted, [])
  else if c == '\x22' then (.doubleQuoted, [])
  else if c == ' ' || c == '\t' then (.ended, [])
  else (same, [c])

def valueFrom (vars : Assoc String) : ValueState → List Char → Option (List Char)
  | .plain, [] | .ended, [] | .escaped false, [] => some []
  | .name text false, [] => some (lookUp vars text)
  | _, [] => none
  | .ended, c :: r =>
    if c == ' ' || c == '\t' then valueFrom vars .ended r else if c == '#' then some [] else none
  | .escaped inQuotes, c :: r => do
    let x ← unescaped? c
    let rest ← valueFrom vars (if inQuotes then .doubleQuoted else .plain) r
    pure (x :: rest)
  | .singleQuoted, c :: r =>
    if c == '\x27' then valueFrom vars .plain r
    else (valueFrom vars .singleQuoted r).map (c :: ·)
  | .braced text inQuotes, c :: r =>
    if c == '\x7d' then
      (valueFrom vars (if inQuotes then .doubleQuoted else .plain) r).map (lookUp vars text ++ ·)
    else valueFrom vars (.braced (text ++ [c]) inQuotes) r
  | .name text inQuotes, c :: r =>
    if Text.isUnicodeAlphanumeric c then valueFrom vars (.name (text ++ [c]) inQuotes) r
    else if c == '\x7b' && text.isEmpty then valueFrom vars (.braced [] inQuotes) r
    else if c == '$' then
      (valueFrom vars (.name [] inQuotes) r).map (lookUp vars text ++ ·)
    else
      (valueFrom vars (if inQuotes then .doubleQuoted else .plain) r).map
        (lookUp vars text ++ [c] ++ ·)
  | .doubleQuoted, c :: r =>
    let (s, out) := openStep true c
    (valueFrom vars s r).map (out ++ ·)
  | .plain, c :: r =>
    let (s, out) := openStep false c
    (valueFrom vars s r).map (out ++ ·)

def isNameChar (c : Char) : Bool := c.isAlphanum || c == '_' || c == '.'

def readName (cs : List Char) : Option (List Char × List Char) :=
  match cs with
  | c :: _ =>
    if c.isAlpha || c == '_' then
      some (cs.takeWhile isNameChar, Text.trimLeft (cs.dropWhile isNameChar))
    else none
  | [] => none

def readDefinition (cs : List Char) : Option (List Char × List Char) := do
  match ← readName cs with
  | (name, '=' :: r) => pure (name, Text.trimLeft r)
  | (name, r) =>
    if name == "export".toList then
      match ← readName r with
      | (name, '=' :: r) => pure (name, Text.trimLeft r)
      | _ => none
    else none

/-- The variable that a line defines. A blank line defines nothing, and nothing at all stands for a
malformed one. -/
def readLine (vars : Assoc String) (line : List Char) : Option (Option (String × String)) :=
  match Text.trim line with
  | [] | '#' :: _ => some none
  | cs => do
    let (name, written) ← readDefinition cs
    let value ← match written with
      | [] | '#' :: _ => some []
      | cs => valueFrom vars .plain cs
    pure (some (String.ofList name, String.ofList value))

def loadLines (env : Assoc String) : List (Option (List Char)) → Assoc String
  | [] | none :: _ => env
  | some line :: lines =>
    match readLine env line with
    | none => env
    | some none => loadLines env lines
    | some (some (name, value)) =>
      loadLines (if (env.find? name).isSome then env else env.put name value) lines

def load (env : Assoc String) (text : String) : Assoc String :=
  let cs := match text.toList with
    | '\ufeff' :: r => r
    | cs => cs
  loadLines env (logicalLines [] .plain (physicalLines cs))

end ScopedQuery.Settings.EnvFile
