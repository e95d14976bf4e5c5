import ScopedQuery.Yaml.Token

set_option autoImplicit false

namespace ScopedQuery.Yaml

inductive Node where
  | scalar (text : String) (plain : Bool)
  | list (items : List Node)
  | map (entries : List (Node × Node))

namespace Node

def blank : Node := .scalar "" true

end Node

/-- Whether the next token is one of the given ones; so it is where there is none. -/
def comesNext (ts stops : List Token) : Bool :=
  match ts with
  | [] => true
  | t :: _ => stops.contains t

mutual

/-- Reads a node, and returns the tokens behind it. Block collections are read where `block` says
so, and a list whose dashes are not indented where `flush` does. `fuel` bounds the steps. -/
def readNode (block flush : Bool) : Nat → List Token → Option (Node × List Token)
  | 0, _ => none
  | fuel + 1, ts =>
    match ts with
    | .scalar text plain :: ts => some (.scalar text plain, ts)
    | .openList :: ts => do
      let (items, ts) ← readFlowItems fuel ts
      pure (.list items, ts)
    | .openMap :: ts => do
      let (entries, ts) ← readFlowEntries fuel ts
      pure (.map entries, ts)
    | .beginList :: ts =>
      if block then do
        let (items, ts) ← readItems fuel ts
        pure (.list items, ts)
      else none
    | .beginMap :: ts =>
      if block then do
        let (entries, ts) ← readEntries fuel ts
        pure (.map entries, ts)
      else none
    | .item :: ts =>
      if flush then do
        let (items, ts) ← readFlushItems fuel (.item :: ts)
        pure (.list items, ts)
      else none
    | _ => none

def readOptional (block flush : Bool) (stops : List Token) :
    Nat → List Token → Option (Node × List Token)
  | 0, _ => none
  | fuel + 1, ts =>
    if comesNext ts stops then some (.blank, ts) else readNode block flush fuel ts

def readValue (block flush : Bool) (stops : List Token) :
    Nat → List Token → Option (Node × List Token)
  | 0, _ => none
  | fuel + 1, ts =>
    match ts with
    | .value :: ts => readOptional block flush stops fuel ts
    | ts => some (.blank, ts)

def readItems : Nat → List Token → Option (List Node × List Token)
  | 0, _ => none
  | fuel + 1, ts =>
    match ts with
    | .item :: ts => do
      let (item, ts) ← readOptional true false [.item, .dedent] fuel ts
      let (items, ts) ← readItems fuel ts
      pure (item :: items, ts)
    | .dedent :: ts => some ([], ts)
    | _ => none

def readFlushItems : Nat → List Token → Option (List Node × List Token)
  | 0, _ => none
  | fuel + 1, ts =>
    match ts with
    | .item :: ts => do
      let (item, ts) ← readOptional true false [.item, .key, .value, .dedent] fuel ts
      let (items, ts) ← readFlushItems fuel ts
      pure (item :: items, ts)
    | ts => some ([], ts)

def readEntries : Nat → List Token → Option (List (Node × Node) × List Token)
  | 0, _ => none
  | fuel + 1, ts =>
    match ts with
    | .key :: ts => do
      let (key, ts) ← readOptional true true [.key, .value, .dedent] fuel ts
      let (value, ts) ← readValue true true [.key, .value, .dedent] fuel ts
      let (entries, ts) ← readEntries fuel ts
      pure ((key, value) :: entries, ts)
    | .dedent :: ts => some ([], ts)
    | _ => none

/-- Reads an item between brackets, where a key makes a map of one entry. A mark that stands where
the key should be takes its place. -/
def readFlowItem : Nat → List Token → Option (Node × List Token)
  | 0, _ => none
  | fuel + 1, ts =>
    match ts with
    | .key :: .value :: ts | .key :: .comma :: ts | .key :: .closeList :: ts => do
      let (value, ts) ← readValue false false [.comma, .closeList] fuel ts
      pure (.map [(.blank, value)], ts)
    | .key :: ts => do
      let (key, ts) ← readNode false false fuel ts
      let (value, ts) ← readValue false false [.comma, .closeList] fuel ts
      pure (.map [(key, value)], ts)
    | ts => readNode false false fuel ts

/-- Reads the items up to the closing bracket. A comma may stand in front of it. -/
def readFlowItems : Nat → List Token → Option (List Node × List Token)
  | 0, _ => none
  | fuel + 1, ts =>
    match ts with
    | .closeList :: ts => some ([], ts)
    | ts => do
      let (item, ts) ← readFlowItem fuel ts
      match ts with
      | .comma :: ts => do
        let (items, ts) ← readFlowItems fuel ts
        pure (item :: items, ts)
      | .closeList :: ts => pure ([item], ts)
      | _ => none

def readFlowEntry : Nat → List Token → Option ((Node × Node) × List Token)
  | 0, _ => none
  | fuel + 1, ts =>
    match ts with
    | .key :: ts => do
      let (key, ts) ← readOptional false false [.value, .comma, .closeMap] fuel ts
      let (value, ts) ← readValue false false [.comma, .closeMap] fuel ts
      pure ((key, value), ts)
    | ts => do
      let (key, ts) ← readNode false false fuel ts
      pure ((key, .blank), ts)

/-- Reads the entries up to the closing brace. A comma may stand in front of it. -/
def readFlowEntries : Nat → List Token → Option (List (Node × Node) × List Token)
  | 0, _ => none
  | fuel + 1, ts =>
    match ts with
    | .closeMap :: ts => some ([], ts)
    | ts => do
      let (entry, ts) ← readFlowEntry fuel ts
      match ts with
      | .comma :: ts => do
        let (entries, ts) ← readFlowEntries fuel ts
        pure (entry :: entries, ts)
      | .closeMap :: ts => pure ([entry], ts)
      | _ => none

end

def isDone (ts : List Token) : Bool := ts.all fun t => t == .documentEnd

def document? (ts : List Token) : Option Node := do
  let fuel := 4 * ts.length + 4
  let (node, rest) ← match ts with
    | [] => some (.blank, [])
    | .documentStart :: ts => readOptional true false [.documentStart, .documentEnd] fuel ts
    | ts => readNode true false fuel ts
  if isDone rest then pure node else none

def Node.parse? (text : String) : Option Node := (tokens? text).bind document?

end ScopedQuery.Yaml
