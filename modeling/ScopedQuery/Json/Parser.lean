import ScopedQuery.Json.Number
import ScopedQuery.Text.Blank
import ScopedQuery.Text.Letter

set_option autoImplicit false

namespace ScopedQuery.Json

inductive Token where
  | openArray | closeArray | openObject | closeObject | comma | colon
  | value (v : Json)

def hexDigit? (c : Char) : Option Nat :=
  if c.isDigit then some (c.toNat - '0'.toNat)
  else if 'a' ≤ c && c ≤ 'f' then some (c.toNat - 'a'.toNat + 10)
  else if 'A' ≤ c && c ≤ 'F' then some (c.toNat - 'A'.toNat + 10)
  else none

def hex4? (a b c d : Char) : Option Nat := do
  let a ← hexDigit? a
  let b ← hexDigit? b
  let c ← hexDigit? c
  let d ← hexDigit? d
  pure (((a * 16 + b) * 16 + c) * 16 + d)

def shortEscape? (c : Char) : Option Char :=
  if c == Text.doubleQuote || c == Text.backslash || c == '/' then some c
  else if c == 'b' then some (Char.ofNat 8)
  else if c == 'f' then some (Char.ofNat 12)
  else if c == 'n' then some '\n'
  else if c == 'r' then some '\r'
  else if c == 't' then some '\t'
  else none

/-- The inside of a string up to its closing quote, and what follows. `high` holds the first half of
a surrogate pair whose second half has to come next. -/
def stringBody : Option Nat → List Char → Option (List Char × List Char)
  | _, [] => none
  | high, '\x5c' :: 'u' :: a :: b :: c :: d :: r =>
    match high, hex4? a b c d with
    | _, none => none
    | none, some u =>
      if 0xD800 ≤ u && u < 0xDC00 then stringBody (some u) r
      else if 0xDC00 ≤ u && u < 0xE000 then none
      else (stringBody none r).map fun (s, rest) => (Char.ofNat u :: s, rest)
    | some h, some u =>
      if 0xDC00 ≤ u && u < 0xE000 then
        (stringBody none r).map fun (s, rest) =>
          (Char.ofNat (0x10000 + (h - 0xD800) * 0x400 + (u - 0xDC00)) :: s, rest)
      else none
  | high, '\x5c' :: c :: r =>
    match high, shortEscape? c with
    | none, some x => (stringBody none r).map fun (s, rest) => (x :: s, rest)
    | _, _ => none
  | high, c :: r =>
    if high.isSome || c.toNat < 0x20 then none
    else if c == Text.doubleQuote then some ([], r)
    else if c == Text.backslash then none
    else (stringBody none r).map fun (s, rest) => (c :: s, rest)

def readToken (c : Char) (r : List Char) : Option (Token × List Char) :=
  if c == '[' then some (.openArray, r)
  else if c == ']' then some (.closeArray, r)
  else if c == '\x7b' then some (.openObject, r)
  else if c == '\x7d' then some (.closeObject, r)
  else if c == ',' then some (.comma, r)
  else if c == ':' then some (.colon, r)
  else if c == Text.doubleQuote then
    (stringBody none r).map fun (s, rest) => (.value (.str (String.ofList s)), rest)
  else if c == 't' then (Text.after? "rue".toList r).map fun rest => (.value (.bool true), rest)
  else if c == 'f' then (Text.after? "alse".toList r).map fun rest => (.value (.bool false), rest)
  else if c == 'n' then (Text.after? "ull".toList r).map fun rest => (.value .null, rest)
  else (readNumber (c :: r)).map fun (v, rest) => (.value v, rest)

/-- The tokens of a text; `fuel` bounds their number together with the blanks. -/
def tokens? : Nat → List Char → Option (List Token)
  | _, [] => some []
  | 0, _ :: _ => none
  | fuel + 1, c :: r =>
    if Text.isLayout c then tokens? fuel r
    else match readToken c r with
      | none => none
      | some (t, rest) => (tokens? fuel rest).map (t :: ·)

inductive Frame where
  | array (items : List Json)
  | object (members : List (String × Json)) (name : String)

inductive Expected where
  | value (orClose : Bool)
  /-- A member's name, or the end of the object when `orClose` is set. -/
  | name (orClose : Bool) (members : List (String × Json))
  | colon (members : List (String × Json)) (name : String)
  | after (v : Json)

structure State where
  frames : List Frame
  expected : Expected

def depthLimit : Nat := 127

def State.step (s : State) (t : Token) : Option State :=
  match s.expected, t with
  | .value _, .value v => some ⟨s.frames, .after v⟩
  | .value _, .openArray =>
    if s.frames.length < depthLimit then some ⟨.array [] :: s.frames, .value true⟩ else none
  | .value _, .openObject =>
    if s.frames.length < depthLimit then some ⟨s.frames, .name true []⟩ else none
  | .value true, .closeArray =>
    match s.frames with
    | .array items :: frames => some ⟨frames, .after (.arr items.reverse)⟩
    | _ => none
  | .name _ members, .value (.str name) => some ⟨s.frames, .colon members name⟩
  | .name true members, .closeObject => some ⟨s.frames, .after (.obj members)⟩
  | .colon members name, .colon => some ⟨.object members name :: s.frames, .value false⟩
  | .after v, .comma =>
    match s.frames with
    | .array items :: frames => some ⟨.array (v :: items) :: frames, .value false⟩
    | .object members name :: frames => some ⟨frames, .name false (Assoc.put members name v)⟩
    | [] => none
  | .after v, .closeArray =>
    match s.frames with
    | .array items :: frames => some ⟨frames, .after (.arr (v :: items).reverse)⟩
    | _ => none
  | .after v, .closeObject =>
    match s.frames with
    | .object members name :: frames =>
      some ⟨frames, .after (.obj (Assoc.put members name v))⟩
    | _ => none
  | _, _ => none

/-- The value of a complete JSON text. A repeated name keeps its first place and its last value. -/
def parse? (text : String) : Option Json := do
  let cs := text.toList
  let tokens ← tokens? cs.length cs
  let final ← tokens.foldlM State.step ⟨[], .value false⟩
  match final.frames, final.expected with
  | [], .after v => some v
  | _, _ => none

end ScopedQuery.Json
