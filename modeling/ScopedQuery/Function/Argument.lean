import ScopedQuery.Clause.Column
import ScopedQuery.Decimal.Reading
import ScopedQuery.Error
import ScopedQuery.Function.CallText
import ScopedQuery.Function.Registry

set_option autoImplicit false

/-!
The terms that the arguments of a function call denote. An argument is everything, a literal, a call
of a registered function, an expression with an operator, or a column; anything else refuses the
whole call.
-/

namespace ScopedQuery.Function

/-- The inside of a text between two single quotes, where a quote written twice stands for one and
no quote stands alone. -/
def undoubled? : List Char → Option (List Char)
  | [] => some []
  | '\x27' :: '\x27' :: r => (undoubled? r).map (Text.singleQuote :: ·)
  | c :: r => if c == Text.singleQuote then none else (undoubled? r).map (c :: ·)

def quotedInside? (cs : List Char) : Option (List Char) :=
  match cs with
  | '\x27' :: r =>
    match r.reverse with
    | '\x27' :: inside => some inside.reverse
    | _ => none
  | _ => none

/-- The literal that a text denotes: a whole number that fits 64 bits, a number with a point, or a
text between single quotes. -/
def literal? (cs : List Char) : Option Sql.Literal :=
  match Decimal.integer? cs with
  | some n => (Decimal.signed? n).map .int
  | none =>
    match Decimal.pointed? cs with
    | some x => some (.float x)
    | none => ((quotedInside? cs).bind undoubled?).map fun s => .text (String.ofList s)

/-- The operators of an expression, the loosest first, and whether the last one at a level is taken
first, which makes the level associate to the left. -/
def levels : List (List (List Char) × Bool) := [
  ((["!=", "<>", "<=", ">=", "=<", "=>", "=", "<", ">"].map String.toList), false),
  ((["+", "-"].map String.toList), true),
  ((["*", "/"].map String.toList), true)]

def splitAtOperator? (cs : List Char) : Option Text.Occurrence :=
  levels.findSome? fun (tokens, last) => Text.findToken? tokens last cs

def isFoldedLetter (c : Char) : Bool := (Text.foldLetter c).isLower

/-- The keyword and the date in the argument of an extraction: a word, FROM between blanks, and some
text. -/
def extraction? (cs : List Char) : Option (List Char × List Char) :=
  match cs.takeWhile isFoldedLetter, cs.dropWhile isFoldedLetter with
  | [], _ => none
  | word, c :: r =>
    if Text.isBlank c then
      match Text.afterFolded? Text.foldLetter "from".toList (r.dropWhile Text.isBlank) with
      | some (b :: d :: rest) => if Text.isBlank b then some (word, Text.trim (d :: rest)) else none
      | _ => none
    else none
  | _, [] => none

def column? (own : Sql.Table) (cs : List Char) : Option Sql.Term :=
  (Clause.ColumnText.parse? cs).bind fun c => (c.resolve? own).map .column

/-- The call that an argument consists of, when its function is registered and it has no label. -/
def nestedCall? (cs : List Char) : Option CallText :=
  (CallText.parse? cs).filter fun c => c.label.isNone && isRecognized (String.ofList c.name)

def isExtract (name : List Char) : Bool := Text.equalAscii name "extract".toList

theorem length_of_extraction? {cs word date : List Char} (h : extraction? cs = some (word, date)) :
    date.length ≤ cs.length := by
  have folded : ∀ (ws xs ys : List Char),
      Text.afterFolded? Text.foldLetter ws xs = some ys → ys.length ≤ xs.length := by
    intro ws
    induction ws with
    | nil =>
      intro xs ys h
      cases h
      exact Nat.le_refl _
    | cons w ws ih =>
      intro xs ys h
      cases xs with
      | nil => simp [Text.afterFolded?] at h
      | cons x xs =>
        simp only [Text.afterFolded?] at h
        split at h
        · have := ih _ _ h
          simp
          omega
        · cases h
  have tail := Text.length_dropWhile_le isFoldedLetter cs
  unfold extraction? at h
  split at h
  · cases h
  · next c r eqDrop _ =>
    rw [eqDrop] at tail
    split at h
    · split at h
      · next b d rest found =>
        have blanks := Text.length_dropWhile_le Text.isBlank r
        have more := folded _ _ _ found
        have short := Text.length_trim_le (d :: rest)
        split at h
        · cases h
          simp only [List.length_cons] at *
          omega
        · cases h
      · cases h
    · cases h
  · cases h

theorem nil_not_mem_levels {tokens : List (List Char)} {last : Bool}
    (h : (tokens, last) ∈ levels) : [] ∉ tokens := by
  simp only [levels, List.mem_cons, Prod.mk.injEq, List.not_mem_nil, or_false] at h
  rcases h with ⟨rfl, _⟩ | ⟨rfl, _⟩ | ⟨rfl, _⟩ <;> decide

theorem length_of_splitAtOperator? {cs : List Char} {o : Text.Occurrence}
    (h : splitAtOperator? cs = some o) :
    o.left.length < cs.length ∧ o.right.length < cs.length := by
  obtain ⟨⟨tokens, last⟩, mem, found⟩ := List.exists_of_findSome?_eq_some h
  exact Text.length_of_findToken? (nil_not_mem_levels mem) found

theorem weight_of_nestedCall? {cs : List Char} {c : CallText} (h : nestedCall? cs = some c) :
    Text.weight c.args < cs.length :=
  CallText.weight_of_parse? (Option.eq_some_of_filter_eq_some h)

mutual

def argument (own : Sql.Table) (d : Sql.Dialect) (text : List Char) : Option Sql.Term :=
  let cs := Text.trim text
  have : cs.length ≤ text.length := Text.length_trim_le text
  if cs.isEmpty then none
  else if cs == ['*'] then some (.star none)
  else match literal? cs with
    | some v => some (.literal v)
    | none =>
      match call : nestedCall? cs with
      | some c =>
        have := weight_of_nestedCall? call
        (callOf own d c.name c.args).map Sql.FunctionCall.term
      | none =>
        match operator : splitAtOperator? cs with
        | some o =>
          have := length_of_splitAtOperator? operator
          match Sql.BinaryOp.ofToken? (String.ofList o.token), argument own d o.left,
            argument own d o.right with
          | some op, some left, some right => some (.binary left op right)
          | _, _, _ => column? own cs
        | none => column? own cs
termination_by (text.length, 0)

def arguments (own : Sql.Table) (d : Sql.Dialect) : List (List Char) → Option (List Sql.Term)
  | [] => some []
  | a :: rest => do
    let term ← argument own d a
    let terms ← arguments own d rest
    pure (term :: terms)
termination_by args => (Text.weight args, 0)
decreasing_by
  all_goals simp only [Text.weight]
  all_goals omega

/-- The call of a function. An extraction has one argument, which names the date part. -/
def callOf (own : Sql.Table) (d : Sql.Dialect) (name : List Char) (args : List (List Char)) :
    Option Sql.FunctionCall :=
  if isExtract name then
    match args with
    | [a] =>
      match found : extraction? a with
      | some (word, date) =>
        have : date.length < Text.weight [a] := by
          simpa [Text.weight] using Nat.lt_succ_of_le (length_of_extraction? found)
        match Sql.DatePart.ofKeyword? (String.ofList word), argument own d date with
        | some part, some term => some ⟨"EXTRACT", [.datePart part, term], none⟩
        | _, _ => none
      | none => none
    | _ => none
  else (arguments own d args).map fun terms => call (String.ofList name) terms d
termination_by (Text.weight args, 1)

end

def parseCall (own : Sql.Table) (d : Sql.Dialect) (text : String) : Result Sql.FunctionCall :=
  let parsed : Option Sql.FunctionCall := do
    let syntactic ← CallText.parse? text.toList
    let call ← callOf own d syntactic.name syntactic.args
    pure { call with label := syntactic.label.map String.ofList }
  match parsed with
  | some call => .ok call
  | none => .error (.invalidSelectField text)

end ScopedQuery.Function
