import ScopedQuery.Error

set_option autoImplicit false

namespace ScopedQuery.Filter

inductive Lineage where
  | descendants
  | descendantsInclusive
  | notDescendants
  | ancestors
  | notAncestors
  deriving DecidableEq, Repr

namespace Lineage

def isNegated : Lineage → Bool
  | notDescendants | notAncestors => true
  | descendants | descendantsInclusive | ancestors => false

def isDownward : Lineage → Bool
  | descendants | descendantsInclusive | notDescendants => true
  | ancestors | notAncestors => false

def shown : Lineage → String
  | descendants => "DescendantsOf"
  | descendantsInclusive => "DescendantsOfInclusive"
  | notDescendants => "NotDescendantsOf"
  | ancestors => "AncestorsOf"
  | notAncestors => "NotAncestorsOf"

end Lineage

inductive Operator where
  | compare (op : Sql.BinaryOp)
  | like (negated : Bool)
  | member (negated : Bool)
  | isSet
  | between
  | regex
  | lineage (relation : Lineage)
  deriving DecidableEq, Repr

namespace Operator

def spellings : List (String × Operator) := [
  ("=", compare .eq),
  ("!=", compare .ne),
  ("<>", compare .ne),
  ("<", compare .lt),
  (">", compare .gt),
  ("<=", compare .le),
  ("=<", compare .le),
  (">=", compare .ge),
  ("=>", compare .ge),
  ("like", like false),
  ("not like", like true),
  ("in", member false),
  ("not in", member true),
  ("is", isSet),
  ("between", between),
  ("regex", regex),
  ("descendants of", lineage .descendants),
  ("descendants of (inclusive)", lineage .descendantsInclusive),
  ("not descendants of", lineage .notDescendants),
  ("ancestors of", lineage .ancestors),
  ("not ancestors of", lineage .notAncestors)]

/-- The operator a token stands for, blanks around it and the case of its letters forgiven. -/
def parse (token : String) : Result Operator :=
  let normal := String.ofList ((Text.trim token.toList).map Text.lowerLetter)
  match Assoc.find? spellings normal with
  | some op => .ok op
  | none => .error (.unknownOperator token)

def memberValues : Operand → List Sql.Term
  | .null => [.literal .null]
  | .scalar (.text s) =>
    (s.toList.splitOn ',').map fun item => .text (String.ofList (Text.trim item))
  | .scalar v => [.literal v]
  | .list vs => vs.map .literal

/-- The criterion on a term. Relations in a tree are looked up in the catalog, so that none of them
can be built from a term and a value alone. -/
def build (op : Operator) (term : Sql.Term) (value : Operand) : Result Sql.Criterion :=
  match op with
  | compare op => .ok (.compare term op value.term)
  | like negated => .ok (.like term value.term negated)
  | member negated => .ok (.member term (memberValues value) negated)
  | isSet =>
    match value.text with
    | .ok text => .ok (.isNull term (Text.equalAscii text.toList "set".toList))
    | .error fault => .error (.unsupportedValue fault)
  | between =>
    match value with
    | .list [low, high] => .ok (.between term (.literal low) (.literal high))
    | other => .error (.unsupportedValue (.notTwoValues other))
  | regex => .ok (.regex term value.term)
  | lineage relation => .error (.unknownOperator relation.shown)

end Operator

end ScopedQuery.Filter
