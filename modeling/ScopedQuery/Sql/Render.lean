import ScopedQuery.Decimal.Shortest
import ScopedQuery.Sql.Statement

set_option autoImplicit false

namespace ScopedQuery.Sql

structure Scope where
  dialect : Dialect
  table : Table
  qualify : Bool

namespace Scope

def ident (s : Scope) (name : String) : String := s.dialect.quoteIdentifier name

end Scope

def floatStyle : Decimal.Style := ⟨fun _ => true, false, fun _ => "", .away⟩

namespace Literal

def recordText : Literal → String
  | .null => ""
  | .bool b => if b then "1" else "0"
  | .int n => Decimal.ofInt n.toInt
  | .float x => Decimal.ofFloat floatStyle x
  | .text s => s

def sql (d : Dialect) : Literal → String
  | .null => "NULL"
  | .bool b => if b then "true" else "false"
  | .int n => Decimal.ofInt n.toInt
  | .float x => Decimal.ofFloat floatStyle x
  | .text s => d.quoteString s

end Literal

/-- A column, qualified unless it belongs to the queried table of an unqualified scope. -/
def Column.sql (s : Scope) (c : Column) : String :=
  if s.qualify || c.table != s.table then s.ident c.table.name ++ "." ++ s.ident c.name
  else s.ident c.name

def extractSql (d : Dialect) (part : DatePart) (date : String) : String :=
  match d, part with
  | .sqlite, .quarter => "((CAST(STRFTIME('%m'," ++ date ++ ") AS INTEGER)+2)/3)"
  | .sqlite, part => "CAST(STRFTIME('" ++ part.timeFormat ++ "'," ++ date ++ ") AS INTEGER)"
  | _, part => "EXTRACT(" ++ part.keyword ++ " FROM " ++ date ++ ")"

/-- The text of a call; two arguments of which the first is a date part make an extraction. -/
def callSql (s : Scope) (function : String) (args : List Term) (texts : List String) : String :=
  match args, texts with
  | [.datePart part, _], [_, date] => extractSql s.dialect part date
  | _, _ => function ++ "(" ++ ",".intercalate texts ++ ")"

inductive Connective where
  | conjunction | disjunction
  deriving DecidableEq

def Connective.infixText : Connective → String
  | .conjunction => " AND "
  | .disjunction => " OR "

/-- The text of a criterion as an operand of a connective. A group of several criteria under the
other connective, and every raw condition, stands in parentheses. -/
def operandSql (outer : Connective) (c : Criterion) (text : String) : String :=
  match c with
  | .conj items =>
    if outer == .disjunction && items.length > 1 then "(" ++ text ++ ")" else text
  | .disj items =>
    if outer == .conjunction && items.length > 1 then "(" ++ text ++ ")" else text
  | .raw _ => "(" ++ text ++ ")"
  | _ => text

mutual

def Term.sql (s : Scope) : Term → String
  | .column c => c.sql s
  | .star (some table) =>
    if s.qualify || table != s.table then s.ident table.name ++ ".*" else "*"
  | .star none => "*"
  | .literal v => v.sql s.dialect
  | .tuple items => "(" ++ ",".intercalate (Term.sqlOfList s items) ++ ")"
  | .position n => Decimal.ofNat n
  | .call function args _ => callSql s function args (Term.sqlOfList s args)
  | .binary left op right => left.sql s ++ op.token ++ right.sql s
  | .datePart part => part.keyword
  | .condition c => c.sql s

def Term.sqlOfList (s : Scope) : List Term → List String
  | [] => []
  | t :: ts => t.sql s :: Term.sqlOfList s ts

def Criterion.sql (s : Scope) : Criterion → String
  | .compare left op right => left.sql s ++ op.token ++ right.sql s
  | .member term values negated =>
    term.sql s ++ (if negated then " NOT IN (" else " IN (") ++
      ",".intercalate (Term.sqlOfList s values) ++ ")"
  | .isNull term negated => term.sql s ++ (if negated then " IS NOT NULL" else " IS NULL")
  | .like term pattern negated =>
    term.sql s ++ (if negated then " NOT LIKE " else " LIKE ") ++ pattern.sql s
  | .regex term pattern => term.sql s ++ " " ++ s.dialect.regexOperator ++ " " ++ pattern.sql s
  | .between term low high => term.sql s ++ " BETWEEN " ++ low.sql s ++ " AND " ++ high.sql s
  | .conj items =>
    Connective.conjunction.infixText.intercalate (Criterion.operands s .conjunction items)
  | .disj items =>
    Connective.disjunction.infixText.intercalate (Criterion.operands s .disjunction items)
  | .neg inner => "NOT (" ++ inner.sql s ++ ")"
  | .raw sql => sql

def Criterion.operands (s : Scope) (outer : Connective) : List Criterion → List String
  | [] => []
  | c :: cs => operandSql outer c (c.sql s) :: Criterion.operands s outer cs

end

theorem Term.sqlOfList_eq_map (s : Scope) (ts : List Term) :
    Term.sqlOfList s ts = ts.map (Term.sql s) := by
  induction ts with
  | nil => rfl
  | cons t ts ih => rw [Term.sqlOfList, ih, List.map_cons]

theorem Criterion.operands_eq_map (s : Scope) (outer : Connective) (cs : List Criterion) :
    Criterion.operands s outer cs = cs.map fun c => operandSql outer c (c.sql s) := by
  induction cs with
  | nil => rfl
  | cons c cs ih => rw [Criterion.operands, ih, List.map_cons]

def selectItemSql (s : Scope) (t : Term) : String :=
  match t with
  | .column ⟨_, _, some label⟩ | .call _ _ (some label) => t.sql s ++ " " ++ s.ident label
  | t => t.sql s

def Join.sql (s : Scope) (j : Join) : String :=
  "LEFT JOIN " ++ s.ident j.table.name ++ " ON " ++ j.on.sql s

def Ordering.sql (s : Scope) (o : Ordering) : String :=
  o.term.sql s ++ (match o.direction with | .asc => " ASC" | .desc => " DESC")

namespace Query

/-- The scope a query's terms are written in: columns are qualified as soon as a table is joined. -/
def scope (q : Query) : Scope := ⟨q.dialect, q.table, !q.joins.isEmpty⟩

def joinsSql (q : Query) : String :=
  String.join (q.joins.map fun j => " " ++ j.sql q.scope)

def whereSql (q : Query) : String :=
  if q.wheres.isEmpty then ""
  else " WHERE " ++ " AND ".intercalate (Criterion.operands q.scope .conjunction q.wheres)

def groupBySql (q : Query) : String :=
  if q.groupBys.isEmpty then ""
  else " GROUP BY " ++ ",".intercalate (Term.sqlOfList q.scope q.groupBys)

def orderBySql (q : Query) : String :=
  if q.orderBys.isEmpty then ""
  else " ORDER BY " ++ ",".intercalate (q.orderBys.map (Ordering.sql q.scope))

def limitSql (q : Query) : String :=
  match q.limit with
  | some n => " LIMIT " ++ Decimal.ofNat n
  | none => ""

def offsetSql (q : Query) : String :=
  match q.offset with
  | some n => " OFFSET " ++ Decimal.ofNat n
  | none => ""

/-- The locking clause, absent on a dialect that cannot lock rows. -/
def lockSql (q : Query) : String :=
  match q.lock with
  | some l =>
    if !q.dialect.supportsRowLocking then ""
    else if l.nowait then " FOR UPDATE NOWAIT"
    else if l.skipLocked then " FOR UPDATE SKIP LOCKED"
    else " FOR UPDATE"
  | none => ""

def tailSql (q : Query) : String :=
  q.whereSql ++ q.groupBySql ++ q.orderBySql ++ q.limitSql ++ q.offsetSql ++ q.lockSql

def selectSql (q : Query) : String :=
  "SELECT " ++ (if q.distinct then "DISTINCT " else "") ++
    ",".intercalate (q.selects.map (selectItemSql q.scope)) ++
    " FROM " ++ q.scope.ident q.table.name ++ q.joinsSql

def updateSql (q : Query) : String :=
  "UPDATE " ++ q.scope.ident q.table.name ++ q.joinsSql ++
    (if q.assignments.isEmpty then ""
     else " SET " ++ ",".intercalate
       (q.assignments.map fun (c, t) => c.sql q.scope ++ "=" ++ t.sql q.scope))

def insertSql (q : Query) : String :=
  "INSERT INTO " ++ q.scope.ident q.table.name ++
    (if q.targets.isEmpty then ""
     else " (" ++ ",".intercalate (q.targets.map fun c => q.scope.ident c.name) ++ ")") ++
    (if q.rows.isEmpty then ""
     else " VALUES " ++ ",".intercalate
       (q.rows.map fun row => "(" ++ ",".intercalate (Term.sqlOfList q.scope row) ++ ")"))

def sql (q : Query) : String :=
  match q.mode with
  | .select => q.selectSql ++ q.tailSql
  | .update => q.updateSql ++ q.tailSql
  | .insert => q.insertSql
  | .delete => "DELETE FROM " ++ q.scope.ident q.table.name ++ q.tailSql

end Query

end ScopedQuery.Sql
