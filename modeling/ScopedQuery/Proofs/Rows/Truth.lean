import Mathlib.Data.List.Basic
import ScopedQuery.Sql.Term

set_option autoImplicit false

namespace ScopedQuery.Sql

structure Row where
  /-- The text in a column of a table; nothing if the column is null. -/
  text? : Table → String → Option String
  /-- How a condition comes out that is no test of texts; nothing if that is unknown. -/
  verdict : Criterion → Option Bool

def both : Option Bool → Option Bool → Option Bool
  | some false, _ => some false
  | some true, o => o
  | none, some false => some false
  | none, _ => none

def either : Option Bool → Option Bool → Option Bool
  | some true, _ => some true
  | some false, o => o
  | none, some true => some true
  | none, _ => none

theorem both_eq_true {a b : Option Bool} :
    both a b = some true ↔ a = some true ∧ b = some true := by
  rcases a with _ | _ | _ <;> rcases b with _ | _ | _ <;> decide

theorem either_eq_true {a b : Option Bool} :
    either a b = some true ↔ a = some true ∨ b = some true := by
  rcases a with _ | _ | _ <;> rcases b with _ | _ | _ <;> decide

def Term.column? : Term → Option Column
  | column c => some c
  | _ => none

def Term.text? : Term → Option String
  | literal (.text s) => some s
  | _ => none

theorem mapM_text? (texts : List String) : (texts.map Term.text).mapM Term.text? = some texts := by
  induction texts with
  | nil => rfl
  | cons s texts ih =>
    rw [List.map_cons, List.mapM_cons, ih]
    rfl

/-- The test that a condition puts on the text in a column, and the column. A test of a null column
is unknown, but for the test whether it is one. -/
def Criterion.textTest? : Criterion → Option (Column × (Option String → Option Bool))
  | compare left .eq right => do
    let text ← right.text?
    pure (← left.column?, fun held => held.map fun s => s == text)
  | member term values negated => do
    let texts ← values.mapM Term.text?
    pure (← term.column?, fun held => held.map fun s => texts.contains s != negated)
  | isNull term negated => do
    pure (← term.column?, fun held => some (held.isNone != negated))
  | _ => none

namespace Row

def outcomeOfLeaf (row : Row) (c : Criterion) : Option Bool :=
  match c.textTest? with
  | some (column, test) => test (row.text? column.table column.name)
  | none => row.verdict c

mutual

def outcome (row : Row) : Criterion → Option Bool
  | .conj items => outcomeOfAll row items
  | .disj items => outcomeOfAny row items
  | .neg inner => (row.outcome inner).map not
  | c => row.outcomeOfLeaf c

def outcomeOfAll (row : Row) : List Criterion → Option Bool
  | [] => some true
  | c :: cs => both (row.outcome c) (outcomeOfAll row cs)

def outcomeOfAny (row : Row) : List Criterion → Option Bool
  | [] => some false
  | c :: cs => either (row.outcome c) (outcomeOfAny row cs)

end

def Passes (row : Row) (c : Criterion) : Prop := row.outcome c = some true

def PassesAll (row : Row) (cs : List Criterion) : Prop := ∀ c ∈ cs, row.Passes c

def Holds (row : Row) (table : Table) (column : String) (texts : List String) : Prop :=
  ∃ s ∈ texts, row.text? table column = some s

variable {row : Row}

@[simp] theorem passesAll_append {cs ds : List Criterion} :
    row.PassesAll (cs ++ ds) ↔ row.PassesAll cs ∧ row.PassesAll ds := by
  unfold PassesAll
  rw [List.forall_mem_append]

@[simp] theorem passesAll_singleton {c : Criterion} : row.PassesAll [c] ↔ row.Passes c := by
  unfold PassesAll
  rw [List.forall_mem_singleton]

@[simp] theorem passes_conj {items : List Criterion} :
    row.Passes (.conj items) ↔ row.PassesAll items := by
  unfold Passes PassesAll
  rw [outcome]
  induction items with
  | nil => simp [outcomeOfAll]
  | cons c items ih => rw [outcomeOfAll, both_eq_true, ih, List.forall_mem_cons, Passes]

@[simp] theorem passes_disj {items : List Criterion} :
    row.Passes (.disj items) ↔ ∃ c ∈ items, row.Passes c := by
  unfold Passes
  rw [outcome]
  induction items with
  | nil => simp [outcomeOfAny]
  | cons c items ih => rw [outcomeOfAny, either_eq_true, ih, List.exists_mem_cons_iff]

@[simp] theorem passes_all {cs : List Criterion} : row.Passes (.all cs) ↔ row.PassesAll cs := by
  unfold Criterion.all
  split
  · rw [passesAll_singleton]
  · exact passes_conj

/-- What is joined by OR is passed with either side, whether or not a choice was there already. -/
@[simp] theorem passes_or {c d : Criterion} :
    row.Passes (c.or d) ↔ row.Passes c ∨ row.Passes d := by
  unfold Criterion.or
  split
  · rw [passes_disj, passes_disj]
    simp only [List.mem_append, List.mem_singleton, or_and_right, exists_or, exists_eq_left]
  · rw [passes_disj, List.exists_mem_cons_iff]
    simp only [List.mem_singleton, exists_eq_left]

@[simp] theorem passes_equals {column : Column} {text : String} :
    row.Passes (column.equals (.text text)) ↔ row.text? column.table column.name = some text := by
  change (row.text? column.table column.name).map (fun s => s == text) = some true ↔ _
  rw [Option.map_eq_some_iff]
  simp

@[simp] theorem passes_oneOf {column : Column} {texts : List String} :
    row.Passes (column.oneOf texts) ↔ row.Holds column.table column.name texts := by
  have test : (column.oneOf texts).textTest? = some (column, fun held =>
      held.map fun s => texts.contains s != false) := by
    change ((texts.map Term.text).mapM Term.text? >>= _) = _
    rw [mapM_text?]
    rfl
  have leaf : row.outcome (column.oneOf texts) = row.outcomeOfLeaf (column.oneOf texts) := by
    rw [Column.oneOf, outcome]
    all_goals simp
  rw [Passes, leaf, outcomeOfLeaf, test, Holds]
  simp [Option.map_eq_some_iff, and_comm]

@[simp] theorem passes_isNull {column : Column} :
    row.Passes column.isNull ↔ row.text? column.table column.name = none := by
  change some ((row.text? column.table column.name).isNone != false) = some true ↔ _
  simp

end Row

end ScopedQuery.Sql
