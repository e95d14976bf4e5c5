import Mathlib.Data.List.Basic
import ScopedQuery.Sql.Render

set_option autoImplicit false

namespace ScopedQuery.Sql

namespace Criterion

def isEnclosed (outer : Connective) : Criterion → Bool
  | conj items => outer == .disjunction && items.length > 1
  | disj items => outer == .conjunction && items.length > 1
  | raw _ => true
  | _ => false

end Criterion

theorem operandSql_eq (outer : Connective) (c : Criterion) (text : String) :
    operandSql outer c text = if c.isEnclosed outer then "(" ++ text ++ ")" else text := by
  cases c <;> rfl

inductive Token where
  | leaf (c : Criterion)
  | opening
  | closing
  | connective (c : Connective)
  | not

def Token.text (s : Scope) : Token → String
  | leaf c => c.sql s
  | opening => "("
  | closing => ")"
  | connective c => c.infixText
  | not => "NOT "

def Token.join (s : Scope) (ts : List Token) : String := String.join (ts.map (Token.text s))

theorem Token.join_append (s : Scope) (a b : List Token) :
    join s (a ++ b) = join s a ++ join s b := by
  rw [join, join, join, List.map_append, String.join_append]

theorem Token.join_singleton (s : Scope) (t : Token) : join s [t] = t.text s := by
  simp [join]

def enclosed (ts : List Token) : List Token := .opening :: (ts ++ [.closing])

theorem Token.join_enclosed (s : Scope) (ts : List Token) :
    join s (enclosed ts) = "(" ++ join s ts ++ ")" := by
  rw [enclosed, ← List.singleton_append, join_append, join_append, join_singleton, join_singleton,
    ← String.append_assoc]
  rfl

def operandTokens (outer : Connective) (c : Criterion) (ts : List Token) : List Token :=
  if c.isEnclosed outer then enclosed ts else ts

mutual

def Criterion.tokens : Criterion → List Token
  | .conj items => Criterion.joined .conjunction items
  | .disj items => Criterion.joined .disjunction items
  | .neg inner => .not :: enclosed inner.tokens
  | c => [.leaf c]

def Criterion.joined (outer : Connective) : List Criterion → List Token
  | [] => []
  | [c] => operandTokens outer c c.tokens
  | c :: d :: cs =>
    operandTokens outer c c.tokens ++ .connective outer :: Criterion.joined outer (d :: cs)

end

theorem join_operandTokens (s : Scope) (outer : Connective) {c : Criterion} {ts : List Token}
    (h : Token.join s ts = c.sql s) :
    Token.join s (operandTokens outer c ts) = operandSql outer c (c.sql s) := by
  rw [operandTokens, operandSql_eq]
  split
  · rw [Token.join_enclosed, h]
  · exact h

mutual

theorem join_tokens (s : Scope) : ∀ c : Criterion, Token.join s c.tokens = c.sql s
  | .conj items => by
    rw [Criterion.tokens, Criterion.sql]
    exact join_joined s .conjunction items
  | .disj items => by
    rw [Criterion.tokens, Criterion.sql]
    exact join_joined s .disjunction items
  | .neg inner => by
    rw [Criterion.tokens, Criterion.sql, ← List.singleton_append, Token.join_append,
      Token.join_enclosed, join_tokens s inner, Token.join_singleton, ← String.append_assoc,
      ← String.append_assoc]
    rfl
  | .compare _ _ _ | .member _ _ _ | .isNull _ _ | .like _ _ _ | .regex _ _ | .between _ _ _
  | .raw _ => by
    rw [Criterion.tokens, Token.join_singleton, Token.text]
    all_goals simp

theorem join_joined (s : Scope) (outer : Connective) : ∀ cs : List Criterion,
    Token.join s (Criterion.joined outer cs) =
      outer.infixText.intercalate (Criterion.operands s outer cs)
  | [] => by
    rw [Criterion.joined, Criterion.operands, String.intercalate_nil]
    rfl
  | [c] => by
    rw [Criterion.joined, Criterion.operands, Criterion.operands, String.intercalate_singleton]
    exact join_operandTokens s outer (join_tokens s c)
  | c :: d :: cs => by
    rw [Criterion.joined, Criterion.operands,
      String.intercalate_cons_of_ne_nil (by simp [Criterion.operands]), Token.join_append,
      join_operandTokens s outer (join_tokens s c), ← List.singleton_append, Token.join_append,
      Token.join_singleton, join_joined s outer (d :: cs), ← String.append_assoc]
    rfl

end

end ScopedQuery.Sql
