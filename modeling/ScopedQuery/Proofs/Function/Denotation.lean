import ScopedQuery.Function.Argument
import ScopedQuery.Proofs.Text.Lead

set_option autoImplicit false

namespace ScopedQuery.Function

mutual

/-- The terms that the text of an argument denotes. -/
inductive Denotes (own : Sql.Table) (d : Sql.Dialect) : List Char → Sql.Term → Prop
  | star {text : List Char} (star : Text.trim text = ['*']) : Denotes own d text (.star none)
  | literal {text : List Char} {v : Sql.Literal} (read : literal? (Text.trim text) = some v) :
    Denotes own d text (.literal v)
  | call {text : List Char} {c : CallText} {f : Sql.FunctionCall}
    (read : nestedCall? (Text.trim text) = some c) (made : DenotesCall own d c.name c.args f) :
    Denotes own d text f.term
  | binary {text : List Char} {o : Text.Occurrence} {op : Sql.BinaryOp} {left right : Sql.Term}
    (cut : splitAtOperator? (Text.trim text) = some o)
    (token : Sql.BinaryOp.ofToken? (String.ofList o.token) = some op)
    (hl : Denotes own d o.left left) (hr : Denotes own d o.right right) :
    Denotes own d text (.binary left op right)
  | column {text : List Char} {t : Sql.Term} (read : column? own (Text.trim text) = some t) :
    Denotes own d text t

inductive DenotesAll (own : Sql.Table) (d : Sql.Dialect) : List (List Char) → List Sql.Term → Prop
  | nil : DenotesAll own d [] []
  | cons {text : List Char} {t : Sql.Term} {texts : List (List Char)} {ts : List Sql.Term}
    (first : Denotes own d text t) (rest : DenotesAll own d texts ts) :
    DenotesAll own d (text :: texts) (t :: ts)

inductive DenotesCall (own : Sql.Table) (d : Sql.Dialect) :
    List Char → List (List Char) → Sql.FunctionCall → Prop
  | extract {name a word date : List Char} {part : Sql.DatePart} {t : Sql.Term}
    (extract : isExtract name) (read : extraction? a = some (word, date))
    (keyword : Sql.DatePart.ofKeyword? (String.ofList word) = some part)
    (date : Denotes own d date t) :
    DenotesCall own d name [a] ⟨"EXTRACT", [.datePart part, t], none⟩
  | plain {name : List Char} {args : List (List Char)} {ts : List Sql.Term}
    (other : isExtract name = false) (each : DenotesAll own d args ts) :
    DenotesCall own d name args (call (String.ofList name) ts d)

end

mutual

theorem denotes_of_argument {own : Sql.Table} {d : Sql.Dialect} {text : List Char} {t : Sql.Term}
    (h : argument own d text = some t) : Denotes own d text t := by
  rw [argument] at h
  have := Text.length_trim_le text
  split at h
  · cases h
  split at h
  · next star =>
    cases h
    exact .star (by simpa using star)
  split at h
  · next read =>
    cases h
    exact .literal read
  split at h
  · next c read =>
    obtain ⟨f, made, rfl⟩ := Option.map_eq_some_iff.1 h
    have := weight_of_nestedCall? read
    exact .call read (denotesCall_of_callOf made)
  split at h
  · next o cut =>
    have := length_of_splitAtOperator? cut
    split at h
    · next op left right token hl hr =>
      cases h
      exact .binary cut token (denotes_of_argument hl) (denotes_of_argument hr)
    · exact .column h
  · exact .column h
termination_by (text.length, 0)

theorem denotesAll_of_arguments {own : Sql.Table} {d : Sql.Dialect} {args : List (List Char)}
    {ts : List Sql.Term} (h : arguments own d args = some ts) : DenotesAll own d args ts := by
  cases args with
  | nil =>
    rw [arguments] at h
    cases h
    exact .nil
  | cons a rest =>
    rw [arguments] at h
    obtain ⟨t, first, h⟩ := Option.bind_eq_some_iff.1 h
    obtain ⟨ts, others, h⟩ := Option.bind_eq_some_iff.1 h
    cases h
    have : a.length < Text.weight (a :: rest) ∧ Text.weight rest < Text.weight (a :: rest) := by
      simp only [Text.weight]
      omega
    exact .cons (denotes_of_argument first) (denotesAll_of_arguments others)
termination_by (Text.weight args, 0)

theorem denotesCall_of_callOf {own : Sql.Table} {d : Sql.Dialect} {name : List Char}
    {args : List (List Char)} {f : Sql.FunctionCall} (h : callOf own d name args = some f) :
    DenotesCall own d name args f := by
  unfold callOf at h
  split at h
  · next extract =>
    split at h
    · next a =>
      split at h
      · next word date found =>
        have : date.length < Text.weight [a] := by
          simpa [Text.weight] using Nat.lt_succ_of_le (length_of_extraction? found)
        split at h
        · next part t keyword read =>
          cases h
          exact .extract extract found keyword (denotes_of_argument read)
        · cases h
      · cases h
    · cases h
  · next other =>
    obtain ⟨ts, each, rfl⟩ := Option.map_eq_some_iff.1 h
    exact .plain (by simpa using other) (denotesAll_of_arguments each)
termination_by (Text.weight args, 1)

end

end ScopedQuery.Function
