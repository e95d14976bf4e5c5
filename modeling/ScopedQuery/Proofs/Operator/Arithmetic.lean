import Mathlib.Data.List.TakeWhile
import ScopedQuery.Proofs.Operator.Lexing

set_option autoImplicit false

/-!
What the text of an arithmetic term says. The text is the operands and operators of the term in
their order and has no parentheses, so it says the standard tree of them; only where a minus is
written in front of a negative number, the two hyphens open a comment on some dialects. The text has
the value of the term where every operator's operands bind tightly enough, and for columns that are
all different only there.
-/

namespace ScopedQuery.Operator

open Sql

inductive Factor where
  | column (column : Column)
  | number (value : Int64)

abbrev Assignment := String × String → ℤ

namespace Factor

def term : Factor → Term
  | column c => c.term
  | number n => (Literal.int n).term

def value (ρ : Assignment) : Factor → ℤ
  | column c => ρ (c.table.name, c.name)
  | number n => n.toInt

def isNegative : Factor → Bool
  | column _ => false
  | number n => n.toInt < 0

def written (s : Scope) : Factor → Signed
  | column c => ⟨false, .name (c.written s)⟩
  | number n => ⟨isNegative (number n), .number n.toInt.natAbs⟩

def key? : Factor → Option (String × String)
  | column c => some (c.table.name, c.name)
  | number _ => none

end Factor

/-- The value of what is written; a name without a table belongs to the queried one. -/
def Atom.value (s : Scope) (ρ : Assignment) : Atom → ℤ
  | name n => ρ (((n.table.map String.ofList).getD s.table.name), String.ofList n.column)
  | number n => n

def Signed.value (s : Scope) (ρ : Assignment) (x : Signed) : ℤ :=
  if x.negative then -x.atom.value s ρ else x.atom.value s ρ

theorem Factor.value_written (s : Scope) (ρ : Assignment) (f : Factor) :
    (f.written s).value s ρ = f.value ρ := by
  cases f with
  | column c =>
    have same : ((c.written s).table.map String.ofList).getD s.table.name = c.table.name := by
      unfold Column.written
      split
      · simp
      · next own =>
        rw [Bool.not_eq_true, Bool.or_eq_false_iff, bne_eq_false_iff_eq] at own
        rw [own.2]
        rfl
    have name : String.ofList (c.written s).column = c.name := String.ofList_toList
    simp only [written, Signed.value, Atom.value, value, same, name]
    rfl
  | number n =>
    simp only [written, isNegative, Signed.value, Atom.value, value, decide_eq_true_eq]
    split <;> omega

namespace Tree

def term : Tree Factor Calc → Term
  | leaf f => f.term
  | join left k right => .binary left.term k.op right.term

variable {s : Scope} {t : Tree Factor Calc} {rest : List Char}

def Hyphenated (t : Tree Factor Calc) : Prop :=
  ∃ l ∈ t.links, l.1 = .sub ∧ l.2.isNegative

instance (t : Tree Factor Calc) : Decidable t.Hyphenated :=
  inferInstanceAs (Decidable (∃ l ∈ t.links, l.1 = .sub ∧ l.2.isNegative))

def written (s : Scope) (t : Tree Factor Calc) : Tree Signed Calc := t.map (Factor.written s)

/-! ### The symbols of the text -/

theorem toList_sql_join (s : Scope) (left right : Tree Factor Calc) (k : Calc) :
    ((join left k right).term.sql s).toList =
      (left.term.sql s).toList ++ k.mark :: (right.term.sql s).toList := by
  rw [term, Term.sql, String.toList_append, String.toList_append, k.toList_token,
    List.append_assoc, List.singleton_append]

theorem toList_sql_number (s : Scope) (n : Int64) :
    ((Factor.number n).term.sql s).toList =
      (if n.toInt < 0 then ['-'] else []) ++ Decimal.digits n.toInt.natAbs := by
  change (Decimal.ofInt n.toInt).toList = _
  rw [toList_ofInt, Decimal.signText]
  by_cases negative : n.toInt < 0 <;> simp [negative]

/-- A text begins with a hyphen only for the sign of a number, whose digits follow. -/
theorem sql_head (s : Scope) (t : Tree Factor Calc) :
    ∃ c cs, (t.term.sql s).toList = c :: cs ∧
      (c = '-' → t.first.isNegative ∧ ∃ x ∈ cs.head?, x.isDigit) := by
  induction t with
  | leaf f =>
    cases f with
    | column c =>
      have plain : s.dialect.quoteChar ≠ '-' := by
        cases s.dialect <;> decide
      have quoted : ∃ cs, (c.sql s).toList = s.dialect.quoteChar :: cs := by
        unfold Column.sql Scope.ident Dialect.quoteIdentifier
        split <;> simp
      obtain ⟨cs, eq⟩ := quoted
      exact ⟨_, cs, eq, fun hyphen => absurd hyphen plain⟩
    | number n =>
      obtain ⟨x, xs, digits⟩ := List.exists_cons_of_ne_nil (digits_ne_nil n.toInt.natAbs)
      have digit : x.isDigit :=
        Decimal.isDigit_of_mem_digits x (digits ▸ List.mem_cons_self)
      have text := toList_sql_number s n
      by_cases negative : n.toInt < 0
      · rw [if_pos negative, digits] at text
        exact ⟨_, _, text, fun _ => ⟨decide_eq_true negative, x, rfl, digit⟩⟩
      · rw [if_neg negative, digits] at text
        refine ⟨_, _, text, ?_⟩
        rintro rfl
        exact absurd digit (by decide)
  | join left k right ih _ =>
    obtain ⟨c, cs, eq, hyphen⟩ := ih
    refine ⟨c, cs ++ k.mark :: (right.term.sql s).toList, ?_, fun minus => ?_⟩
    · rw [toList_sql_join, eq]
      rfl
    · obtain ⟨negative, x, head, digit⟩ := hyphen minus
      exact ⟨negative, x, by rw [List.head?_append, head]; rfl, digit⟩

theorem symbols?_factor (f : Factor) (ends : Dialect.Ends rest) :
    s.dialect.symbols? ((f.term.sql s).toList ++ rest) =
      (s.dialect.symbols? rest).map ((f.written s).symbols ++ ·) := by
  cases f with
  | column c => exact Dialect.symbols?_name (Dialect.name?_column s c ends)
  | number n =>
    have digits := Dialect.symbols?_digits (d := s.dialect) n.toInt.natAbs ends
    rw [toList_sql_number]
    by_cases negative : n.toInt < 0
    · obtain ⟨x, xs, eq⟩ := List.exists_cons_of_ne_nil (digits_ne_nil n.toInt.natAbs)
      have digit : x.isDigit := Decimal.isDigit_of_mem_digits x (eq ▸ List.mem_cons_self)
      have plain : s.dialect.opensLine
          (Calc.sub.mark :: (Decimal.digits n.toInt.natAbs ++ rest)) = false := by
        refine Dialect.opensLine_of_head? ?_ _
        rw [eq]
        intro same
        rw [Option.some.inj same] at digit
        exact absurd digit (by decide)
      have sign := Dialect.symbols?_op plain
      rw [digits, Option.map_map] at sign
      rw [if_pos negative, List.append_assoc, Factor.written, Factor.isNegative,
        decide_eq_true negative]
      exact sign
    · rw [if_neg negative, List.nil_append, digits, Factor.written, Factor.isNegative,
        decide_eq_false negative]
      rfl

/-- A minus opens no comment in front of an operand unless a negative number follows. -/
theorem opensLine_join {left right : Tree Factor Calc} {k : Calc}
    (clear : s.dialect = .mariadb ∨ ¬ (join left k right).Hyphenated) :
    s.dialect.opensLine (k.mark :: ((right.term.sql s).toList ++ rest)) = false := by
  by_cases minus : k = .sub
  · subst minus
    obtain ⟨c, cs, eq, hyphen⟩ := right.sql_head s
    rw [eq]
    by_cases again : c = '-'
    · subst again
      obtain ⟨negative, x, head, digit⟩ := hyphen rfl
      have maria : s.dialect = .mariadb := clear.resolve_right fun plain =>
        plain ⟨(.sub, right.first), List.mem_append_right _ List.mem_cons_self, rfl, negative⟩
      obtain ⟨cs, rfl⟩ := List.head?_eq_some_iff.1 head
      have solid : Text.isBlank x = false := Text.not_isBlank_of_isDigit digit
      rw [maria]
      exact solid
    · refine Dialect.opensLine_of_head? ?_ _
      exact fun same => again (Option.some.inj same)
  · refine Dialect.opensLine_of_ne ?_ _
    cases k <;> first | decide | exact absurd rfl minus

theorem symbols?_sql (clear : s.dialect = .mariadb ∨ ¬ t.Hyphenated) (ends : Dialect.Ends rest) :
    s.dialect.symbols? ((t.term.sql s).toList ++ rest) =
      (s.dialect.symbols? rest).map ((t.written s).symbols ++ ·) := by
  induction t generalizing rest with
  | leaf f => exact symbols?_factor f ends
  | join left k right ihl ihr =>
    have front : s.dialect = .mariadb ∨ ¬ left.Hyphenated := clear.imp_right fun plain h =>
      have ⟨l, mem, rest⟩ := h
      plain ⟨l, List.mem_append_left _ mem, rest⟩
    have back : s.dialect = .mariadb ∨ ¬ right.Hyphenated := clear.imp_right fun plain h =>
      have ⟨l, mem, rest⟩ := h
      plain ⟨l, List.mem_append_right _ (List.mem_cons_of_mem _ mem), rest⟩
    rw [toList_sql_join, List.append_assoc, List.cons_append,
      ihl front (Dialect.ends_mark k _), Dialect.symbols?_op (opensLine_join clear),
      ihr back ends, Option.map_map, Option.map_map]
    refine congrArg (Option.map · _) (funext fun symbols => ?_)
    simp [written, Tree.map, Tree.symbols]

theorem read?_sql (clear : s.dialect = .mariadb ∨ ¬ t.Hyphenated) :
    read? s.dialect (t.term.sql s).toList = some (t.written s).regrouped := by
  have nothing : Dialect.Ends [] := nofun
  have whole := symbols?_sql clear nothing
  rw [List.append_nil, Dialect.symbols?, Option.map_some, List.append_nil] at whole
  exact read?_of_symbols? whole

/-- Where two hyphens open a comment, a negative number that is subtracted is not read. -/
theorem read?_sql_hyphens {n : Int64} (comments : s.dialect ≠ .mariadb) (clear : ¬ t.Hyphenated)
    (negative : n.toInt < 0) :
    read? s.dialect ((join t .sub (leaf (.number n))).term.sql s).toList =
      some (t.written s).regrouped := by
  have text : ((leaf (.number n)).term.sql s).toList = '-' :: Decimal.digits n.toInt.natAbs := by
    have signed := toList_sql_number s n
    rwa [if_pos negative] at signed
  have opens : s.dialect.opensLine ('-' :: '-' :: Decimal.digits n.toInt.natAbs) :=
    Bool.or_eq_true_iff.2 (.inl (bne_iff_ne.2 comments))
  have line : ('-' :: Decimal.digits n.toInt.natAbs).dropWhile (· != '\n') = [] := by
    rw [List.dropWhile_eq_nil_iff]
    rintro x mem
    rcases List.mem_cons.1 mem with rfl | digit
    · rfl
    · refine bne_iff_ne.2 ?_
      rintro rfl
      exact absurd (Decimal.isDigit_of_mem_digits _ digit) (by decide)
  have whole := symbols?_sql (s := s) (.inr clear)
    (Dialect.ends_mark .sub ('-' :: Decimal.digits n.toInt.natAbs))
  refine read?_of_symbols? ?_
  rw [toList_sql_join, text, whole]
  change (s.dialect.symbols? ('-' :: '-' :: Decimal.digits n.toInt.natAbs)).map _ = _
  rw [Dialect.symbols?_comment opens, line, Dialect.symbols?, Option.map_some, List.append_nil]

/-! ### The value of the text -/

def Keeps (s : Scope) (t : Tree Factor Calc) : Prop :=
  ∃ u, read? s.dialect (t.term.sql s).toList = some u ∧
    ∀ ρ, (u.map (Signed.value s ρ)).value = (t.map (Factor.value ρ)).value

theorem keeps_iff (clear : s.dialect = .mariadb ∨ ¬ t.Hyphenated) :
    t.Keeps s ↔ ∀ ρ, (t.map (Factor.value ρ)).regrouped.value = (t.map (Factor.value ρ)).value := by
  have said (ρ : Assignment) : (t.written s).regrouped.map (Signed.value s ρ) =
      (t.map (Factor.value ρ)).regrouped := by
    rw [map_regrouped, written, map_map]
    exact congrArg (fun f => (t.map f).regrouped) (funext (Factor.value_written s ρ))
  have read := read?_sql clear
  constructor
  · rintro ⟨u, found, same⟩ ρ
    cases read.symm.trans found
    rw [← said, same]
  · intro same
    exact ⟨_, read, fun ρ => (said ρ).symm ▸ same ρ⟩

theorem Bare.keeps (h : t.Bare) (clear : s.dialect = .mariadb ∨ ¬ t.Hyphenated) : t.Keeps s := by
  refine (keeps_iff clear).2 fun ρ => ?_
  rw [value_regrouped, ← (h.map _).value_eq]

theorem exists_map_eq {α β : Type} [DecidableEq β] {shape : Tree α Calc} {u : Tree ℤ Calc}
    (key : α → β) (apart : (shape.operands.map key).Nodup) (fills : u.Fills shape) :
    ∃ σ : β → ℤ, shape.map (fun a => σ (key a)) = u := by
  induction shape generalizing u with
  | leaf a =>
    cases u with
    | leaf n => exact ⟨fun _ => n, rfl⟩
    | join => cases fills
  | join left k right ihl ihr =>
    cases u with
    | leaf n => cases fills
    | join x o y =>
      obtain ⟨front, rfl, back⟩ := fills
      rw [operands_join, List.map_append, List.nodup_append] at apart
      obtain ⟨hl, hr, disjoint⟩ := apart
      obtain ⟨σ, left_eq⟩ := ihl hl front
      obtain ⟨τ, right_eq⟩ := ihr hr back
      refine ⟨fun b => if b ∈ left.operands.map key then σ b else τ b, ?_⟩
      rw [Tree.map, ← left_eq, ← right_eq]
      congr 1
      · refine map_congr fun a mem => ?_
        exact if_pos (List.mem_map_of_mem mem)
      · refine map_congr fun a mem => ?_
        exact if_neg fun other => disjoint _ other _ (List.mem_map_of_mem mem) rfl

/-- Whether the operands are columns that are all different. -/
def Independent (t : Tree Factor Calc) : Prop :=
  (∀ f ∈ t.operands, f.key?.isSome) ∧ (t.operands.map Factor.key?).Nodup

instance (t : Tree Factor Calc) : Decidable t.Independent :=
  inferInstanceAs (Decidable ((∀ f ∈ t.operands, f.key?.isSome) ∧
    (t.operands.map Factor.key?).Nodup))

theorem Independent.not_hyphenated (h : t.Independent) : ¬ t.Hyphenated := by
  rintro ⟨⟨k, f⟩, mem, -, negative⟩
  have column := h.1 f (List.mem_cons_of_mem _ (List.mem_map_of_mem mem))
  cases f with
  | column c => cases negative
  | number n => cases column

theorem Independent.agrees (h : t.Independent) (keeps : t.Keeps s) : Agrees .add t := by
  intro u fills p
  obtain ⟨σ, rfl⟩ := exists_map_eq Factor.key? h.2 fills
  have values : t.map (fun f => σ f.key?) = t.map (Factor.value fun b => σ (some b)) := by
    refine map_congr fun f mem => ?_
    cases f with
    | column c => rfl
    | number n => cases h.1 _ mem
  have same := (keeps_iff (.inr h.not_hyphenated)).1 keeps fun b => σ (some b)
  rw [value_regrouped] at same
  rw [values, before, same]
  cases (t.map (Factor.value fun b => σ (some b))).value with
  | none => rfl
  | some v => simp [Running.step, Running.start, Running.total]

/-- Unless a minus stands in front of a negative number where two hyphens open a comment, the text of
an arithmetic term is a complete expression of its operands and operators in their order, and it has
the value of the term if no parentheses are needed. For columns that are all different it has the
value of the term only then. -/
theorem sql_keeps (s : Scope) (t : Tree Factor Calc) :
    (s.dialect = .mariadb ∨ ¬ t.Hyphenated →
      read? s.dialect (t.term.sql s).toList = some (t.written s).regrouped ∧
      (t.Bare → t.Keeps s)) ∧
    (t.Independent → (t.Keeps s ↔ t.Bare)) := by
  refine ⟨fun clear => ⟨read?_sql clear, fun bare => bare.keeps clear⟩, fun independent => ?_⟩
  constructor
  · intro keeps
    exact (independent.agrees keeps).bare.1
  · intro bare
    exact bare.keeps (.inr independent.not_hyphenated)

section Tasks

def task (name : String) : Tree Factor Calc := leaf (.column (Table.column ⟨"tabTask"⟩ name))

def number (n : Int64) : Tree Factor Calc := leaf (.number n)

theorem sql_keeps_tasks :
    (join (join (task "a") .mul (number (-2))) .add (join (task "b") .sub (number 1))).Keeps
      ⟨.postgres, ⟨"tabTask"⟩, false⟩ ∧
    ¬ (join (task "a") .sub (join (task "b") .sub (task "c"))).Keeps
      ⟨.postgres, ⟨"tabTask"⟩, true⟩ :=
  ⟨((sql_keeps _ _).1 (.inr (by decide))).2 (by decide),
    fun keeps => absurd (((sql_keeps _ _).2 (by decide)).1 keeps) (by decide)⟩

/-- The difference of a column and a difference is read from the left, and a minus in front of a
negative number takes the rest of the line along. -/
theorem not_keeps_difference :
    ¬ (join (task "a") .sub (join (task "b") .sub (task "c"))).Keeps
      ⟨.mariadb, ⟨"tabTask"⟩, false⟩ ∧
    ¬ (join (task "a") .sub (number (-1))).Keeps ⟨.postgres, ⟨"tabTask"⟩, false⟩ := by
  constructor
  · intro keeps
    have same := (keeps_iff (.inl rfl)).1 keeps fun _ => 1
    have read : Tree.value (join (join (leaf 1) .sub (leaf 1)) .sub (leaf 1)) =
      Tree.value (join (leaf 1) .sub (join (leaf 1) .sub (leaf 1))) := same
    norm_num [Tree.value, Calc.apply] at read
  · rintro ⟨u, read, same⟩
    have cut := read?_sql_hyphens (t := task "a") (s := ⟨.postgres, ⟨"tabTask"⟩, false⟩)
      (n := -1) (by decide) (by decide) (by decide)
    cases cut.symm.trans read
    have value : Tree.value (leaf 0) = Tree.value (join (leaf 0) .sub (leaf (-1))) :=
      same fun _ => 0
    norm_num [Tree.value, Calc.apply] at value

end Tasks

end Tree

end ScopedQuery.Operator
