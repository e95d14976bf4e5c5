import ScopedQuery.Proofs.Clause.Labelling
import ScopedQuery.Proofs.Function.Atom
import ScopedQuery.Proofs.Lexical.Quoting
import ScopedQuery.Proofs.Operator.Value

set_option autoImplicit false

namespace ScopedQuery

open Sql

theorem Text.not_isBlank_of_isDigit {c : Char} (digit : c.isDigit) : isBlank c = false := by
  refine Clause.not_isBlank_of_isWordChar ?_
  rw [isWordChar, Char.isAlphanum, digit, Bool.or_true, Bool.true_or]

namespace Operator

structure Name where
  table : Option (List Char)
  column : List Char

inductive Atom where
  | name (name : Name)
  | number (value : Nat)

inductive Symbol where
  | atom (atom : Atom)
  | op (k : Calc)

namespace Calc

def mark : Calc → Char
  | add => '+'
  | sub => '-'
  | mul => '*'
  | div => '/'

def ofMark? : Char → Option Calc
  | '+' => some add
  | '-' => some sub
  | '*' => some mul
  | '/' => some div
  | _ => none

theorem ofMark?_mark (k : Calc) : ofMark? k.mark = some k := by cases k <;> rfl

theorem toList_token (k : Calc) : k.op.token.toList = [k.mark] := by cases k <;> rfl

theorem mark_plain (k : Calc) :
    Text.isBlank k.mark = false ∧ k.mark.isDigit = false ∧ k.mark ≠ '.' := by
  cases k <;> decide

theorem mark_ne_quoteChar (k : Calc) (d : Dialect) : k.mark ≠ d.quoteChar := by
  cases k <;> cases d <;> decide

end Calc

end Operator

def Sql.Column.written (s : Scope) (c : Column) : Operator.Name :=
  ⟨if s.qualify || c.table != s.table then some c.table.name.toList else none, c.name.toList⟩

namespace Sql.Dialect

open Operator Text

/-- Whether a line comment opens at the head of a text. Behind the two hyphens one dialect wants a
blank or the end of the text. -/
def opensLine (d : Dialect) : List Char → Bool
  | '-' :: '-' :: r => d != mariadb || r.head?.all isBlank
  | _ => false

def name? (d : Dialect) (cs : List Char) : Option (Name × List Char) :=
  (d.identifier? cs).bind fun p =>
    if p.2.head? == some '.' then
      (d.identifier? p.2.tail).map fun q => (⟨some p.1, q.1⟩, q.2)
    else some (⟨none, p.1⟩, p.2)

variable {d : Dialect} {cs r rest : List Char} {c : Char} {k : Calc}

theorem length_of_identifier? {v : List Char} (h : d.identifier? cs = some (v, rest)) :
    rest.length < cs.length := by
  cases cs with
  | nil => cases h
  | cons c r =>
    rw [identifier?] at h
    split at h
    · have weight := weight_of_quotation? h
      rw [List.length_cons]
      omega
    · cases h

theorem length_of_name? {n : Name} (h : d.name? cs = some (n, rest)) :
    rest.length < cs.length := by
  obtain ⟨⟨v, r⟩, found, others⟩ := Option.bind_eq_some_iff.1 h
  have front : r.length < cs.length := length_of_identifier? found
  split at others
  · obtain ⟨⟨w, r'⟩, again, eq⟩ := Option.map_eq_some_iff.1 others
    cases eq
    have back : r'.length < r.tail.length := length_of_identifier? again
    rw [List.length_tail] at back
    change r'.length < cs.length
    omega
  · cases others
    exact front

def symbols? (d : Dialect) : List Char → Option (List Symbol)
  | [] => some []
  | c :: r =>
    if isBlank c then d.symbols? r
    else if d.opensLine (c :: r) then d.symbols? (r.dropWhile (· != '\n'))
    else if c.isDigit then
      (d.symbols? (r.dropWhile Char.isDigit)).map
        (.atom (.number (Decimal.natOfDigits (c :: r.takeWhile Char.isDigit))) :: ·)
    else match Calc.ofMark? c with
      | some k => (d.symbols? r).map (.op k :: ·)
      | none =>
        match _h : d.name? (c :: r) with
        | some (n, rest) => (d.symbols? rest).map (.atom (.name n) :: ·)
        | none => none
termination_by cs => cs.length
decreasing_by
  · exact Nat.lt_succ_self _
  · exact Nat.lt_succ_of_le (length_dropWhile_le _ _)
  · exact Nat.lt_succ_of_le (length_dropWhile_le _ _)
  · exact Nat.lt_succ_self _
  · exact length_of_name? _h

/-! ### One symbol at a time -/

theorem symbols?_op (plain : d.opensLine (k.mark :: r) = false) :
    d.symbols? (k.mark :: r) = (d.symbols? r).map (.op k :: ·) := by
  obtain ⟨solid, sign, _⟩ := k.mark_plain
  rw [symbols?, solid, plain, sign]
  simp only [Bool.false_eq_true, if_false, Calc.ofMark?_mark]

theorem symbols?_comment (opens : d.opensLine ('-' :: r)) :
    d.symbols? ('-' :: r) = d.symbols? (r.dropWhile (· != '\n')) := by
  rw [symbols?, if_neg (by decide), if_pos opens]

def Ends (r : List Char) : Prop := ∀ c ∈ r.head?, ∃ k : Calc, c = k.mark

theorem ends_mark (k : Calc) (r : List Char) : Ends (k.mark :: r) := by
  rintro c head
  exact ⟨k, (Option.some.inj head).symm⟩

theorem opensLine_of_ne (ne : c ≠ '-') (r : List Char) : d.opensLine (c :: r) = false := by
  unfold opensLine
  split
  · next eq => exact absurd (List.cons.inj eq).1 ne
  · rfl

theorem opensLine_of_head? (ne : r.head? ≠ some '-') (c : Char) :
    d.opensLine (c :: r) = false := by
  unfold opensLine
  split
  · next eq => exact absurd (congrArg List.head? (List.cons.inj eq).2) ne
  · rfl

theorem symbols?_digits (n : Nat) (ends : Ends r) :
    d.symbols? (Decimal.digits n ++ r) = (d.symbols? r).map (.atom (.number n) :: ·) := by
  obtain ⟨c, cs, eq⟩ := List.exists_cons_of_ne_nil (digits_ne_nil n)
  have digit : ∀ x ∈ c :: cs, x.isDigit := eq ▸ fun x mem => Decimal.isDigit_of_mem_digits x mem
  obtain ⟨first, others⟩ := List.forall_mem_cons.1 digit
  have solid : isBlank c = false := not_isBlank_of_isDigit first
  have ne : c ≠ '-' := by
    rintro rfl
    exact absurd first (by decide)
  have stop : r.takeWhile Char.isDigit = [] ∧ r.dropWhile Char.isDigit = r := by
    cases r with
    | nil => exact ⟨rfl, rfl⟩
    | cons x r =>
      obtain ⟨k, rfl⟩ := ends x rfl
      have plain := k.mark_plain.2.1
      simp [plain]
  rw [eq, List.cons_append, symbols?, solid, opensLine_of_ne ne, first,
    List.dropWhile_append_of_pos others, List.takeWhile_append_of_pos others, stop.1, stop.2,
    List.append_nil, ← eq, Decimal.natOfDigits_digits]
  rfl

theorem symbols?_name {n : Name} (h : d.name? cs = some (n, r)) :
    d.symbols? cs = (d.symbols? r).map (.atom (.name n) :: ·) := by
  obtain ⟨c, cs, rfl, quoted⟩ : ∃ c cs', cs = c :: cs' ∧ c = d.quoteChar := by
    obtain ⟨_, found, _⟩ := Option.bind_eq_some_iff.1 h
    cases cs with
    | nil => cases found
    | cons c cs =>
      refine ⟨c, cs, rfl, ?_⟩
      rw [identifier?] at found
      split at found
      · next same => exact beq_iff_eq.1 same
      · cases found
  have plain : isBlank c = false ∧ c.isDigit = false ∧ c ≠ '-' ∧ Calc.ofMark? c = none := by
    subst quoted
    cases d <;> decide
  obtain ⟨solid, sign, ne, mark⟩ := plain
  rw [symbols?, solid, opensLine_of_ne ne, sign, mark]
  simp only [Bool.false_eq_true, if_false]
  split
  · next found =>
    cases h.symm.trans found
    rfl
  · next absent => cases h.symm.trans absent

theorem name?_column (s : Scope) (c : Column) (ends : Ends r) :
    s.dialect.name? ((c.sql s).toList ++ r) = some (c.written s, r) := by
  have apart : r.head? ≠ some s.dialect.quoteChar ∧ (r.head? == some '.') = false := by
    cases r with
    | nil => exact ⟨nofun, rfl⟩
    | cons x r =>
      obtain ⟨k, rfl⟩ := ends x rfl
      refine ⟨fun same => k.mark_ne_quoteChar _ (Option.some.inj same), ?_⟩
      exact beq_eq_false_iff_ne.2 fun same => k.mark_plain.2.2 (Option.some.inj same)
  have last := (identifier?_quoteIdentifier_iff s.dialect c.name r).2 apart.1
  have dot : '.' ≠ s.dialect.quoteChar := by
    cases s.dialect <;> decide
  unfold Column.sql Column.written Scope.ident
  split
  · have front := (identifier?_quoteIdentifier_iff s.dialect c.table.name
      ('.' :: ((s.dialect.quoteIdentifier c.name).toList ++ r))).2
      fun same => dot (Option.some.inj same)
    have text : (s.dialect.quoteIdentifier c.table.name ++ "." ++
        s.dialect.quoteIdentifier c.name).toList ++ r =
        (s.dialect.quoteIdentifier c.table.name).toList ++
          '.' :: ((s.dialect.quoteIdentifier c.name).toList ++ r) := by
      simp
    rw [text, name?, front, Option.bind_some, List.head?_cons, List.tail_cons, last]
    rfl
  · rw [name?, last, Option.bind_some, apart.2]
    rfl

end Sql.Dialect

/-! ### Operands and the operators between them -/

namespace Operator

structure Signed where
  negative : Bool
  atom : Atom

def Signed.symbols (x : Signed) : List Symbol :=
  if x.negative then [.op .sub, .atom x.atom] else [.atom x.atom]

mutual

def links? (k : Calc) (negative : Bool) : List Symbol → Option (List (Calc × Signed))
  | .op .add :: r => links? k negative r
  | .op .sub :: r => links? k (!negative) r
  | .atom a :: r => (others? r).map ((k, ⟨negative, a⟩) :: ·)
  | _ => none

def others? : List Symbol → Option (List (Calc × Signed))
  | [] => some []
  | .op k :: r => links? k false r
  | .atom _ :: _ => none

end

def Tree.symbols : Tree Signed Calc → List Symbol
  | leaf x => x.symbols
  | join left k right => left.symbols ++ .op k :: right.symbols

theorem links?_symbols (t : Tree Signed Calc) (k : Calc) (rest : List Symbol) :
    links? k false (t.symbols ++ rest) = (others? rest).map ((k, t.first) :: t.links ++ ·) := by
  induction t generalizing k rest with
  | leaf x =>
    obtain ⟨negative, a⟩ := x
    cases negative <;> rfl
  | join left o right ihl ihr =>
    rw [Tree.symbols, List.append_assoc, ihl, List.cons_append, others?, ihr, Option.map_map]
    refine congrArg (Option.map · _) (funext fun ls => ?_)
    simp [Tree.first, Tree.links]

def read? (d : Dialect) (text : List Char) : Option (Tree Signed Calc) :=
  (d.symbols? text).bind fun symbols =>
    (links? .add false symbols).bind fun
      | [] => none
      | (_, a) :: ls => some ((Tree.leaf a).extend ls)

theorem read?_of_symbols? {d : Dialect} {text : List Char} {t : Tree Signed Calc}
    (h : d.symbols? text = some t.symbols) : read? d text = some t.regrouped := by
  have links := links?_symbols t .add []
  rw [List.append_nil] at links
  rw [read?, h, Option.bind_some, links]
  simp [others?, Tree.regrouped]

end Operator

end ScopedQuery
