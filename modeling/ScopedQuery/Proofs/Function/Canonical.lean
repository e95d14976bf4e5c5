import ScopedQuery.Proofs.Function.Atom
import ScopedQuery.Proofs.Lexical.Argument
import ScopedQuery.Proofs.Sql.Mention
import ScopedQuery.Proofs.Text.Trimming

set_option autoImplicit false

namespace ScopedQuery

/-- The rank of a term's outermost operator; a term without one binds most tightly. -/
def Sql.Term.rank : Sql.Term → Nat
  | .binary _ op _ => op.rank
  | _ => 0

/-- Whether a literal stands anywhere in a term, conditions aside. -/
inductive Sql.Term.Contains (v : Sql.Literal) : Sql.Term → Prop
  | itself : Contains v (.literal v)
  | part {t p : Sql.Term} (mem : p ∈ t.parts) (inside : Contains v p) : Contains v t

/-- Whether the text of a literal is exact: a double may be rounded, and a backslash is written
twice but read once for each. -/
def Sql.Literal.Exact : Sql.Literal → Prop
  | .null | .bool _ | .int _ => True
  | .float _ => False
  | .text s => Text.backslash ∉ s.toList

def Sql.Term.Exact (t : Sql.Term) : Prop := ∀ v, t.Contains v → v.Exact

theorem Sql.Term.exact_of_parts {t : Sql.Term} (literal : ∀ v, t = .literal v → v.Exact)
    (h : ∀ p ∈ t.parts, p.Exact) : t.Exact := by
  intro v contains
  cases contains with
  | itself => exact literal v rfl
  | part mem inside => exact h _ mem v inside

theorem Sql.Term.Exact.part {t p : Sql.Term} (h : t.Exact) (mem : p ∈ t.parts) : p.Exact :=
  fun v inside => h v (.part mem inside)

namespace Function

open Sql Text

abbrev scope (own : Table) : Scope := ⟨.mariadb, own, false⟩

mutual

/-- The terms that arguments denote, as long as numbers are whole and texts without backslashes. -/
inductive Canonical (own : Table) : Term → Prop
  | star : Canonical own (.star none)
  | int (n : Int64) : Canonical own (.literal (.int n))
  | text {s : String} (plain : backslash ∉ s.toList) : Canonical own (.literal (.text s))
  | column {table : Table} {name : String} (word : Clause.IsWord name.toList)
    (known : table = own ∨ (Table.afterPrefix? table.name).isSome ∧
      ∀ c ∈ table.name.toList, Clause.isEntityChar c) :
    Canonical own (.column (table.column name))
  | call {name : String} {args : List Term} (recognized : isRecognized name)
    (made : CanonicalCall own name args) : Canonical own (.call name args none)
  | binary {left right : Term} {op : BinaryOp} (hl : Canonical own left)
    (hr : Canonical own right) (tighter : left.rank ≤ op.rank)
    (first : op.rank = 3 → left.rank ≠ 3) (last : op.rank ≠ 3 → right.rank < op.rank)
    (apart : op.rank ≠ 3 → ∀ k, op.rank ≤ k → ∀ c ∈ (right.sql (scope own)).toList.head?,
      c = '-' ∨ c = '*' → begins (operators k) c = false) :
    Canonical own (.binary left op right)

inductive CanonicalCall (own : Table) : String → List Term → Prop
  | extract (part : DatePart) {date : Term} (hd : Canonical own date) :
    CanonicalCall own "EXTRACT" [.datePart part, date]
  | plain {name : String} {args : List Term} (word : Clause.IsWord name.toList)
    (other : isExtract name.toList = false) (settled : call name args .mariadb = ⟨name, args, none⟩)
    (each : ∀ t ∈ args, Canonical own t) : CanonicalCall own name args

end

/-! ### Where the parts of an expression begin and end -/

section Parts

variable {cs : List Char} {c : Char} {sep : Char → Bool}

theorem avoids_trim (h : Nesting.top.Avoids sep cs) : Nesting.top.Avoids sep (trim cs) := by
  obtain ⟨front, back, whole, blank, _⟩ := blanks_around_trim cs
  have stays : Nesting.top.scan front = .top :=
    Nesting.scan_of_not_isMark rfl fun c mem => isMark_of_isBlank (blank c mem)
  rw [whole, Nesting.avoids_append, stays, Nesting.avoids_append] at h
  exact h.2.1

theorem free_trim (first : ∀ c ∈ cs.head?, isBlank c = false) (h : Free sep cs) :
    Free sep (trim cs) := by
  obtain ⟨back, whole, _⟩ := blanks_behind_trim first
  by_cases empty : trim cs = []
  · rw [empty]
    trivial
  · rw [whole, free_append empty] at h
    exact h.1

theorem begins_of_sign (sign : c = '-' ∨ c = '*') {k : Nat}
    (h : isToken (operators k) c = false) : begins (operators k) c = false := by
  unfold operators at h ⊢
  rcases sign with rfl | rfl
  · split <;> simp_all [begins, isToken]
  · split <;> simp_all [begins, isToken]

end Parts

variable {own : Table} {d : Dialect}

/-! ### How texts begin -/

theorem eq_of_begins_comparison {c : Char} (h : begins (operators 3) c) :
    c = '!' ∨ c = '=' ∨ c = '<' ∨ c = '>' := by
  obtain ⟨t, mem, head⟩ := List.any_eq_true.1 h
  have first : some c ∈ (operators 3).map List.head? := List.mem_map.2 ⟨t, mem, beq_iff_eq.1 head⟩
  rw [show (operators 3).map List.head? =
    ['!', '<', '<', '>', '=', '=', '=', '<', '>'].map some from rfl, List.mem_map] at first
  obtain ⟨x, mem, same⟩ := first
  obtain rfl := Option.some.inj same
  simp only [List.mem_cons, List.not_mem_nil, or_false] at mem
  tauto

theorem head?_of_spells {inside : Char → Bool} {name text : List Char}
    (h : Clause.Spells inside name text) (r : List Char) :
    ∃ c, (text ++ r).head? = some c ∧ isOperatorChar c = false := by
  cases h with
  | bare ne word =>
    obtain ⟨c, name, rfl⟩ := List.exists_cons_of_ne_nil ne
    exact ⟨c, rfl, not_isOperatorChar (by decide) (word c List.mem_cons_self)⟩
  | quoted quote => exact ⟨_, rfl, not_isOperatorChar (by decide) quote⟩

theorem head?_of_spelledBy {w : Clause.ColumnText} {text : List Char} (h : w.SpelledBy text) :
    ∃ c, text.head? = some c ∧ isOperatorChar c = false := by
  cases h with
  | bare column => simpa using head?_of_spells column []
  | qualified table => exact head?_of_spells table _

theorem head?_of_literal? {cs : List Char} {v : Literal} (h : literal? cs = some v) :
    ∃ c, cs.head? = some c ∧ begins (operators 3) c = false := by
  cases cs with
  | nil => cases h
  | cons c r =>
    refine ⟨c, rfl, ?_⟩
    rw [Bool.eq_false_iff]
    intro comparison
    rcases eq_of_begins_comparison comparison with rfl | rfl | rfl | rfl <;> cases h

theorem lead_of_denotes {text : List Char} {t : Term} (h : Denotes own d text t) :
    ∃ c, lead? text = some c ∧ begins (operators 3) c = false := by
  cases h with
  | star star =>
    rw [← head?_trim, star]
    exact ⟨'*', rfl, by decide⟩
  | literal read =>
    rw [← head?_trim]
    exact head?_of_literal? read
  | call read =>
    obtain ⟨inside, rest, whole, ⟨ne, word⟩, _⟩ :=
      CallText.parse?_eq_some.1 (nestedCall?_eq_some.1 read).1
    obtain ⟨c, name, eq⟩ := List.exists_cons_of_ne_nil ne
    rw [← lead?_trim, ← head?_trim, whole, eq]
    refine ⟨c, rfl, isOperatorChar_of_begins 3 (not_isOperatorChar (by decide) (word c ?_))⟩
    rw [eq]
    exact List.mem_cons_self
  | binary cut _ hl =>
    have := length_trim_le text
    have := length_of_splitAtOperator? cut
    obtain ⟨c, first, apart⟩ := lead_of_denotes hl
    obtain ⟨_, _, _, _, _, whole⟩ := level_of_splitAtOperator? cut
    rw [← lead?_trim, ← whole, List.append_assoc]
    exact ⟨c, lead?_append _ first, apart⟩
  | column read =>
    obtain ⟨w, parsed, _⟩ := Option.bind_eq_some_iff.1 read
    obtain ⟨c, first, apart⟩ := head?_of_spelledBy (Clause.ColumnText.parse?_eq_some.1 parsed)
    rw [← head?_trim]
    exact ⟨c, first, isOperatorChar_of_begins 3 apart⟩
termination_by text.length

theorem trim_of_denotes {text : List Char} {t : Term} (h : Denotes own d text t) :
    ∃ c r, trim text = c :: r ∧ isBlank c = false ∧ begins (operators 3) c = false := by
  obtain ⟨c, first, apart⟩ := lead_of_denotes h
  have solid : isBlank c = false := by simpa using List.find?_some first
  rw [← head?_trim] at first
  obtain ⟨r, eq⟩ := List.head?_eq_some_iff.1 first
  exact ⟨c, r, eq, solid, apart⟩

/-! ### The ranks of operands -/

theorem column_of_column? {cs : List Char} {t : Term} (h : column? own cs = some t) :
    ∃ w c, Clause.ColumnText.SpelledBy w cs ∧ w.resolve? own = some c ∧ t = .column c := by
  obtain ⟨w, parsed, resolved⟩ := Option.bind_eq_some_iff.1 h
  obtain ⟨c, column, rfl⟩ := Option.map_eq_some_iff.1 resolved
  exact ⟨w, c, Clause.ColumnText.parse?_eq_some.1 parsed, column, rfl⟩

/-- A term has no operator of a rank whose operators its text does not show. -/
theorem rank_ne_of_free {text : List Char} {t : Term} {k : Nat} (h : Denotes own d text t)
    (positive : 0 < k) (free : Free (isToken (operators k)) (trim text)) : t.rank ≠ k := by
  rintro rfl
  cases h with
  | @binary _ o op left right cut token hl hr =>
    obtain ⟨c, r, eq, solid, apart⟩ := trim_of_denotes (.binary cut token hl hr)
    rw [eq] at cut free
    have found := (cutAt?_of_splitAtOperator? cut token).1
    have none : cutAt? op.rank (c :: r) = none := (cutAt?_eq_none_iff solid apart _).2 free
    rw [none] at found
    cases found
  | star | literal _ | call _ _ => exact absurd positive (Nat.lt_irrefl 0)
  | column read =>
    obtain ⟨_, _, _, _, rfl⟩ := column_of_column? read
    exact absurd positive (Nat.lt_irrefl 0)

section Operands

variable {cs : List Char} {o : Occurrence} {op : BinaryOp} {left right : Term} {c : Char}
  {r : List Char}
  (solid : isBlank c = false) (apart : begins (operators 3) c = false)
  (cut : splitAtOperator? (c :: r) = some o)
  (token : BinaryOp.ofToken? (String.ofList o.token) = some op)

include solid apart cut token

theorem rank_left (hl : Denotes own d o.left left) :
    left.rank ≤ op.rank ∧ (op.rank = 3 → left.rank ≠ 3) := by
  obtain ⟨_, _, _, _, _, whole⟩ := level_of_splitAtOperator? cut
  have ne : o.left ≠ [] := by
    intro empty
    obtain ⟨_, first, _⟩ := lead_of_denotes hl
    rw [empty] at first
    cases first
  have first : ∀ x ∈ o.left.head?, isBlank x = false := by
    obtain ⟨x, l, eq⟩ := List.exists_cons_of_ne_nil ne
    rw [eq] at whole ⊢
    obtain ⟨rfl, _⟩ := List.cons.inj whole
    rintro _ ⟨⟩
    exact solid
  constructor
  · by_contra looser
    have free := free_of_looser solid apart cut token (Nat.not_le.1 looser)
    rw [← whole, List.append_assoc, free_append ne] at free
    exact rank_ne_of_free hl (by omega) (free_trim first free.1) rfl
  · intro comparison
    exact rank_ne_of_free hl (by decide)
      (free_trim first (free_left solid apart cut token comparison))

theorem rank_right (hr : Denotes own d o.right right) (arithmetic : op.rank ≠ 3) :
    right.rank < op.rank := by
  have positive : 0 < op.rank := by cases op <;> decide
  by_contra looser
  have avoids := avoids_right solid apart cut token arithmetic (Nat.not_lt.1 looser)
  exact rank_ne_of_free hr (by omega) (free_of_avoids (avoids_trim avoids)) rfl

/-- An operand does not begin with a sign that would be an operator in its place. -/
theorem begins_right {x : Char} (leads : Leads o.right right) (arithmetic : op.rank ≠ 3) {k : Nat}
    (le : op.rank ≤ k) (head : x ∈ (right.sql (scope own)).toList.head?)
    (sign : x = '-' ∨ x = '*') : begins (operators k) x = false := by
  obtain ⟨y, first, marked⟩ := leads (scope own)
  obtain rfl : y = x := Option.some.inj (first.symm.trans head)
  have avoids := avoids_trim (avoids_right solid apart cut token arithmetic le)
  have there := marked sign
  rw [← head?_trim] at there
  obtain ⟨rest, eq⟩ := List.head?_eq_some_iff.1 there
  rw [eq] at avoids
  exact begins_of_sign sign (avoids.1 rfl)

end Operands

/-! ### Calls -/

/-- A registered function is found again under the name that it is written with. -/
theorem settled_of_mem {e : Entry} (mem : e ∈ registry) :
    lookup? e.sqlName = some e ∧ isExtract e.sqlName.toList = (e.key == "extract") ∧
      Clause.IsWord e.sqlName.toList := by
  have all : ∀ e ∈ registry, lookup? e.sqlName = some e ∧
      isExtract e.sqlName.toList = (e.key == "extract") ∧ Clause.IsWord e.sqlName.toList := by
    decide +kernel
  exact all e mem

theorem call_eq_of_lookup? {name : String} {e : Entry} (found : lookup? name = some e)
    (args : List Term) :
    call name args .mariadb = ⟨e.sqlName, if e.dropsArgs then [] else args, none⟩ := by
  rw [call, found]
  rfl

theorem isExtract_of_lookup? {name : List Char} {e : Entry}
    (found : lookup? (String.ofList name) = some e) : isExtract name = (e.key == "extract") := by
  have key := List.find?_some found
  rw [beq_iff_eq, String.toList_ofList] at key
  have lower : lowerAscii "extract".toList = "extract".toList := by decide
  rw [isExtract, equalAscii, ← key, lower, Bool.eq_iff_iff, beq_iff_eq, beq_iff_eq,
    String.toList_inj]

theorem canonicalCall_call {name : List Char} {ts : List Term} (word : Clause.IsWord name)
    (other : isExtract name = false)
    (each : ∀ t ∈ (call (String.ofList name) ts .mariadb).args, Canonical own t) :
    CanonicalCall own (call (String.ofList name) ts .mariadb).function
      (call (String.ofList name) ts .mariadb).args := by
  cases found : lookup? (String.ofList name) with
  | some e =>
    have settled := settled_of_mem (List.mem_of_find?_eq_some found)
    rw [call_eq_of_lookup? found] at each ⊢
    refine .plain settled.2.2 ?_ ?_ each
    · rw [settled.2.1, ← isExtract_of_lookup? found, other]
    · rw [call_eq_of_lookup? settled.1]
      cases e.dropsArgs <;> rfl
  | none =>
    have same : call (String.ofList name) ts .mariadb = ⟨String.ofList name, ts, none⟩ := by
      rw [call, found]
    rw [same] at each ⊢
    exact .plain (by rwa [String.toList_ofList]) (by rwa [String.toList_ofList]) same each

theorem mem_of_mem_call {name : String} {ts : List Term} {t : Term}
    (mem : t ∈ (call name ts .mariadb).args) : t ∈ ts := by
  cases found : lookup? name with
  | some e =>
    rw [call_eq_of_lookup? found] at mem
    dsimp only at mem
    split at mem
    · cases mem
    · exact mem
  | none =>
    rw [call, found] at mem
    exact mem

section Calls

variable {name : List Char} {args : List (List Char)} {f : FunctionCall}

theorem label_of_denotesCall (h : DenotesCall own d name args f) : f.label = none := by
  cases h with
  | extract => rfl
  | plain =>
    unfold call
    split <;> rfl

theorem isRecognized_of_denotesCall (h : DenotesCall own .mariadb name args f)
    (recognized : isRecognized (String.ofList name)) : isRecognized f.function := by
  cases h with
  | extract => exact (by decide : isRecognized "EXTRACT")
  | plain =>
    obtain ⟨e, found⟩ := Option.isSome_iff_exists.1 recognized
    rw [call_eq_of_lookup? found, isRecognized,
      (settled_of_mem (List.mem_of_find?_eq_some found)).1]
    rfl

end Calls

/-! ### Whole terms -/

theorem canonical_of_literal? {cs : List Char} {v : Literal} (read : literal? cs = some v)
    (exact : v.Exact) : Canonical own (.literal v) := by
  cases v with
  | int n => exact .int n
  | text s => exact .text exact
  | float x => exact exact.elim
  | null | bool _ =>
    unfold literal? at read
    split at read
    · obtain ⟨_, _, eq⟩ := Option.map_eq_some_iff.1 read
      cases eq
    split at read
    · cases read
    · obtain ⟨_, _, eq⟩ := Option.map_eq_some_iff.1 read
      cases eq

theorem canonical_of_column? {cs : List Char} {t : Term} (read : column? own cs = some t) :
    Canonical own t := by
  obtain ⟨w, c, spelled, resolved, rfl⟩ := column_of_column? read
  have word := spelled.isWord_column
  have within := spelled.isEntityChar_table
  unfold Clause.ColumnText.resolve? at resolved
  split at resolved
  · cases resolved
    exact .column word (.inl rfl)
  · obtain ⟨t, physical, rfl⟩ := Option.map_eq_some_iff.1 resolved
    obtain ⟨named, physical⟩ := Option.filter_eq_some_iff.1 physical
    exact .column word (.inr ⟨physical, within t named⟩)

mutual

/-- With exact literals only, every term that an argument denotes is canonical. -/
theorem canonical_of_denotes : ∀ {text : List Char} {t : Term}, Denotes own .mariadb text t →
    t.Exact → Canonical own t
  | _, _, .star _, _ => .star
  | _, _, .literal read, exact => canonical_of_literal? read (exact _ .itself)
  | _, _, .call read made, exact => by
    obtain ⟨parsed, _, recognized⟩ := nestedCall?_eq_some.1 read
    obtain ⟨_, _, _, word, _⟩ := CallText.parse?_eq_some.1 parsed
    have call := canonicalCall_of_denotesCall made word fun t mem => exact.part mem
    rw [FunctionCall.term, label_of_denotesCall made]
    exact .call (isRecognized_of_denotesCall made recognized) call
  | text, _, .binary cut token hl hr, exact => by
    have left := canonical_of_denotes hl (exact.part (List.mem_pair.2 (.inl rfl)))
    have right := canonical_of_denotes hr (exact.part (List.mem_pair.2 (.inr rfl)))
    obtain ⟨c, r, eq, solid, apart⟩ := trim_of_denotes (.binary cut token hl hr)
    rw [eq] at cut
    obtain ⟨tighter, first⟩ := rank_left solid apart cut token hl
    exact .binary left right tighter first (rank_right solid apart cut token hr)
      fun arithmetic k le x head sign =>
        begins_right solid apart cut token (tame_of_denotes hr).2 arithmetic le head sign
  | _, _, .column read, _ => canonical_of_column? read

theorem canonical_of_denotesAll : ∀ {texts : List (List Char)} {ts : List Term},
    DenotesAll own .mariadb texts ts → ∀ t ∈ ts, t.Exact → Canonical own t
  | _, _, .nil => by simp
  | _, _, .cons first rest => by
    have head := canonical_of_denotes first
    have tail := canonical_of_denotesAll rest
    exact List.forall_mem_cons.2 ⟨head, tail⟩

theorem canonicalCall_of_denotesCall : ∀ {name : List Char} {args : List (List Char)}
    {f : FunctionCall}, DenotesCall own .mariadb name args f → Clause.IsWord name →
    (∀ t ∈ f.args, t.Exact) → CanonicalCall own f.function f.args
  | _, _, _, .extract _ _ _ date, _, exact =>
    .extract _ (canonical_of_denotes date (exact _ (by simp)))
  | _, _, _, .plain other each, word, exact => by
    have canonical := canonical_of_denotesAll each
    exact canonicalCall_call word other fun t mem => canonical t (mem_of_mem_call mem) (exact t mem)

end

theorem canonicalCall_of_parseCall {text : String} {f : FunctionCall}
    (h : parseCall own .mariadb text = .ok f) (exact : ∀ t ∈ f.args, t.Exact) :
    CanonicalCall own f.function f.args := by
  unfold parseCall at h
  dsimp only at h
  split at h
  · next parsed =>
    cases h
    obtain ⟨syntactic, read, parsed⟩ := Option.bind_eq_some_iff.1 parsed
    obtain ⟨call, made, eq⟩ := Option.bind_eq_some_iff.1 parsed
    obtain ⟨_, _, _, word, _⟩ := CallText.parse?_eq_some.1 read
    have canonical := canonicalCall_of_denotesCall (denotesCall_of_callOf made) word
    cases eq
    exact canonical exact
  · cases h

end Function

end ScopedQuery
