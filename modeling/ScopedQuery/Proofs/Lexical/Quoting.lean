import ScopedQuery.Proofs.Lexical.Quotation

set_option autoImplicit false

namespace ScopedQuery.Sql.Dialect

def identifier? (d : Dialect) : List Char → Option (List Char × List Char)
  | [] => none
  | c :: r => if c == d.quoteChar then d.quotation? d.quoteChar r else none

variable {d : Dialect} {mark : Char} {cs body rest : List Char}

/-- Whether a text inside a quotation says some characters and nothing else, whatever follows. -/
def Says (d : Dialect) (mark : Char) (body cs : List Char) : Prop :=
  ∀ r, d.quotation? mark (body ++ r) = (d.quotation? mark r).map (Prod.map (cs ++ ·) id)

theorem says_flatMap {f : Char → List Char} (each : ∀ c, d.Says mark (f c) [c]) (cs : List Char) :
    d.Says mark (cs.flatMap f) cs := by
  intro r
  induction cs with
  | nil => exact Option.map_id'.symm
  | cons c cs ih =>
    rw [List.flatMap_cons, List.append_assoc, each, ih, Option.map_map]
    rfl

theorem says_mark (d : Dialect) (mark : Char) : d.Says mark [mark, mark] [mark] :=
  d.quotation?_mark mark

theorem says_plain {c : Char} (ne : c ≠ mark) (plain : d.escapesInside mark c = false) :
    d.Says mark [c] [c] :=
  quotation?_plain ne plain

theorem says_escape {c : Char} (escapes : d.escapesInside mark c) : d.Says mark [c, c] [c] := by
  obtain ⟨_, _, rfl⟩ := escapesInside_iff.1 escapes
  exact quotation?_escape escapes Text.backslash

theorem says_stringBody (d : Dialect) (cs : List Char) :
    d.Says Text.singleQuote (d.stringBody cs) cs := by
  refine says_flatMap (fun c => ?_) cs
  by_cases quote : c = Text.singleQuote
  · rw [if_pos (beq_iff_eq.2 quote), quote]
    exact says_mark d Text.singleQuote
  rw [if_neg (mt beq_iff_eq.1 quote)]
  split
  · next twice =>
    rw [Bool.and_eq_true, beq_iff_eq, beq_iff_eq] at twice
    exact says_escape (escapesInside_iff.2 ⟨twice.2, rfl, twice.1⟩)
  · next once =>
    refine says_plain quote (Bool.eq_false_iff.2 fun escapes => once ?_)
    obtain ⟨maria, _, backslash⟩ := escapesInside_iff.1 escapes
    rw [maria, backslash]
    rfl

theorem says_doubling_quoteChar (d : Dialect) (cs : List Char) :
    d.Says d.quoteChar (Text.doubling d.quoteChar cs) cs := by
  have plain : ∀ c, d.escapesInside d.quoteChar c = false := by
    intro c
    cases d <;> rfl
  refine says_flatMap (fun c => ?_) cs
  by_cases same : c = d.quoteChar
  · rw [if_pos (beq_iff_eq.2 same), same]
    exact says_mark d d.quoteChar
  · rw [if_neg (mt beq_iff_eq.1 same)]
    exact says_plain same (plain c)

theorem Says.quotation?_iff (h : d.Says mark body cs) :
    d.quotation? mark (body ++ mark :: rest) = some (cs, rest) ↔ rest.head? ≠ some mark := by
  rw [h]
  constructor
  · intro read again
    obtain ⟨r, rfl⟩ := List.head?_eq_some_iff.1 again
    rw [quotation?_mark, Option.map_map] at read
    obtain ⟨⟨v, _⟩, _, eq⟩ := Option.map_eq_some_iff.1 read
    -- The second mark would be among the characters that were read.
    have length := congrArg (fun p => p.1.length) eq
    simp only [Function.comp_apply, Prod.map_fst, List.length_append, List.length_cons] at length
    omega
  · intro stop
    rw [quotation?_close stop, Option.map_some, Prod.map_apply, List.append_nil]
    rfl

theorem literal?_quoteString_iff (d : Dialect) (s : String) (rest : List Char) :
    d.literal? ((d.quoteString s).toList ++ rest) = some (s.toList, rest) ↔
      rest.head? ≠ some Text.singleQuote := by
  rw [quoteString, String.toList_ofList, List.append_assoc, List.cons_append, literal?,
    if_pos (beq_self_eq_true _)]
  exact (d.says_stringBody s.toList).quotation?_iff

theorem identifier?_quoteIdentifier_iff (d : Dialect) (s : String) (rest : List Char) :
    d.identifier? ((d.quoteIdentifier s).toList ++ rest) = some (s.toList, rest) ↔
      rest.head? ≠ some d.quoteChar := by
  rw [quoteIdentifier, String.toList_ofList, List.append_assoc, List.cons_append, identifier?,
    if_pos (beq_self_eq_true _)]
  exact (d.says_doubling_quoteChar s.toList).quotation?_iff

/-- A quoted string and a quoted identifier are read back as what was quoted, up to their closing
mark, exactly if this mark does not follow once more. -/
theorem read_quoted_iff (d : Dialect) (s : String) (rest : List Char) :
    (d.literal? ((d.quoteString s).toList ++ rest) = some (s.toList, rest) ↔
      rest.head? ≠ some Text.singleQuote) ∧
    (d.identifier? ((d.quoteIdentifier s).toList ++ rest) = some (s.toList, rest) ↔
      rest.head? ≠ some d.quoteChar) :=
  ⟨d.literal?_quoteString_iff s rest, d.identifier?_quoteIdentifier_iff s rest⟩

end ScopedQuery.Sql.Dialect
