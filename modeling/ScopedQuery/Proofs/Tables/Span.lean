import ScopedQuery.Proofs.Lexical.Expression
import ScopedQuery.Proofs.Lexical.Lexeme

set_option autoImplicit false

namespace ScopedQuery.Sql

namespace Lexeme

def called? : Lexeme → Option (List Char)
  | .name cs | .word cs => some cs
  | .text _ | .number _ | .sign _ => none

def quoted? : Lexeme → Option (List Char)
  | .name cs => some cs
  | _ => none

def introduces : Lexeme → Bool
  | .word cs => ["from".toList, "update".toList, "join".toList].contains (Text.lowerAscii cs)
  | _ => false

def after (depth : Nat) (t : Lexeme) : Nat :=
  if t = .sign '(' then depth + 1 else if t = .sign ')' then depth - 1 else depth

def qualifiers : List Lexeme → List (List Char)
  | [] => []
  | t :: ts => (if ts.head? = some (.sign '.') then t.called?.toList else []) ++ qualifiers ts

def sources : Nat → List Lexeme → List (List Char)
  | _, [] => []
  | depth, t :: ts =>
    (if depth = 0 ∧ t.introduces then (ts.head?.bind quoted?).toList else []) ++
      sources (t.after depth) ts

/-- The depth behind lexemes that introduce nothing and that no name can follow to be introduced. -/
def depth? : Nat → List Lexeme → Option Nat
  | depth, [] => some depth
  | depth, t :: ts =>
    if depth = 0 ∧ (t = .sign ')' ∨ t.introduces ∧ ts.head?.all fun n => n.quoted?.isSome) then none
    else depth? (t.after depth) ts

variable {ts us : List Lexeme} {i j : Nat}

theorem qualifiers_append (h : us.head? ≠ some (.sign '.')) :
    qualifiers (ts ++ us) = qualifiers ts ++ qualifiers us := by
  induction ts with
  | nil => rfl
  | cons t ts ih =>
    rw [List.cons_append, qualifiers, qualifiers, ih, List.append_assoc]
    cases ts with
    | nil => simp [h]
    | cons u ts => rfl

theorem sources_append (h : depth? i ts = some j) (k : Nat) (us : List Lexeme) :
    sources (k + i) (ts ++ us) = sources (k + j) us := by
  induction ts generalizing i with
  | nil =>
    cases h
    rfl
  | cons t ts ih =>
    rw [depth?] at h
    split at h
    · cases h
    next allowed =>
    -- Without a parenthesis that closes more than the text opens, both depths go on together.
    have level : t.after (k + i) = k + t.after i := by
      unfold after
      split_ifs with opens closes
      · rfl
      · have deep : i ≠ 0 := fun zero => allowed ⟨zero, .inl closes⟩
        omega
      · rfl
    have nothing : (if k + i = 0 ∧ t.introduces then
        ((ts ++ us).head?.bind quoted?).toList else []) = [] := by
      refine ite_eq_right_iff.2 fun ⟨zero, introduces⟩ => ?_
      -- A word that introduces has a lexeme behind it in the same text, which is no name.
      have follows : ¬ ts.head?.all fun n => n.quoted?.isSome := fun all =>
        allowed ⟨by omega, .inr ⟨introduces, all⟩⟩
      cases ts with
      | nil => exact absurd rfl follows
      | cons u ts =>
        cases quoted : u.quoted? with
        | none => simp [quoted]
        | some cs => simp [quoted] at follows
    rw [List.cons_append, sources, nothing, List.nil_append, level, ih h]

end Lexeme

/-- Whether a text leads from one depth of parentheses to another, with some names in front of
points and some tables that it introduces if it stands outside of parentheses. -/
structure Span (d : Dialect) (i j : Nat) (cs : List Char) (names tables : List (List Char)) : Prop
    where
  closed : d.Closed cs
  head : (d.lexemes cs).head? ≠ some (.sign '.')
  qualifiers : Lexeme.qualifiers (d.lexemes cs) = names
  sources : ∀ k ts, Lexeme.sources (k + i) (d.lexemes cs ++ ts) =
    (if k = 0 then tables else []) ++ Lexeme.sources (k + j) ts

variable {d : Dialect} {i j k : Nat} {a b cs : List Char} {m n ns ts us : List (List Char)}

theorem Span.append (ha : Span d i j a m ts) (hb : Span d j k b n us) (apart : d.Apart a b) :
    Span d i k (a ++ b) (m ++ n) (ts ++ us) := by
  have lexemes := ha.closed.lexemes_append apart
  refine ⟨ha.closed.append hb.closed apart, ?_, ?_, fun l more => ?_⟩
  · rw [lexemes, List.head?_append]
    cases first : (d.lexemes a).head? with
    | none => exact hb.head
    | some t =>
      rw [Option.some_or, ← first]
      exact ha.head
  · rw [lexemes, Lexeme.qualifiers_append hb.head, ha.qualifiers, hb.qualifiers]
  · rw [lexemes, List.append_assoc, ha.sources, hb.sources, ← List.append_assoc]
    split <;> rfl

theorem Span.nil : Span d i i [] [] [] where
  closed := rfl
  head := nofun
  qualifiers := rfl
  sources k ts := by split <;> rfl

theorem Span.up (h : Span d 0 0 cs ns ts) (l : Nat) : Span d (l + 1) (l + 1) cs ns [] where
  closed := h.closed
  head := h.head
  qualifiers := h.qualifiers
  sources k more := by
    have deep := h.sources (k + (l + 1)) more
    have inside : k + (l + 1) ≠ 0 := Nat.succ_ne_zero (k + l)
    rw [if_neg inside] at deep
    rwa [ite_self]

def isCode (d : Dialect) (i j : Nat) (ts : List Lexeme) : Bool :=
  ts.all d.closes && ts.head? != some (.sign '.') && Lexeme.qualifiers ts == [] &&
    Lexeme.depth? i ts == some j

theorem span_of_isCode (h : isCode d i j (d.lexemes cs)) : Span d i j cs [] [] := by
  unfold isCode at h
  simp only [Bool.and_eq_true, bne_iff_ne, beq_iff_eq] at h
  obtain ⟨⟨⟨closed, head⟩, qualifiers⟩, depth⟩ := h
  refine ⟨closed, head, qualifiers, fun k more => ?_⟩
  rw [Lexeme.sources_append depth, ite_self, List.nil_append]

def Dialect.every (p : Dialect → Bool) : Bool := p .mariadb && p .postgres && p .sqlite

theorem Dialect.of_every {p : Dialect → Bool} (h : every p) (d : Dialect) : p d := by
  unfold every at h
  rw [Bool.and_eq_true, Bool.and_eq_true] at h
  cases d with
  | mariadb => exact h.1.1
  | postgres => exact h.1.2
  | sqlite => exact h.2

def isSpan (i j : Nat) (cs : List Char) : Bool := Dialect.every fun d => isCode d i j (d.lexemes cs)

theorem span_of_isSpan (h : isSpan i j cs) : Span d i j cs [] [] :=
  span_of_isCode (Dialect.of_every h d)

def isBreak (c : Char) : Bool := isCodeChar c && !isNumeralChar c

theorem isBreak_iff {c : Char} : isBreak c ↔ isCodeChar c ∧ isNumeralChar c = false := by
  rw [isBreak, Bool.and_eq_true, Bool.not_eq_true']

theorem Dialect.apart_of_head (h : b.head?.all isBreak) : d.Apart a b := by
  intro x _ y head
  rw [Option.mem_def.1 head, Option.all_some, isBreak_iff] at h
  refine ⟨fun _ => h.2, ?_⟩
  rintro opens rfl
  rw [opensQuotation_of_isCodeChar d h.1] at opens
  cases opens

theorem Dialect.apart_of_getLast? (h : a.getLast?.any isBreak) : d.Apart a b := by
  intro x last y _
  rw [Option.mem_def.1 last, Option.any_some, isBreak_iff] at h
  constructor
  · rw [h.2]
    nofun
  · rw [opensQuotation_of_isCodeChar d h.1]
    nofun

theorem isBreak_getLast?_append (h : b.getLast?.any isBreak) : (a ++ b).getLast?.any isBreak := by
  obtain ⟨c, last, apart⟩ := (Option.any_eq_true _ _).1 h
  rw [List.getLast?_append, last, Option.some_or]
  exact apart

theorem Span.then_code (ha : Span d i j a m ts) {code : List Char} (span : isSpan j k code)
    (first : code.head?.all isBreak) : Span d i k (a ++ code) m ts := by
  have whole := ha.append (span_of_isSpan span) (Dialect.apart_of_head first)
  rwa [List.append_nil, List.append_nil] at whole

theorem Span.behind_code {x : List Char} (span : isSpan i j x) (last : x.getLast?.any isBreak)
    (ha : Span d j k a m ts) : Span d i k (x ++ a) m ts :=
  (span_of_isSpan span).append ha (Dialect.apart_of_getLast? last)

def isBetween (code : String) : Bool :=
  isSpan 0 0 code.toList && code.toList.head?.all isBreak && code.toList.getLast?.any isBreak

theorem isBetween_iff {code : String} : isBetween code ↔ isSpan 0 0 code.toList ∧
    code.toList.head?.all isBreak ∧ code.toList.getLast?.any isBreak := by
  rw [isBetween, Bool.and_eq_true, Bool.and_eq_true, and_assoc]

theorem Span.joined (ha : Span d 0 0 a m ts) (hb : Span d 0 0 b n us) {x : String}
    (between : isBetween x) : Span d 0 0 (a ++ x.toList ++ b) (m ++ n) (ts ++ us) := by
  obtain ⟨span, first, last⟩ := isBetween_iff.1 between
  exact (ha.then_code span first).append hb
    (Dialect.apart_of_getLast? (isBreak_getLast?_append last))

theorem span_intercalate {α : Type} {s : String} (between : isBetween s) {xs : List α}
    {f : α → String} {g : α → List (List Char)}
    (each : ∀ x ∈ xs, Span d 0 0 (f x).toList (g x) []) :
    Span d 0 0 (s.intercalate (xs.map f)).toList (xs.flatMap g) [] := by
  induction xs with
  | nil => exact .nil
  | cons x xs ih =>
    obtain ⟨here, others⟩ := List.forall_mem_cons.1 each
    by_cases single : xs = []
    · subst single
      simpa using here
    · have more : xs.map f ≠ [] := by simpa using single
      rw [List.map_cons, String.intercalate_cons_of_ne_nil more, String.toList_append,
        String.toList_append, List.flatMap_cons]
      exact here.joined (ih others) between

theorem Span.enclosed (h : Span d 0 0 a m ts) {l : Nat} {x y : List Char}
    (opens : Span d i (l + 1) x n []) (last : x.getLast?.any isBreak)
    (closes : isSpan (l + 1) j y) (first : y.head?.all isBreak) :
    Span d i j (x ++ a ++ y) (n ++ m) [] :=
  (opens.append (h.up l) (Dialect.apart_of_getLast? last)).then_code closes first

end ScopedQuery.Sql
