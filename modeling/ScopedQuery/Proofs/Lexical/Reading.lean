import Mathlib.Data.List.Chain
import Mathlib.Data.List.Infix
import ScopedQuery.Sql.Dialect

set_option autoImplicit false

/-!
How a dialect reads SQL text character by character: which characters belong to a quotation, and
which stand outside. A text is inert if it ends outside every quotation and if what stands outside
holds words, numbers and operators only, and nothing that opens a comment or ends a statement.

A reader remembers the last character outside quotations, so that texts can be put together piece
by piece: each piece is read from some readers to others.
-/

namespace ScopedQuery.Sql

inductive Standing where
  | code
  | quoted (mark : Char)
  /-- Behind a backslash that makes the next character part of a string. -/
  | escaped (mark : Char)
  /-- Behind a mark that closes the quotation, unless the same mark follows. -/
  | closed (mark : Char)
  deriving DecidableEq

def Dialect.opensQuotation (d : Dialect) (c : Char) : Bool :=
  c == Text.singleQuote || c == d.quoteChar

def Dialect.escapesInside (d : Dialect) (mark c : Char) : Bool :=
  d == mariadb && mark == Text.singleQuote && c == Text.backslash

namespace Standing

def isOutside : Standing → Bool
  | code | closed _ => true
  | quoted _ | escaped _ => false

def step (d : Dialect) : Standing → Char → Standing
  | code, c => if d.opensQuotation c then quoted c else code
  | closed q, c =>
    if c == q then quoted q else if d.opensQuotation c then quoted c else code
  | quoted q, c => if c == q then closed q else if d.escapesInside q c then escaped q else quoted q
  | escaped q, _ => quoted q

def visible (d : Dialect) : Standing → List Char → List (Option Char)
  | _, [] => []
  | s, c :: r => (if s.step d c = code then some c else none) :: visible d (s.step d c) r

end Standing

def isCodeChar (c : Char) : Bool :=
  Text.isWordChar c ||
    [' ', '.', ',', '(', ')', '=', '<', '>', '+', '-', '*', '/', '~'].contains c

/-- A text that a dialect reads as complete quotations among harmless code. -/
structure Inert (d : Dialect) (sql : String) : Prop where
  closes : (sql.toList.foldl (Standing.step d) .code).isOutside
  code : ∀ c, some c ∈ Standing.visible d .code sql.toList → isCodeChar c
  no_line_comment : ¬ [some '-', some '-'] <:+: Standing.visible d .code sql.toList
  no_block_comment : ¬ [some '/', some '*'] <:+: Standing.visible d .code sql.toList
  no_mark : ∀ c ∈ ['#', ';', Text.backslash, Text.singleQuote, Text.doubleQuote, Text.backtick],
    some c ∉ Standing.visible d .code sql.toList

def opensComment (a b : Option Char) : Bool :=
  (a == some '-' && b == some '-') || (a == some '/' && b == some '*')

/-- A reading that goes on as long as the text is inert. -/
structure Reader where
  standing : Standing
  /-- The character in front, if there is one outside quotations. -/
  last : Option Char

namespace Reader

def start : Reader := ⟨.code, none⟩

def step (d : Dialect) (r : Reader) (c : Char) : Option Reader :=
  if r.standing.step d c = .code then
    if isCodeChar c && !opensComment r.last (some c) then some ⟨.code, some c⟩ else none
  else some ⟨r.standing.step d c, none⟩

def run (d : Dialect) (r : Reader) (cs : List Char) : Option Reader := cs.foldlM (step d) r

@[simp] theorem run_nil (d : Dialect) (r : Reader) : run d r [] = some r := rfl

@[simp] theorem run_cons (d : Dialect) (r : Reader) (c : Char) (cs : List Char) :
    run d r (c :: cs) = (step d r c).bind fun r => run d r cs := rfl

theorem run_append (d : Dialect) (r : Reader) (a b : List Char) :
    run d r (a ++ b) = (run d r a).bind fun r => run d r b := by
  unfold run
  rw [List.foldlM_append]
  rfl

theorem visible_of_run {d : Dialect} {r s : Reader} {cs : List Char} (h : run d r cs = some s) :
    cs.foldl (Standing.step d) r.standing = s.standing ∧
      (∀ c, some c ∈ Standing.visible d r.standing cs → isCodeChar c) ∧
      (r.last :: Standing.visible d r.standing cs).IsChain fun a b => opensComment a b = false := by
  induction cs generalizing r with
  | nil =>
    cases h
    simp [Standing.visible]
  | cons c cs ih =>
    rw [run_cons] at h
    obtain ⟨t, first, rest⟩ := Option.bind_eq_some_iff.1 h
    obtain ⟨ends, code, chain⟩ := ih rest
    unfold step at first
    rw [List.foldl_cons, Standing.visible, List.isChain_cons_cons]
    -- Outside quotations the character itself has to be harmless; inside nothing is asked of it.
    split at first
    · next isCode =>
      split at first
      · next harmless =>
        rw [Bool.and_eq_true, Bool.not_eq_true'] at harmless
        cases first
        rw [isCode, if_pos rfl]
        refine ⟨ends, ?_, harmless.2, chain⟩
        intro x hx
        rcases List.mem_cons.1 hx with eq | hx
        · cases eq
          exact harmless.1
        · exact code x hx
      · cases first
    · next inside =>
      cases first
      rw [if_neg inside]
      refine ⟨ends, ?_, by simp [opensComment], chain⟩
      intro x hx
      rcases List.mem_cons.1 hx with eq | hx
      · cases eq
      · exact code x hx

theorem inert_of_run {d : Dialect} {r : Reader} {sql : String}
    (h : run d start sql.toList = some r) (outside : r.standing.isOutside) : Inert d sql := by
  obtain ⟨ends, code, chain⟩ := visible_of_run h
  have apart : ∀ a b, opensComment a b = true →
      ¬ [a, b] <:+: Standing.visible d .code sql.toList := by
    intro a b opens found
    have pair := chain.infix (found.trans (List.suffix_cons _ _).isInfix)
    rw [List.isChain_cons_cons, opens] at pair
    exact absurd pair.1 (by decide)
  refine ⟨?_, code, apart _ _ rfl, apart _ _ rfl, ?_⟩
  · rw [show sql.toList.foldl (Standing.step d) .code = r.standing from ends]
    exact outside
  · intro c hc found
    have bad : ['#', ';', Text.backslash, Text.singleQuote, Text.doubleQuote, Text.backtick].all
        fun c => !isCodeChar c := by decide
    have mark := List.all_eq_true.1 bad c hc
    rw [code c found] at mark
    cases mark

end Reader

end ScopedQuery.Sql
