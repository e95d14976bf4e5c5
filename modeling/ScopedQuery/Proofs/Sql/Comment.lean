import Mathlib.Data.List.Infix
import Mathlib.Data.List.TakeWhile
import ScopedQuery.Sql.Comment

set_option autoImplicit false

/-!
What is left of a text without its comments. Every text consists of comments and of characters that
stand outside them, in one way only. Those characters are left, in their order, with one space in
place of each block comment; no comment opens among them, so that nothing is removed from what is
left.
-/

namespace ScopedQuery.Sql

/-- Whether a character and the one behind it open a comment. -/
def Dialect.startsComment (d : Dialect) (c : Char) (next : Option Char) : Bool :=
  (c == '/' && next == some '*') || (c == '-' && next == some '-') ||
    (c == '#' && d.hasHashComments)

def quoteAfter (quote : Option Char) (c : Char) : Option Char :=
  match quote with
  | some mark => if c == mark then none else some mark
  | none => if Text.isQuote c then some c else none

def commentFree (d : Dialect) : Option Char → List Char → Bool
  | _, [] => true
  | quote, c :: r =>
    (quote.isSome || !d.startsComment c r.head?) && commentFree d (quoteAfter quote c) r

/-! ### Texts and their comments -/

inductive Portion where
  | kept (c : Char)
  /-- A block comment, by what stands between its marks; one that is not closed has no second
  mark. -/
  | block (body : List Char) (closed : Bool)
  | line (opener body : List Char)
  deriving DecidableEq

namespace Portion

def text : Portion → List Char
  | kept c => [c]
  | block body closed => '/' :: '*' :: body ++ if closed then ['*', '/'] else []
  | line opener body => opener ++ body

/-- What is left in the place of a portion. -/
def trace : Portion → List Char
  | kept c => [c]
  | block _ _ => [' ']
  | line _ _ => []

def kept? : Portion → Option Char
  | kept c => some c
  | block _ _ | line _ _ => none

end Portion

def textOf (ps : List Portion) : List Char := ps.flatMap Portion.text

def traceOf (ps : List Portion) : List Char := ps.flatMap Portion.trace

def Dialect.lineOpeners (d : Dialect) : List (List Char) :=
  if d.hasHashComments then [['-', '-'], ['#']] else [['-', '-']]

/-- Whether portions are read off a text that begins inside the given quotation or outside of all:
no comment is passed over, and each ends where a comment of its kind ends first. -/
def IsReading (d : Dialect) : Option Char → List Portion → Prop
  | _, [] => True
  | quote, .kept c :: ps =>
    (quote = none → d.startsComment c (textOf ps).head? = false) ∧
      IsReading d (quoteAfter quote c) ps
  | quote, .block body closed :: ps =>
    quote = none ∧ ¬ ['*', '/'] <:+: body ∧ (closed = false → ps = []) ∧ IsReading d none ps
  | quote, .line opener body :: ps =>
    quote = none ∧ opener ∈ d.lineOpeners ∧ '\n' ∉ body ∧ (∀ c ∈ (textOf ps).head?, c = '\n') ∧
      IsReading d none ps

variable {d : Dialect} {quote : Option Char} {c : Char} {cs r body : List Char} {p : Portion}
  {ps qs : List Portion} {starred closed : Bool}

@[simp] theorem textOf_cons : textOf (p :: ps) = p.text ++ textOf ps := List.flatMap_cons

@[simp] theorem traceOf_cons : traceOf (p :: ps) = p.trace ++ traceOf ps := List.flatMap_cons

theorem mem_lineOpeners {opener : List Char} :
    opener ∈ d.lineOpeners ↔ opener = ['-', '-'] ∨ opener = ['#'] ∧ d.hasHashComments := by
  unfold Dialect.lineOpeners
  split <;> simp_all

/-! ### Scanning -/

def Region.ofQuote : Option Char → Region
  | none => .code
  | some mark => .quoted mark

theorem stripFrom_kept (plain : quote = none → d.startsComment c r.head? = false) :
    stripFrom d (.ofQuote quote) (c :: r) = c :: stripFrom d (.ofQuote (quoteAfter quote c)) r := by
  cases quote with
  | some mark =>
    rw [Region.ofQuote, stripFrom, quoteAfter]
    split <;> rfl
  | none =>
    have none_opens := plain rfl
    simp only [Dialect.startsComment, Bool.or_eq_false_iff] at none_opens
    obtain ⟨⟨block, hyphens⟩, hash⟩ := none_opens
    rw [Region.ofQuote, stripFrom, quoteAfter, hash]
    · split <;> rfl
    · rintro rest rfl rfl
      simp at block
    · rintro rest rfl rfl
      simp at hyphens

theorem stripFrom_of_commentFree (h : commentFree d quote cs) :
    stripFrom d (.ofQuote quote) cs = cs := by
  induction cs generalizing quote with
  | nil => rw [stripFrom]
  | cons c r ih =>
    rw [commentFree, Bool.and_eq_true, Bool.or_eq_true, Bool.not_eq_true'] at h
    obtain ⟨plain, rest⟩ := h
    rw [stripFrom_kept, ih rest]
    rintro rfl
    exact plain.resolve_left Bool.false_ne_true

def endsBlock : Bool → List Char → Bool
  | _, [] => false
  | starred, c :: r => (starred && c == '/') || endsBlock (c == '*') r

theorem endsBlock_iff :
    endsBlock starred body ↔ ['*', '/'] <:+: (if starred then '*' :: body else body) := by
  induction body generalizing starred with
  | nil => cases starred <;> simp [endsBlock, List.infix_cons_iff]
  | cons c body ih =>
    have behind : endsBlock (c == '*') body ↔ ['*', '/'] <:+: c :: body := by
      rw [ih]
      by_cases star : c = '*'
      · simp [star]
      · simp [star, List.infix_cons_iff, Ne.symm star]
    cases starred with
    | false => simpa [endsBlock] using behind
    | true =>
      have closes : ['*', '/'] <+: '*' :: c :: body ↔ c = '/' := by
        simp [@eq_comm _ '/' c]
      rw [endsBlock, Bool.true_and, Bool.or_eq_true, beq_iff_eq, behind, if_pos rfl,
        List.infix_cons_iff (a := '*'), closes]

theorem stripFrom_block (h : endsBlock starred body = false) :
    stripFrom d (.block starred) (body ++ '*' :: '/' :: r) = stripFrom d .code r := by
  induction body generalizing starred with
  | nil => simp [stripFrom]
  | cons c body ih =>
    obtain ⟨goes_on, rest⟩ := Bool.or_eq_false_iff.1 h
    rw [List.cons_append, stripFrom, goes_on]
    exact ih rest

theorem stripFrom_block_unclosed (h : endsBlock starred body = false) :
    stripFrom d (.block starred) body = [] := by
  induction body generalizing starred with
  | nil => rw [stripFrom]
  | cons c body ih =>
    obtain ⟨goes_on, rest⟩ := Bool.or_eq_false_iff.1 h
    rw [stripFrom, goes_on]
    exact ih rest

theorem stripFrom_line (inside : '\n' ∉ body) (stop : ∀ c ∈ r.head?, c = '\n') :
    stripFrom d .line (body ++ r) = stripFrom d .code r := by
  induction body with
  | nil =>
    cases r with
    | nil => simp [stripFrom]
    | cons c r =>
      obtain rfl := stop c rfl
      simp [stripFrom, Text.isQuote, Text.singleQuote, Text.doubleQuote, Text.backtick]
  | cons c body ih =>
    rw [List.mem_cons, not_or] at inside
    rw [List.cons_append, stripFrom, beq_eq_false_iff_ne.2 (Ne.symm inside.1)]
    exact ih inside.2

theorem stripFrom_textOf (h : IsReading d quote ps) :
    stripFrom d (.ofQuote quote) (textOf ps) = traceOf ps := by
  induction ps generalizing quote with
  | nil => simp [textOf, traceOf, stripFrom]
  | cons p ps ih =>
    rw [textOf_cons, traceOf_cons]
    cases p with
    | kept c =>
      obtain ⟨plain, rest⟩ := h
      rw [← ih rest]
      exact stripFrom_kept plain
    | block body closed =>
      obtain ⟨rfl, free, last, rest⟩ := h
      have open_body : endsBlock false body = false :=
        Bool.eq_false_iff.2 fun ends => free (endsBlock_iff.1 ends)
      rw [← ih rest]
      cases closed with
      | true =>
        have passed := stripFrom_block (d := d) (r := textOf ps) open_body
        simpa [Portion.text, Portion.trace, stripFrom, Region.ofQuote] using passed
      | false =>
        have passed := stripFrom_block_unclosed (d := d) open_body
        simpa [Portion.text, Portion.trace, stripFrom, Region.ofQuote, last rfl, textOf]
          using passed
    | line opener body =>
      obtain ⟨rfl, opens, inside, stop, rest⟩ := h
      rw [← ih rest]
      have passed := stripFrom_line (d := d) inside stop
      rcases mem_lineOpeners.1 opens with rfl | ⟨rfl, hash⟩
      · simpa [Portion.text, Portion.trace, stripFrom, Region.ofQuote] using passed
      · simpa [Portion.text, Portion.trace, stripFrom, Region.ofQuote, hash, Text.isQuote,
          Text.singleQuote, Text.doubleQuote, Text.backtick] using passed

/-! ### Every text has one reading -/

theorem textOf_ne_nil (h : IsReading d quote (p :: ps)) : textOf (p :: ps) ≠ [] := by
  cases p with
  | kept c => exact List.cons_ne_nil _ _
  | block body closed => exact List.cons_ne_nil _ _
  | line opener body =>
    rcases mem_lineOpeners.1 h.2.1 with rfl | ⟨rfl, _⟩ <;> exact List.cons_ne_nil _ _

theorem startsComment_of_comment (h : IsReading d quote (p :: ps)) (comment : p.kept? = none) :
    quote = none ∧ ∃ c r, textOf (p :: ps) = c :: r ∧ d.startsComment c r.head? := by
  cases p with
  | kept c => cases comment
  | block body closed =>
    exact ⟨h.1, '/', '*' :: body ++ (if closed then ['*', '/'] else []) ++ textOf ps, rfl, by
      simp [Dialect.startsComment]⟩
  | line opener body =>
    refine ⟨h.1, ?_⟩
    rcases mem_lineOpeners.1 h.2.1 with rfl | ⟨rfl, hash⟩
    · exact ⟨'-', '-' :: body ++ textOf ps, rfl, by simp [Dialect.startsComment]⟩
    · exact ⟨'#', body ++ textOf ps, rfl, by simp [Dialect.startsComment, hash]⟩

theorem exists_body (cs : List Char) :
    ¬ ['*', '/'] <:+: cs ∨ ∃ body r, cs = body ++ '*' :: '/' :: r ∧ ¬ ['*', '/'] <:+: body := by
  induction cs with
  | nil => exact .inl (by simp)
  | cons c r ih =>
    by_cases ends : ['*', '/'] <+: c :: r
    · obtain ⟨rest, eq⟩ := ends
      exact .inr ⟨[], rest, eq.symm, by simp⟩
    · rcases ih with free | ⟨body, rest, rfl, free⟩
      · exact .inl fun found => (List.infix_cons_iff.1 found).elim ends free
      · refine .inr ⟨c :: body, rest, rfl, fun found => ?_⟩
        rcases List.infix_cons_iff.1 found with early | later
        · exact ends (early.trans (List.prefix_append (c :: body) ('*' :: '/' :: rest)))
        · exact free later

theorem startsComment_iff : d.startsComment c r.head? ↔
    (∃ t, c :: r = '/' :: '*' :: t) ∨ ∃ opener ∈ d.lineOpeners, ∃ t, c :: r = opener ++ t := by
  unfold Dialect.startsComment
  simp only [Bool.or_eq_true, Bool.and_eq_true, beq_iff_eq, mem_lineOpeners]
  cases r with
  | nil => simp [and_comm]
  | cons x r => simp [or_assoc, and_comm (a := c = '#')]

theorem exists_comment (starts : d.startsComment c r.head?) :
    ∃ p rest, p.text ++ rest = c :: r ∧ rest.length < (c :: r).length ∧
      ∀ ps, IsReading d none ps → textOf ps = rest → IsReading d none (p :: ps) := by
  rcases startsComment_iff.1 starts with ⟨t, eq⟩ | ⟨opener, opens, t, eq⟩
  · rw [eq]
    rcases exists_body t with free | ⟨body, rest, rfl, free⟩
    · refine ⟨.block t false, [], by simp [Portion.text], by simp, fun ps read text => ?_⟩
      cases ps with
      | nil => exact ⟨rfl, free, fun _ => rfl, trivial⟩
      | cons p ps => exact absurd text (textOf_ne_nil read)
    · exact ⟨.block body true, rest, by simp [Portion.text], by simp; omega,
        fun ps read _ => ⟨rfl, free, nofun, read⟩⟩
  · refine ⟨.line opener (t.takeWhile (· != '\n')), t.dropWhile (· != '\n'), ?_, ?_,
      fun ps read text => ⟨rfl, opens, fun inside => ?_, fun x first => ?_, read⟩⟩
    · rw [Portion.text, List.append_assoc, List.takeWhile_append_dropWhile, eq]
    · have positive : 0 < opener.length := by
        rcases mem_lineOpeners.1 opens with rfl | ⟨rfl, _⟩ <;> decide
      have less := (List.dropWhile_suffix (l := t) (· != '\n')).length_le
      rw [eq, List.length_append]
      omega
    · simpa using List.mem_takeWhile_imp inside
    · have stop := List.head?_dropWhile_not (· != '\n') t
      rw [← text, Option.mem_def.1 first] at stop
      simpa using stop

theorem exists_isReading (d : Dialect) (quote : Option Char) (cs : List Char) :
    ∃ ps, IsReading d quote ps ∧ textOf ps = cs := by
  induction h : cs.length using Nat.strong_induction_on generalizing quote cs with
  | _ n ih =>
    subst h
    cases cs with
    | nil => exact ⟨[], trivial, rfl⟩
    | cons c r =>
      by_cases comment : quote = none ∧ d.startsComment c r.head?
      · obtain ⟨rfl, starts⟩ := comment
        obtain ⟨p, rest, eq, shorter, extends_reading⟩ := exists_comment starts
        obtain ⟨ps, read, text⟩ := ih rest.length shorter none rest rfl
        exact ⟨p :: ps, extends_reading ps read text, by rw [textOf_cons, text, eq]⟩
      · obtain ⟨ps, rest, rfl⟩ := ih r.length (Nat.lt_succ_self _) (quoteAfter quote c) r rfl
        refine ⟨.kept c :: ps, ⟨fun outside => ?_, rest⟩, rfl⟩
        exact Bool.eq_false_iff.2 fun starts => comment ⟨outside, starts⟩

theorem body_unique {body' r' : List Char} (free : ¬ ['*', '/'] <:+: body)
    (free' : ¬ ['*', '/'] <:+: body') (h : body ++ '*' :: '/' :: r = body' ++ '*' :: '/' :: r') :
    body = body' ∧ r = r' := by
  have starts {cs t t' : List Char} (free : ¬ ['*', '/'] <:+: cs)
      (h : '*' :: '/' :: t = cs ++ '*' :: '/' :: t') : cs = [] := by
    match cs with
    | [] => rfl
    | [c] => simp at h
    | c :: x :: cs =>
      simp only [List.cons_append, List.cons.injEq] at h
      obtain ⟨rfl, rfl, -⟩ := h
      exact absurd (List.prefix_append ['*', '/'] cs).isInfix free
  induction body generalizing body' with
  | nil =>
    obtain rfl := starts free' h
    simpa using h
  | cons c body ih =>
    cases body' with
    | nil => exact absurd (starts free h.symm) (List.cons_ne_nil c body)
    | cons x body' =>
      simp only [List.cons_append, List.cons.injEq] at h
      have longer {cs : List Char} (y : Char) : cs <:+: y :: cs := (List.suffix_cons y cs).isInfix
      obtain ⟨rfl, rfl⟩ := ih (free ∘ (·.trans (longer c))) (free' ∘ (·.trans (longer x))) h.2
      exact ⟨by rw [h.1], rfl⟩

theorem line_unique {body' r' : List Char} (inside : '\n' ∉ body) (inside' : '\n' ∉ body')
    (stop : ∀ c ∈ r.head?, c = '\n') (stop' : ∀ c ∈ r'.head?, c = '\n')
    (h : body ++ r = body' ++ r') : body = body' ∧ r = r' := by
  have before {cs t : List Char} (inside : '\n' ∉ cs) (stop : ∀ c ∈ t.head?, c = '\n') :
      (cs ++ t).takeWhile (· != '\n') = cs := by
    have all : ∀ c ∈ cs, (c != '\n') = true := fun c mem =>
      bne_iff_ne.2 fun eq => inside (eq ▸ mem)
    rw [List.takeWhile_append_of_pos all]
    cases t with
    | nil => simp
    | cons c t => simp [stop c rfl]
  have bodies : body = body' := by rw [← before inside stop, h, before inside' stop']
  exact ⟨bodies, List.append_cancel_left (bodies ▸ h)⟩

theorem kept_unique (h : IsReading d quote (.kept c :: ps)) (other : IsReading d quote (p :: qs))
    (text : textOf (.kept c :: ps) = textOf (p :: qs)) : p = .kept c := by
  have comment (none_kept : p.kept? = none) : False := by
    obtain ⟨rfl, x, r, begins, starts⟩ := startsComment_of_comment other none_kept
    rw [← text] at begins
    cases begins
    exact absurd starts (Bool.eq_false_iff.1 (h.1 rfl))
  cases p with
  | kept x =>
    obtain ⟨rfl, -⟩ := List.cons_eq_cons.1 text
    rfl
  | block | line => exact (comment rfl).elim

theorem block_unique {closed' : Bool} {body' : List Char}
    (h : IsReading d quote (.block body closed :: ps))
    (h' : IsReading d quote (.block body' closed' :: qs))
    (text : textOf (.block body closed :: ps) = textOf (.block body' closed' :: qs)) :
    Portion.block body closed = .block body' closed' := by
  obtain ⟨-, free, last, -⟩ := h
  obtain ⟨-, free', last', -⟩ := h'
  have ends_inside (body r : List Char) : ['*', '/'] <:+: body ++ '*' :: '/' :: r :=
    ⟨body, r, by simp⟩
  match closed, closed' with
  | true, true =>
    have bodies := body_unique free free' (by simpa [Portion.text] using text)
    rw [bodies.1]
  | true, false =>
    have longer : body ++ '*' :: '/' :: textOf ps = body' := by
      simpa [Portion.text, last' rfl, textOf] using text
    exact absurd (ends_inside body (textOf ps)) (longer ▸ free')
  | false, true =>
    have longer : body = body' ++ '*' :: '/' :: textOf qs := by
      simpa [Portion.text, last rfl, textOf] using text
    exact absurd (ends_inside body' (textOf qs)) (longer ▸ free)
  | false, false =>
    have bodies : body = body' := by simpa [Portion.text, last rfl, last' rfl, textOf] using text
    rw [bodies]

theorem head_unique {q : Portion} (h : IsReading d quote (p :: ps))
    (h' : IsReading d quote (q :: qs)) (text : textOf (p :: ps) = textOf (q :: qs)) : p = q := by
  cases p with
  | kept c => exact (kept_unique h h' text).symm
  | block body closed =>
    cases q with
    | kept c => exact kept_unique h' h text.symm
    | block body' closed' => exact block_unique h h' text
    | line opener body' =>
      rcases mem_lineOpeners.1 h'.2.1 with rfl | ⟨rfl, _⟩ <;> simp [Portion.text] at text
  | line opener body =>
    cases q with
    | kept c => exact kept_unique h' h text.symm
    | block body' closed' =>
      rcases mem_lineOpeners.1 h.2.1 with rfl | ⟨rfl, _⟩ <;> simp [Portion.text] at text
    | line opener' body' =>
      obtain ⟨-, opens, inside, stop, -⟩ := h
      obtain ⟨-, opens', inside', stop', -⟩ := h'
      have openers : opener = opener' := by
        rcases mem_lineOpeners.1 opens with rfl | ⟨rfl, _⟩ <;>
          rcases mem_lineOpeners.1 opens' with rfl | ⟨rfl, _⟩ <;> simp_all [Portion.text]
      subst openers
      have bodies := line_unique inside inside' stop stop' (by simpa [Portion.text] using text)
      rw [bodies.1]

theorem isReading_unique (h : IsReading d quote ps) (h' : IsReading d quote qs)
    (text : textOf ps = textOf qs) : ps = qs := by
  induction ps generalizing quote qs with
  | nil =>
    cases qs with
    | nil => rfl
    | cons q qs => exact absurd text.symm (textOf_ne_nil h')
  | cons p ps ih =>
    cases qs with
    | nil => exact absurd text (textOf_ne_nil h)
    | cons q qs =>
      obtain rfl := head_unique h h' text
      rw [textOf_cons, textOf_cons, List.append_cancel_left_eq] at text
      cases p with
      | kept c => rw [ih h.2 h'.2 text]
      | block body closed => rw [ih h.2.2.2 h'.2.2.2 text]
      | line opener body => rw [ih h.2.2.2.2 h'.2.2.2.2 text]

/-! ### What is left -/

/-- What is left begins as the text does, unless a comment or a line break stands there. -/
theorem head_traceOf (h : IsReading d quote ps) :
    (traceOf ps).head? = (textOf ps).head? ∨ ∀ c ∈ (traceOf ps).head?, c = ' ' ∨ c = '\n' := by
  cases ps with
  | nil => exact .inl rfl
  | cons p ps =>
    cases p with
    | kept c => exact .inl rfl
    | block body closed => exact .inr (by simp [Portion.trace])
    | line opener body =>
      obtain ⟨-, -, -, stop, rest⟩ := h
      cases ps with
      | nil => exact .inr (by simp [traceOf, Portion.trace])
      | cons p ps =>
        cases p with
        | kept c => exact .inr fun x first => .inr (stop x first)
        | block body closed => exact absurd (stop '/' rfl) (by decide)
        | line opener body =>
          rcases mem_lineOpeners.1 rest.2.1 with rfl | ⟨rfl, _⟩
          · exact absurd (stop '-' rfl) (by decide)
          · exact absurd (stop '#' rfl) (by decide)

theorem startsComment_of_blank {next next' : Option Char} (h : d.startsComment c next = false)
    (blank : ∀ x ∈ next', x = ' ' ∨ x = '\n') : d.startsComment c next' = false := by
  simp only [Dialect.startsComment, Bool.or_eq_false_iff] at h ⊢
  have other (mark : Char) (is_mark : mark ≠ ' ' ∧ mark ≠ '\n') : (next' == some mark) = false := by
    refine beq_eq_false_iff_ne.2 fun eq => ?_
    rcases blank mark eq with rfl | rfl
    · exact is_mark.1 rfl
    · exact is_mark.2 rfl
  simp [other '*' (by decide), other '-' (by decide), h.2]

theorem commentFree_traceOf (h : IsReading d quote ps) : commentFree d quote (traceOf ps) := by
  induction ps generalizing quote with
  | nil => rfl
  | cons p ps ih =>
    cases p with
    | kept c =>
      obtain ⟨plain, rest⟩ := h
      have opens_none : quote = none → d.startsComment c (traceOf ps).head? = false := by
        rintro rfl
        have none_in_text := plain rfl
        rcases head_traceOf rest with same | blank
        · rwa [same]
        · exact startsComment_of_blank none_in_text blank
      rw [traceOf_cons, Portion.trace, List.singleton_append, commentFree, ih rest, Bool.and_true,
        Bool.or_eq_true, Bool.not_eq_true']
      cases quote with
      | some mark => exact .inl rfl
      | none => exact .inr (opens_none rfl)
    | block body closed =>
      obtain ⟨rfl, -, -, rest⟩ := h
      simpa [Portion.trace, commentFree, quoteAfter, Dialect.startsComment, Text.isQuote,
        Text.singleQuote, Text.doubleQuote, Text.backtick] using ih rest
    | line opener body =>
      obtain ⟨rfl, -, -, -, rest⟩ := h
      exact ih rest

theorem kept_sublist_traceOf : (ps.filterMap Portion.kept?).Sublist (traceOf ps) := by
  induction ps with
  | nil => exact .slnil
  | cons p ps ih =>
    cases p with
    | kept c => exact ih.cons_cons c
    | block body closed => exact ih.cons ' '
    | line opener body => exact ih

/-- A text consists in one way of comments and of characters outside them. Those characters are
left, in their order, each block comment leaving one space. No comment opens in what is left, so
that it stays as it is, and a text stays as it is exactly if no comment opens in it. -/
theorem stripComments_reading (d : Dialect) (cs : List Char) :
    (∃ ps, (∀ qs, IsReading d none qs ∧ textOf qs = cs ↔ qs = ps) ∧
      stripComments d cs = traceOf ps ∧ (ps.filterMap Portion.kept?).Sublist (stripComments d cs)) ∧
    commentFree d none (stripComments d cs) ∧
    stripComments d (stripComments d cs) = stripComments d cs ∧
    (stripComments d cs = cs ↔ commentFree d none cs) := by
  obtain ⟨ps, read, rfl⟩ := exists_isReading d none cs
  have left : stripComments d (textOf ps) = traceOf ps := stripFrom_textOf read
  have free : commentFree d none (traceOf ps) := commentFree_traceOf read
  have same {cs : List Char} (free : commentFree d none cs) : stripComments d cs = cs :=
    stripFrom_of_commentFree free
  rw [left]
  refine ⟨⟨ps, fun qs => ⟨fun ⟨other, text⟩ => isReading_unique other read text, ?_⟩, rfl,
    kept_sublist_traceOf⟩, free, same free, fun unchanged => unchanged ▸ free, fun absent => ?_⟩
  · rintro rfl
    exact ⟨read, rfl⟩
  · rw [← left, same absent]

/-- The star that opens a comment does not close it, and a mark inside of it opens no quotation. -/
example : stripComments .mariadb "a/*/ -- '*/b '--' # c".toList = "a b '--' ".toList := by
  decide

end ScopedQuery.Sql
