import ScopedQuery.Proofs.Lexical.Reading

set_option autoImplicit false

/-!
The pieces that SQL text is put together from: code between terms, quoted identifiers and strings.
A piece is read from a reader that is ready for a term to one that rests behind it; code in between
makes the resting reader ready again.
-/

namespace ScopedQuery.Sql

theorem opensQuotation_of_isCodeChar (d : Dialect) {c : Char} (h : isCodeChar c) :
    d.opensQuotation c = false := by
  have marks : isCodeChar Text.singleQuote = false ∧ isCodeChar d.quoteChar = false := by
    cases d <;> decide
  unfold Dialect.opensQuotation
  rw [Bool.or_eq_false_iff, beq_eq_false_iff_ne, beq_eq_false_iff_ne]
  constructor
  · rintro rfl
    exact absurd (h.symm.trans marks.1) (by decide)
  · rintro rfl
    exact absurd (h.symm.trans marks.2) (by decide)

namespace Reader

def Settled (r : Reader) : Prop := r.last ≠ some '-' ∧ r.last ≠ some '/'

def Ready (r : Reader) : Prop := r.standing = .code ∧ r.Settled

def Resting (d : Dialect) (r : Reader) : Prop :=
  (r.standing = .code ∨ ∃ q, d.opensQuotation q ∧ r.standing = .closed q) ∧ r.Settled

theorem start_ready : start.Ready := ⟨rfl, by simp [Settled, start]⟩

theorem Ready.resting {d : Dialect} {r : Reader} (h : r.Ready) : r.Resting d := ⟨.inl h.1, h.2⟩

theorem Resting.isOutside {d : Dialect} {r : Reader} (h : r.Resting d) : r.standing.isOutside := by
  rcases h.1 with eq | ⟨q, _, eq⟩ <;> rw [eq] <;> rfl

theorem Settled.opensComment {r : Reader} (h : r.Settled) (b : Option Char) :
    opensComment r.last b = false := by
  simp [Sql.opensComment, h.1, h.2]

theorem step_code {d : Dialect} {r : Reader} {c : Char}
    (outside : r.standing = .code ∨ ∃ q, d.opensQuotation q ∧ r.standing = .closed q)
    (code : isCodeChar c) (apart : opensComment r.last (some c) = false) :
    step d r c = some ⟨.code, some c⟩ := by
  have plain := opensQuotation_of_isCodeChar d code
  have stays : r.standing.step d c = .code := by
    rcases outside with eq | ⟨q, opens, eq⟩
    · simp [eq, Standing.step, plain]
    · have ne : c ≠ q := by
        rintro rfl
        rw [plain] at opens
        cases opens
      simp [eq, Standing.step, plain, ne]
  simp [step, stays, code, apart]

theorem run_code {d : Dialect} {r : Reader} {cs : List Char}
    (outside : r.standing = .code ∨ ∃ q, d.opensQuotation q ∧ r.standing = .closed q)
    (ne : cs ≠ []) (code : ∀ c ∈ cs, isCodeChar c)
    (chain : (r.last :: cs.map some).IsChain fun a b => opensComment a b = false) :
    run d r cs = some ⟨.code, cs.getLast?⟩ := by
  induction cs generalizing r with
  | nil => exact absurd rfl ne
  | cons c cs ih =>
    rw [List.map_cons, List.isChain_cons_cons] at chain
    rw [run_cons, step_code outside (code c List.mem_cons_self) chain.1, Option.bind_some]
    by_cases last : cs = []
    · subst last
      rfl
    · rw [ih (.inl rfl) last (fun x hx => code x (List.mem_cons_of_mem _ hx)) chain.2,
        List.getLast?_cons, List.getLast?_eq_some_getLast last, Option.getD_some]

end Reader

/-- Every reader of a kind reads a text and is of another kind behind it. -/
def Reads (d : Dialect) (P : Reader → Prop) (cs : List Char) (Q : Reader → Prop) : Prop :=
  ∀ r, P r → ∃ s, r.run d cs = some s ∧ Q s

def Piece (d : Dialect) (cs : List Char) : Prop := Reads d Reader.Ready cs (Reader.Resting d)

/-- A text that can follow a term, and can be followed by what can follow a term. -/
def Tail (d : Dialect) (cs : List Char) : Prop :=
  Reads d (Reader.Resting d) cs (Reader.Resting d)

variable {d : Dialect} {P Q R : Reader → Prop} {a b : List Char}

theorem Reads.append (ha : Reads d P a Q) (hb : Reads d Q b R) : Reads d P (a ++ b) R := by
  intro r hr
  obtain ⟨s, first, hs⟩ := ha r hr
  obtain ⟨t, second, ht⟩ := hb s hs
  refine ⟨t, ?_, ht⟩
  rw [Reader.run_append, first]
  exact second

theorem Reads.weaken (h : Reads d P a Q) (hQ : ∀ r, Q r → R r) : Reads d P a R := by
  intro r hr
  obtain ⟨s, run, hs⟩ := h r hr
  exact ⟨s, run, hQ s hs⟩

theorem Tail.nil : Tail d [] := fun r hr => ⟨r, rfl, hr⟩

theorem Tail.append (ha : Tail d a) (hb : Tail d b) : Tail d (a ++ b) := Reads.append ha hb

theorem Piece.append (ha : Piece d a) (hb : Tail d b) : Piece d (a ++ b) := Reads.append ha hb

theorem inert_of_piece {sql : String} (h : Piece d sql.toList) : Inert d sql := by
  obtain ⟨r, run, rests⟩ := h _ Reader.start_ready
  exact Reader.inert_of_run run rests.isOutside

def isJoint (cs : List Char) : Bool :=
  cs.all isCodeChar && (cs.zip cs.tail).all (fun (x, y) => !opensComment (some x) (some y)) &&
    match cs.getLast? with
    | some c => c != '-' && c != '/'
    | none => false

theorem isChain_of_zip_tail {cs : List Char}
    (h : (cs.zip cs.tail).all (fun (x, y) => !opensComment (some x) (some y))) :
    (cs.map some).IsChain fun x y => opensComment x y = false := by
  induction cs with
  | nil => exact .nil
  | cons c cs ih =>
    cases cs with
    | nil => exact .singleton _
    | cons e cs =>
      simp only [List.tail_cons, List.zip_cons_cons, List.all_cons, Bool.and_eq_true,
        Bool.not_eq_true'] at h
      exact .cons_cons h.1 (ih h.2)

theorem reads_joint {cs : List Char} (h : isJoint cs) :
    Reads d (Reader.Resting d) cs Reader.Ready := by
  intro r hr
  simp only [isJoint, Bool.and_eq_true] at h
  obtain ⟨⟨code, apart⟩, ends⟩ := h
  have ne : cs ≠ [] := by
    rintro rfl
    cases ends
  have chain : (r.last :: cs.map some).IsChain fun a b => opensComment a b = false :=
    (isChain_of_zip_tail apart).cons fun b _ => hr.2.opensComment b
  refine ⟨⟨.code, cs.getLast?⟩, Reader.run_code hr.1 ne (List.all_eq_true.1 code) chain, rfl, ?_⟩
  rw [List.getLast?_eq_some_getLast ne] at ends ⊢
  simpa [Reader.Settled] using ends

theorem Reads.of_resting (h : Reads d (Reader.Resting d) a Q) : Reads d Reader.Ready a Q :=
  fun r hr => h r hr.resting

theorem Tail.piece (h : Tail d a) : Piece d a := h.of_resting

theorem Piece.after_joint {cs : List Char} (h : Piece d a) (joint : isJoint cs) :
    Tail d (cs ++ a) := (reads_joint joint).append h

theorem tail_joint {cs : List Char} (joint : isJoint cs) : Tail d cs :=
  (reads_joint joint).weaken fun _ hr => hr.resting

theorem piece_joint {cs : List Char} (joint : isJoint cs) : Piece d cs := (tail_joint joint).piece

theorem step_quoted (d : Dialect) (q c : Char) (l : Option Char) :
    Reader.step d ⟨.quoted q, l⟩ c = some ⟨Standing.step d (.quoted q) c, none⟩ := by
  unfold Reader.step
  rw [if_neg]
  unfold Standing.step
  dsimp only
  split_ifs <;> simp

theorem run_flatMap_quoted {q : Char} {f : Char → List Char}
    (h : ∀ c, Reader.run d ⟨.quoted q, none⟩ (f c) = some ⟨.quoted q, none⟩) (cs : List Char) :
    Reader.run d ⟨.quoted q, none⟩ (cs.flatMap f) = some ⟨.quoted q, none⟩ := by
  induction cs with
  | nil => rfl
  | cons c cs ih => rw [List.flatMap_cons, Reader.run_append, h, Option.bind_some, ih]

theorem piece_quotation {q : Char} {body : List Char} (opens : d.opensQuotation q)
    (h : Reader.run d ⟨.quoted q, none⟩ body = some ⟨.quoted q, none⟩) :
    Piece d (q :: body ++ [q]) := by
  intro r hr
  refine ⟨⟨.closed q, none⟩, ?_, .inr ⟨q, opens, rfl⟩, by simp [Reader.Settled]⟩
  have first : Reader.step d r q = some ⟨.quoted q, none⟩ := by
    simp [Reader.step, hr.1, Standing.step, opens]
  have last : Reader.step d ⟨.quoted q, none⟩ q = some ⟨.closed q, none⟩ := by
    rw [step_quoted]
    simp [Standing.step]
  rw [List.cons_append, Reader.run_cons, first, Option.bind_some, Reader.run_append, h,
    Option.bind_some, Reader.run_cons, last, Option.bind_some, Reader.run_nil]

theorem piece_quoteIdentifier (d : Dialect) (name : String) :
    Piece d (d.quoteIdentifier name).toList := by
  have opens : d.opensQuotation d.quoteChar := by simp [Dialect.opensQuotation]
  have never : ∀ c, d.escapesInside d.quoteChar c = false := by
    intro c
    cases d <;> rfl
  rw [Dialect.quoteIdentifier, String.toList_ofList]
  refine piece_quotation opens (run_flatMap_quoted (fun c => ?_) _)
  by_cases mark : c = d.quoteChar
  · simp [mark, Standing.step, Reader.step]
  · simp [mark, step_quoted, Standing.step, never]

theorem piece_quoteString (d : Dialect) (value : String) :
    Piece d (d.quoteString value).toList := by
  have opens : d.opensQuotation Text.singleQuote := by simp [Dialect.opensQuotation]
  rw [Dialect.quoteString, String.toList_ofList]
  refine piece_quotation opens (run_flatMap_quoted (fun c => ?_) _)
  by_cases mark : c = Text.singleQuote
  · simp [mark, Standing.step, Reader.step]
  by_cases escape : d.escapesInside Text.singleQuote c
  · have twice : (c == Text.backslash && d == .mariadb) = true := by
      simp only [Dialect.escapesInside, Bool.and_eq_true] at escape ⊢
      exact ⟨escape.2, escape.1.1⟩
    simp [mark, twice, Standing.step, Reader.step, escape]
  · have once : (c == Text.backslash && d == .mariadb) = false := by
      rw [Bool.not_eq_true] at escape
      rw [← escape, Dialect.escapesInside, beq_self_eq_true, Bool.and_true, Bool.and_comm]
    simp [mark, once, step_quoted, Standing.step, escape]

end ScopedQuery.Sql
