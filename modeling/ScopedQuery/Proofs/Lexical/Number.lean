import ScopedQuery.Proofs.Lexical.Piece
import ScopedQuery.Sql.Render

set_option autoImplicit false

namespace ScopedQuery.Sql

def isNumeralChar (c : Char) : Bool := Text.isWordChar c || c == '.'

theorem isNumeralChar_of_isDigit {c : Char} (h : c.isDigit) : isNumeralChar c := by
  simp [isNumeralChar, Text.isWordChar, Char.isAlphanum, h]

theorem isCodeChar_of_isNumeralChar {c : Char} (h : isNumeralChar c) : isCodeChar c := by
  rw [isNumeralChar, Bool.or_eq_true, beq_iff_eq] at h
  rcases h with word | rfl
  · rw [isCodeChar, word, Bool.true_or]
  · rfl

theorem numeral_ne {c : Char} (h : isNumeralChar c) : c ≠ '-' ∧ c ≠ '*' ∧ c ≠ '/' := by
  refine ⟨?_, ?_, ?_⟩ <;>
    · rintro rfl
      exact absurd h (by decide)

theorem isChain_numeral {cs : List Char} (h : ∀ c ∈ cs, isNumeralChar c) (l : Option Char)
    (hl : ∀ c ∈ cs.head?, opensComment l (some c) = false) :
    (l :: cs.map some).IsChain fun a b => opensComment a b = false := by
  induction cs generalizing l with
  | nil => exact .singleton _
  | cons c cs ih =>
    refine .cons_cons (hl c rfl) (ih (fun x hx => h x (List.mem_cons_of_mem _ hx)) _ ?_)
    intro x hx
    have numeral := h x (List.mem_cons_of_mem _ (List.mem_of_mem_head? hx))
    simp [opensComment, numeral_ne numeral]

variable {d : Dialect}

theorem run_numeral {r : Reader} {cs : List Char}
    (outside : r.standing = .code ∨ ∃ q, d.opensQuotation q ∧ r.standing = .closed q)
    (ne : cs ≠ []) (h : ∀ c ∈ cs, isNumeralChar c) :
    ∃ s, r.run d cs = some s ∧ s.Resting d := by
  refine ⟨_, Reader.run_code outside ne (fun c hc => isCodeChar_of_isNumeralChar (h c hc))
    (isChain_numeral h _ ?_), .inl rfl, ?_⟩
  · intro c hc
    simp [opensComment, numeral_ne (h c (List.mem_of_mem_head? hc))]
  · have last := h _ (List.getLast_mem ne)
    rw [List.getLast?_eq_some_getLast ne]
    simp [Reader.Settled, numeral_ne last]

theorem tail_numeral {cs : List Char} (ne : cs ≠ []) (h : ∀ c ∈ cs, isNumeralChar c) :
    Tail d cs := fun _ hr => run_numeral hr.1 ne h

theorem piece_signed (negative : Bool) {cs : List Char} (ne : cs ≠ [])
    (h : ∀ c ∈ cs, isNumeralChar c) : Piece d (Decimal.signText negative ++ cs) := by
  cases negative with
  | false => exact (tail_numeral ne h).piece
  | true =>
    intro r hr
    have sign : r.step d '-' = some ⟨.code, some '-'⟩ :=
      Reader.step_code (.inl hr.1) rfl (hr.2.opensComment _)
    obtain ⟨s, run, rests⟩ := run_numeral (r := ⟨.code, some '-'⟩) (d := d) (.inl rfl) ne h
    refine ⟨s, ?_, rests⟩
    rw [show Decimal.signText true ++ cs = '-' :: cs from rfl, Reader.run_cons, sign]
    exact run

theorem isDigit_digits (n : Nat) : ∀ c ∈ Decimal.digits n, c.isDigit := by
  intro c hc
  exact Nat.isDigit_of_mem_toDigits (by decide) (by decide) hc

theorem isNumeralChar_digits (n : Nat) : ∀ c ∈ Decimal.digits n, isNumeralChar c :=
  fun c hc => isNumeralChar_of_isDigit (isDigit_digits n c hc)

theorem digits_ne_nil (n : Nat) : Decimal.digits n ≠ [] := Nat.toDigits_ne_nil

theorem toList_ofInt (n : Int) :
    (Decimal.ofInt n).toList =
      Decimal.signText (decide (n < 0)) ++ Decimal.digits n.natAbs := by
  cases n with
  | ofNat n =>
    have small : ¬ (Int.ofNat n < 0) := by simp
    simp [Decimal.ofInt, Decimal.ofNat, Decimal.signText]
  | negSucc n => simp [Decimal.ofInt, Decimal.ofNat, Decimal.signText, Int.negSucc_lt_zero]

theorem piece_ofNat (n : Nat) : Piece d (Decimal.ofNat n).toList := by
  rw [Decimal.ofNat, String.toList_ofList]
  exact (tail_numeral (digits_ne_nil n) (isNumeralChar_digits n)).piece

theorem piece_ofInt (n : Int) : Piece d (Decimal.ofInt n).toList := by
  rw [toList_ofInt]
  exact piece_signed _ (digits_ne_nil _) (isNumeralChar_digits _)

theorem isDigit_shortest (tie : Decimal.Tie) (mantissa : Nat) (exponent : Int) (narrow : Bool) :
    ∀ c ∈ (Decimal.shortest tie mantissa exponent narrow).digits, c.isDigit := by
  intro c hc
  unfold Decimal.shortest at hc
  dsimp only at hc
  split at hc
  · next n e _ =>
    have kept : c ∈ Decimal.digits n := by
      simpa using List.dropWhile_subset _ (List.mem_reverse.1 hc)
    exact isDigit_digits n c kept
  · rw [List.mem_singleton.1 hc]
    rfl

theorem positionalText_ne_nil (x : Decimal.Digits) : Decimal.positionalText false x ≠ [] := by
  simp only [Decimal.positionalText, Bool.false_eq_true, ↓reduceIte]
  split_ifs with small whole
  · exact List.cons_ne_nil _ _
  · intro empty
    have length := congrArg List.length empty
    simp only [List.length_append, List.length_replicate, List.length_nil] at length
    omega
  · simp

theorem head_positionalText {x : Decimal.Digits} (h : ∀ c ∈ x.digits, c.isDigit) :
    ∃ c ∈ (Decimal.positionalText false x).head?, c.isDigit := by
  have first : ∀ cs : List Char, cs ≠ [] → (∀ c ∈ cs, c.isDigit) → ∃ c ∈ cs.head?, c.isDigit := by
    intro cs ne all
    obtain ⟨c, r, rfl⟩ := List.exists_cons_of_ne_nil ne
    exact ⟨c, rfl, all c List.mem_cons_self⟩
  have ne := positionalText_ne_nil x
  simp only [Decimal.positionalText, Bool.false_eq_true, ↓reduceIte] at ne ⊢
  split_ifs at ne ⊢ with small whole
  · exact ⟨'0', rfl, rfl⟩
  · rw [List.append_nil] at ne ⊢
    refine first _ ne (List.forall_mem_append.2 ⟨h, fun c mem => ?_⟩)
    rw [(List.mem_replicate.1 mem).2]
    rfl
  · have front : x.digits.take x.point.toNat ≠ [] := by
      rw [Ne, List.take_eq_nil_iff, ← List.length_eq_zero_iff]
      omega
    obtain ⟨c, head, digit⟩ := first _ front fun c mem => h c (List.mem_of_mem_take mem)
    refine ⟨c, ?_, digit⟩
    rw [List.head?_append, Option.mem_def.1 head, Option.some_or, Option.mem_some_iff]

theorem isNumeralChar_positionalText {x : Decimal.Digits} (h : ∀ c ∈ x.digits, isNumeralChar c) :
    ∀ c ∈ Decimal.positionalText false x, isNumeralChar c := by
  intro c hc
  simp only [Decimal.positionalText, Bool.false_eq_true, ↓reduceIte] at hc
  split_ifs at hc
  · rcases List.mem_cons.1 hc with rfl | hc
    · rfl
    rcases List.mem_cons.1 hc with rfl | hc
    · rfl
    rcases List.mem_append.1 hc with hc | hc
    · rw [(List.mem_replicate.1 hc).2]
      rfl
    · exact h c hc
  · simp only [List.append_nil] at hc
    rcases List.mem_append.1 hc with hc | hc
    · exact h c hc
    · rw [(List.mem_replicate.1 hc).2]
      rfl
  · rcases List.mem_append.1 hc with hc | hc
    · exact h c (List.mem_of_mem_take hc)
    rcases List.mem_cons.1 hc with rfl | hc
    · rfl
    · exact h c (List.mem_of_mem_drop hc)

theorem text_floatStyle (p : Decimal.Parts) :
    ∃ negative cs, p.text floatStyle = Decimal.signText negative ++ cs ∧ cs ≠ [] ∧
      (∀ c ∈ cs, isNumeralChar c) ∧
      (negative = true → p = .infinite true ∨ ∃ m e narrow, p = .finite true m e narrow) := by
  cases p with
  | nan => exact ⟨false, ['N', 'a', 'N'], rfl, by simp, List.all_eq_true.1 (by decide), by simp⟩
  | infinite negative =>
    refine ⟨negative, ['i', 'n', 'f'], rfl, by simp, List.all_eq_true.1 (by decide), ?_⟩
    rintro rfl
    exact .inl rfl
  | finite negative m e narrow =>
    refine ⟨negative, _, rfl, positionalText_ne_nil _, isNumeralChar_positionalText ?_, ?_⟩
    · split
      · exact List.all_eq_true.1 (by decide)
      · exact fun c hc => isNumeralChar_of_isDigit (isDigit_shortest _ _ _ _ c hc)
    · rintro rfl
      exact .inr ⟨m, e, narrow, rfl⟩

theorem piece_ofFloat (x : Float) : Piece d (Decimal.ofFloat floatStyle x).toList := by
  obtain ⟨negative, cs, eq, ne, numeral, _⟩ :=
    text_floatStyle (Decimal.Parts.ofBits x.toBits.toNat)
  rw [Decimal.ofFloat, String.toList_ofList, eq]
  exact piece_signed negative ne numeral

theorem piece_literal (v : Literal) : Piece d (v.sql d).toList := by
  cases v with
  | null =>
    change Piece d "NULL".toList
    exact piece_joint (by decide)
  | bool b =>
    have words : isJoint "true".toList ∧ isJoint "false".toList := by decide
    cases b
    · exact piece_joint words.2
    · exact piece_joint words.1
  | int n => exact piece_ofInt _
  | float x => exact piece_ofFloat x
  | text s => exact piece_quoteString d s

end ScopedQuery.Sql
