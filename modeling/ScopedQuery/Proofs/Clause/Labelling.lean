import ScopedQuery.Memo.Sanitize
import ScopedQuery.Proofs.Clause.Spelling
import ScopedQuery.Proofs.Text.Trimming

set_option autoImplicit false

/-!
The labels of columns. A selected text is checked first, then its comments are removed, and only
then it is cut at AS, with no regard to quotations. Where the front of the cut is a column
nevertheless, the cut is the one that the check has seen, and the label is a word.
-/

namespace ScopedQuery

namespace Sql

/-- Whether a text stays as it is when comments are removed, whatever follows it. -/
def Kept (d : Dialect) (cs : List Char) : Prop :=
  ∀ rest, stripFrom d .code (cs ++ rest) = cs ++ stripFrom d .code rest

def openers : List Char :=
  [Text.singleQuote, Text.doubleQuote, Text.backtick, '/', '-', '#']

variable {d : Dialect} {a b cs : List Char}

theorem Kept.append (ha : Kept d a) (hb : Kept d b) : Kept d (a ++ b) := by
  intro rest
  rw [List.append_assoc, ha, hb, List.append_assoc]

theorem Kept.stripComments_eq (h : Kept d cs) : stripComments d cs = cs := by
  have all := h []
  rw [List.append_nil] at all
  rw [stripComments, all, stripFrom, List.append_nil]

theorem kept_of_plain (plain : ∀ c ∈ cs, c ∉ openers) : Kept d cs := by
  intro rest
  induction cs with
  | nil => rfl
  | cons c cs ih =>
    obtain ⟨first, others⟩ := List.forall_mem_cons.1 plain
    simp only [openers, List.mem_cons, List.not_mem_nil, or_false, not_or] at first
    obtain ⟨single, double, back, slash, hyphen, hash⟩ := first
    have quote : Text.isQuote c = false := by simp [Text.isQuote, single, double, back]
    rw [List.cons_append, stripFrom]
    · simp [quote, hash, ih others]
    · exact fun _ eq => absurd eq slash
    · exact fun _ eq => absurd eq hyphen

theorem kept_quotation {mark : Char} (quote : Text.isQuote mark) (closed : mark ∉ cs) :
    Kept d (mark :: (cs ++ [mark])) := by
  have inside : ∀ rest, stripFrom d (.quoted mark) (cs ++ mark :: rest) =
      cs ++ mark :: stripFrom d .code rest := by
    intro rest
    induction cs with
    | nil => simp [stripFrom]
    | cons c cs ih =>
      rw [List.mem_cons, not_or] at closed
      have other : (c == mark) = false := by simpa using Ne.symm closed.1
      rw [List.cons_append, stripFrom, other]
      exact congrArg (c :: ·) (ih closed.2)
  have marks : mark ≠ '/' ∧ mark ≠ '-' := by
    constructor <;> rintro rfl <;> exact absurd quote (by decide)
  intro rest
  rw [List.cons_append, List.append_assoc, List.singleton_append, stripFrom, if_pos quote,
    inside rest]
  · simp
  · exact fun _ eq => absurd eq marks.1
  · exact fun _ eq => absurd eq marks.2

end Sql

namespace Clause

open Sql (Kept openers)

variable {d : Sql.Dialect} {cs text rest l name : List Char} {w : ColumnText}

section Characters

variable {c : Char}

theorem not_mem_openers {p : Char → Bool} (apart : openers.any p = false) (h : p c) :
    c ∉ openers :=
  fun mem => List.any_eq_false.1 apart c mem h

theorem not_mem_openers_of_isWordChar (h : Text.isWordChar c) : c ∉ openers :=
  not_mem_openers (by decide) h

theorem not_mem_openers_of_isBlank (h : Text.isBlank c) : c ∉ openers :=
  not_mem_openers (by decide) h

theorem not_mem_openers_of_foldLetter (h : Text.foldLetter c ∈ ['a', 's']) : c ∉ openers :=
  not_mem_openers (p := fun c => ['a', 's'].contains (Text.foldLetter c)) (by decide)
    (List.contains_iff_mem.2 h)

theorem code_of_isWordChar (h : Text.isWordChar c) : c.toNat = 95 ∨ 48 ≤ c.toNat ∧ c.toNat ≤ 57 ∨
    65 ≤ c.toNat ∧ c.toNat ≤ 90 ∨ 97 ≤ c.toNat ∧ c.toNat ≤ 122 := by
  unfold Text.isWordChar Char.isAlphanum Char.isAlpha Char.isUpper Char.isLower Char.isDigit at h
  simp only [Bool.or_eq_true, Bool.and_eq_true, decide_eq_true_eq, beq_iff_eq,
    UInt32.le_iff_toNat_le, ge_iff_le] at h
  rcases h with ((upper | lower) | digit) | rfl
  · exact .inr (.inr (.inl upper))
  · exact .inr (.inr (.inr lower))
  · exact .inr (.inl digit)
  · exact .inl rfl

theorem not_isBlank_of_isWordChar (h : Text.isWordChar c) : Text.isBlank c = false := by
  have code := code_of_isWordChar h
  unfold Text.isBlank
  simp only [Bool.or_eq_false_iff, Bool.and_eq_false_iff, decide_eq_false_iff_not,
    beq_eq_false_iff_ne]
  omega

theorem toLower_of_not_isUpper (h : c.isUpper = false) : c.toLower = c := by
  unfold Char.isUpper at h
  exact dif_neg (by simpa using h)

theorem isWordChar_of_isUpper (h : c.isUpper) : Text.isWordChar c := by
  have letter : c.isAlpha = (c.isUpper || c.isLower) := rfl
  simp [Text.isWordChar, Char.isAlphanum, letter, h]

theorem not_isBlank_of_foldLetter (h : Text.foldLetter c ∈ ['a', 's']) :
    Text.isBlank c = false := by
  rw [Bool.eq_false_iff]
  intro blank
  have small : c.isUpper = false := by
    rw [Bool.eq_false_iff]
    intro upper
    rw [not_isBlank_of_isWordChar (isWordChar_of_isUpper upper)] at blank
    cases blank
  unfold Text.foldLetter at h
  split at h
  · next long =>
    rw [beq_iff_eq.1 long] at blank
    exact absurd blank (by decide)
  split at h
  · exact absurd h (by decide)
  · rw [toLower_of_not_isUpper small] at h
    rcases List.mem_pair.1 h with rfl | rfl <;> exact absurd blank (by decide)

theorem stops_of_isBlank (h : Text.isBlank c) : Text.isWordChar c = false ∧ c ≠ '.' := by
  constructor
  · rw [Bool.eq_false_iff]
    intro word
    rw [not_isBlank_of_isWordChar word] at h
    cases h
  · rintro rfl
    exact absurd h (by decide)

theorem not_isBlank_of_isNameQuote (h : isNameQuote c) : Text.isBlank c = false := by
  rcases isNameQuote_iff.1 h with rfl | rfl <;> decide

end Characters

section Spelled

variable {inside : Char → Bool}

theorem Spells.kept (quotes : ∀ c, isNameQuote c → inside c = false) (h : Spells inside name text) :
    Kept d text := by
  cases h with
  | bare _ word => exact Sql.kept_of_plain fun c mem => not_mem_openers_of_isWordChar (word c mem)
  | @quoted mark quote _ within =>
    refine Sql.kept_quotation ?_ fun mem => ?_
    · rcases isNameQuote_iff.1 quote with rfl | rfl <;> decide
    · have out := within mark mem
      rw [quotes mark quote] at out
      cases out

theorem Spells.solid (h : Spells inside name text) : Text.Solid text := by
  cases h with
  | bare ne word =>
    have first := word _ (List.head_mem ne)
    have last := word _ (List.getLast_mem ne)
    exact ⟨⟨_, List.head?_eq_some_head ne, not_isBlank_of_isWordChar first⟩,
      _, List.getLast?_eq_some_getLast ne, not_isBlank_of_isWordChar last⟩
  | @quoted mark quote _ _ =>
    have solid := not_isBlank_of_isNameQuote quote
    have last : (mark :: (name ++ [mark])).getLast? = some mark := by
      rw [← List.cons_append, List.getLast?_concat]
    exact ⟨⟨mark, rfl, solid⟩, mark, last, solid⟩

theorem ColumnText.SpelledBy.kept (h : w.SpelledBy text) : Kept d text := by
  cases h with
  | bare column => exact column.kept fun _ => not_isWordChar_of_isNameQuote
  | qualified table column =>
    have front : Kept d _ := table.kept fun _ => not_isEntityChar_of_isNameQuote
    have back : Kept d _ := column.kept fun _ => not_isWordChar_of_isNameQuote
    have point : Kept d ['.'] := Sql.kept_of_plain (List.forall_mem_singleton.2 (by decide))
    simpa using front.append (point.append back)

theorem ColumnText.SpelledBy.solid (h : w.SpelledBy text) : Text.Solid text := by
  cases h with
  | bare column => exact column.solid
  | qualified table column => exact table.solid.around column.solid ['.']

theorem unquoted_of_spells (h : Spells Text.isWordChar name text) : unquoted text = name := by
  have bare : ∀ cs : List Char, (∀ c ∈ cs, Text.isWordChar c) → ∀ rest,
      cs ≠ [] → (cs ++ rest).dropWhile isNameQuote = cs ++ rest := by
    intro cs word rest ne
    obtain ⟨c, r, rfl⟩ := List.exists_cons_of_ne_nil ne
    rw [List.cons_append, List.dropWhile_cons,
      not_isNameQuote_of_isWordChar (word c List.mem_cons_self)]
    rfl
  have ends (word : ∀ c ∈ name, Text.isWordChar c) (ne : name ≠ []) :
      (name.reverse.dropWhile isNameQuote).reverse = name := by
    have front := bare name.reverse (fun c mem => word c (List.mem_reverse.1 mem)) []
      (by simpa using ne)
    rw [List.append_nil] at front
    rw [front, List.reverse_reverse]
  unfold unquoted
  cases h with
  | bare ne word =>
    have front := bare _ word [] ne
    rw [List.append_nil] at front
    rw [front, ends word ne]
  | @quoted mark quote ne word =>
    rw [List.dropWhile_cons, if_pos quote, bare name word _ ne, List.reverse_append,
      List.reverse_singleton, List.singleton_append, List.dropWhile_cons, if_pos quote,
      ends word ne]

end Spelled

section Cut

variable {fold : Char → Char} {before expr label : List Char}

theorem afterAs?_front {blank : Char → Bool} (h : afterAs? blank fold cs = some l) :
    ∃ front, cs = front ++ l ∧ (∀ c ∈ front, blank c ∨ fold c ∈ ['a', 's']) ∧
      ∀ c ∈ cs.head?, blank c := by
  unfold afterAs? at h
  split at h
  · next c r =>
    split at h
    · next first =>
      split at h
      · next x behind after =>
        split at h
        · next gap =>
          cases h
          obtain ⟨word, eq, folded⟩ := Text.afterFolded?_append after
          refine ⟨c :: (r.takeWhile blank ++ (word ++ x :: behind.takeWhile blank)), ?_, ?_, ?_⟩
          · have tail := List.takeWhile_append_dropWhile (p := blank) (l := r)
            have back := List.takeWhile_append_dropWhile (p := blank) (l := behind)
            rw [eq] at tail
            conv_lhs => rw [← tail]
            conv_lhs => rw [← back]
            simp
          · have letters : ∀ y ∈ word, blank y ∨ fold y ∈ ['a', 's'] := by
              intro y mem
              rw [← folded]
              exact .inr (List.mem_map_of_mem mem)
            have blanks : ∀ cs : List Char, ∀ y ∈ cs.takeWhile blank,
                blank y ∨ fold y ∈ ['a', 's'] :=
              fun cs y mem => .inl (List.all_eq_true.1 List.all_takeWhile y mem)
            simp only [List.forall_mem_cons, List.forall_mem_append]
            exact ⟨.inl first, blanks r, letters, .inl gap, blanks behind⟩
          · rintro _ ⟨⟩
            exact first
        · cases h
      · cases h
    · cases h
  · cases h

theorem afterAs?_append (h : afterAs? Text.isBlank Text.foldLetter cs = some l) :
    ∃ front, cs = front ++ l ∧ (∀ c ∈ front, c ∉ openers) ∧
      ∀ c ∈ cs.head?, Text.isBlank c := by
  obtain ⟨front, whole, each, head⟩ := afterAs?_front h
  refine ⟨front, whole, fun c mem => ?_, head⟩
  exact (each c mem).elim not_mem_openers_of_isBlank not_mem_openers_of_foldLetter

theorem afterAs?_blanks {blanks : List Char} (all : ∀ c ∈ blanks, Text.isBlank c)
    (h : afterAs? Text.isBlank Text.foldLetter cs = some l) :
    afterAs? Text.isBlank Text.foldLetter (blanks ++ cs) = some l := by
  cases blanks with
  | nil => exact h
  | cons b blanks =>
    obtain ⟨_, _, _, head⟩ := afterAs?_append h
    obtain ⟨first, others⟩ := List.forall_mem_cons.1 all
    cases cs with
    | nil => simp [afterAs?] at h
    | cons c r =>
      have blank : Text.isBlank c := head c rfl
      have same : (blanks ++ c :: r).dropWhile Text.isBlank = r.dropWhile Text.isBlank := by
        rw [List.dropWhile_append_of_pos others, List.dropWhile_cons, if_pos blank]
      rw [afterAs?, if_pos blank] at h
      rw [List.cons_append, afterAs?, if_pos first, same]
      exact h

theorem cutAtAs_append (h : cutAtAs cs = (before, some l)) :
    ∃ tail, cs = before ++ tail ∧ afterAs? Text.isBlank Text.foldLetter tail = some l := by
  induction cs generalizing before with
  | nil =>
    rw [cutAtAs.eq_def] at h
    cases h
  | cons c r ih =>
    rw [cutAtAs.eq_def] at h
    dsimp only at h
    split at h
    · next found =>
      cases h
      exact ⟨c :: r, rfl, found⟩
    · cases rest : cutAtAs r with
      | mk front behind =>
        rw [rest] at h
        cases h
        obtain ⟨tail, rfl, found⟩ := ih rest
        exact ⟨tail, rfl, found⟩

/-- Where the text in front of AS is a column, the column is read at the head of the whole text, and
the label is what AS introduces behind it. -/
theorem read_of_splitLabel (first : ∀ c ∈ cs.head?, Text.isBlank c = false)
    (h : splitLabel cs = (expr, some label)) (column : ColumnText.parse? expr = some w) :
    ∃ rest l, ColumnText.read cs = some (w, rest) ∧
      afterAs? Text.isBlank Text.foldLetter rest = some l ∧ label = unquoted (Text.trim l) := by
  have spelled := ColumnText.parse?_eq_some.1 column
  unfold splitLabel at h
  cases cut : cutAtAs cs with
  | mk before behind =>
    rw [cut, Prod.mk.injEq] at h
    obtain ⟨rfl, found⟩ := h
    obtain ⟨mapped, _⟩ := Option.filter_eq_some_iff.1 found
    obtain ⟨l, rfl, rfl⟩ := Option.map_eq_some_iff.1 mapped
    obtain ⟨tail, rfl, after⟩ := cutAtAs_append cut
    have front : ∀ c ∈ before.head?, Text.isBlank c = false := by
      intro c head
      refine first c ?_
      rw [List.head?_append, Option.mem_def.1 head]
      rfl
    obtain ⟨blanks, whole, behind⟩ := Text.blanks_behind_trim front
    have introduced := afterAs?_blanks behind after
    obtain ⟨_, _, _, blank⟩ := afterAs?_append introduced
    refine ⟨blanks ++ tail, l, ?_, introduced, rfl⟩
    conv_lhs => rw [whole, List.append_assoc]
    exact ColumnText.read_append spelled fun c head => stops_of_isBlank (blank c head)

theorem spells_of_label? (h : label? rest = some name) :
    ∃ l, afterAs? Text.isBlank Text.foldLetter rest = some l ∧ Spells Text.isWordChar name l := by
  unfold label? at h
  split at h
  · next l introduced =>
    split at h
    · next read =>
      cases h
      obtain ⟨text, spells, eq⟩ := spells_of_readName read
      rw [List.append_nil] at eq
      exact ⟨l, introduced, eq ▸ spells⟩
    · cases h
  · cases h

end Cut

/-- What can follow a column at the head of a text that was checked: nothing, a label, or the
arguments of a call. -/
def Follows (rest : List Char) : Prop :=
  rest = [] ∨ (∃ name, label? rest = some name) ∨ rest.head? = some '('

theorem ColumnText.read_word (ne : name ≠ []) (word : ∀ c ∈ name, Text.isWordChar c)
    (stop : ∀ c ∈ rest.head?, Text.isWordChar c = false ∧ c ≠ '.') :
    ColumnText.read (name ++ rest) = some (⟨none, String.ofList name⟩, rest) :=
  read_append (.bare (.bare ne word)) stop

theorem IsWord.of_isDigits (h : Text.isDigits cs) : IsWord cs := by
  unfold Text.isDigits at h
  rw [Bool.and_eq_true_iff] at h
  refine ⟨by simpa using h.1, fun c mem => ?_⟩
  have digit := List.all_eq_true.1 h.2 c mem
  unfold Text.isWordChar Char.isAlphanum
  simp [digit]

theorem IsWord.sanitized (h : IsWord cs) (d : Sql.Dialect) :
    Text.trim (Sql.stripComments d cs) = cs := by
  have spelled : Spells Text.isWordChar cs cs := .bare h.1 h.2
  rw [(spelled.kept fun _ => not_isWordChar_of_isNameQuote).stripComments_eq]
  exact spelled.solid.trim_eq

/-- A labelled column is a column and nothing, or a column and what introduces a word. -/
theorem spelled_of_isLabelledColumn (h : isLabelledColumn cs) :
    ∃ w text rest, w.SpelledBy text ∧ cs = text ++ rest ∧ ColumnText.read cs = some (w, rest) ∧
      (rest = [] ∨ ∃ name l, label? rest = some name ∧
        afterAs? Text.isBlank Text.foldLetter rest = some l ∧ Spells Text.isWordChar name l) := by
  unfold isLabelledColumn at h
  split at h
  case h_2 => cases h
  next w rest read =>
  obtain ⟨text, spelled, whole⟩ := ColumnText.spelled_of_read read
  refine ⟨w, text, rest, spelled, whole, read, ?_⟩
  rcases Bool.or_eq_true_iff.1 h with none | labelled
  · exact .inl (List.isEmpty_iff.1 none)
  · obtain ⟨name, label⟩ := Option.isSome_iff_exists.1 labelled
    obtain ⟨l, introduced, spells⟩ := spells_of_label? label
    exact .inr ⟨name, l, label, introduced, spells⟩

theorem sanitized_of_isLabelledColumn (h : isLabelledColumn cs) (d : Sql.Dialect) :
    Text.trim (Sql.stripComments d cs) = cs ∧ ∃ w rest, ColumnText.read cs = some (w, rest) ∧
      Follows rest := by
  obtain ⟨w, text, rest, spelled, rfl, read, rfl | ⟨name, l, label, introduced, spells⟩⟩ :=
    spelled_of_isLabelledColumn h
  · rw [List.append_nil] at read ⊢
    rw [spelled.kept.stripComments_eq]
    exact ⟨spelled.solid.trim_eq, w, [], read, .inl rfl⟩
  · obtain ⟨front, rfl, plain, _⟩ := afterAs?_append introduced
    have kept : Kept d (text ++ (front ++ l)) := spelled.kept.append
      ((Sql.kept_of_plain plain).append (spells.kept fun _ => not_isWordChar_of_isNameQuote))
    rw [kept.stripComments_eq]
    exact ⟨(spelled.solid.around spells.solid front).trim_eq, w, _, read,
      .inr (.inl ⟨name, label⟩)⟩

theorem word_of_isCallShape (h : isCallShape cs) :
    ∃ name r, IsWord name ∧ cs = name ++ '(' :: r ∧ closesCall r := by
  unfold isCallShape at h
  split at h
  case h_2 => cases h
  next x name r eqName eqRest =>
  refine ⟨x :: name, r, ⟨List.cons_ne_nil x name, ?_⟩, ?_, h⟩
  · rw [← eqName]
    exact fun c mem => List.all_eq_true.1 List.all_takeWhile c mem
  · rw [← eqName, ← eqRest, List.takeWhile_append_dropWhile]

theorem sanitized_of_isCallShape (h : isCallShape cs) (d : Sql.Dialect) :
    ∃ w rest, ColumnText.read (Text.trim (Sql.stripComments d cs)) = some (w, rest) ∧
      Follows rest := by
  obtain ⟨name, r, ⟨ne, word⟩, text, _⟩ := word_of_isCallShape h
  obtain ⟨x, name, rfl⟩ := List.exists_cons_of_ne_nil ne
  have whole : cs = (x :: name ++ ['(']) ++ r := by
    rw [text, List.append_assoc, List.singleton_append]
  have kept : Kept d (x :: name ++ ['(']) := Sql.kept_of_plain <| by
    intro c mem
    rcases List.mem_append.1 mem with letter | mark
    · exact not_mem_openers_of_isWordChar (word c letter)
    · rw [List.mem_singleton.1 mark]
      decide
  have stripped : Sql.stripComments d cs =
      (x :: name ++ ['(']) ++ Sql.stripComments d r := by
    rw [whole]
    exact kept r
  have solid : Text.Solid (x :: name ++ ['(']) :=
    ⟨⟨x, rfl, not_isBlank_of_isWordChar (word x List.mem_cons_self)⟩,
      '(', List.getLast?_concat, by decide⟩
  obtain ⟨rest, trimmed⟩ := solid.trim_append (Sql.stripComments d r)
  rw [stripped, trimmed, List.append_assoc]
  refine ⟨_, _, ColumnText.read_word (List.cons_ne_nil x name) word ?_, .inr (.inr rfl)⟩
  rintro _ ⟨⟩
  decide

theorem follows_of_isSelectable (h : isSelectable cs) (d : Sql.Dialect)
    (read : ColumnText.read (Text.trim (Sql.stripComments d cs)) = some (w, rest)) :
    Follows rest := by
  have same {w' : ColumnText} {rest' : List Char} (follows : Follows rest')
      (again : ColumnText.read (Text.trim (Sql.stripComments d cs)) = some (w', rest')) :
      Follows rest := by
    rw [again] at read
    cases read
    exact follows
  unfold isSelectable at h
  simp only [Bool.or_eq_true] at h
  rcases h with ((star | digits) | column) | call
  · obtain rfl : cs = ['*'] := by simpa using star
    have stripped : Text.trim (Sql.stripComments d ['*']) = ['*'] := by cases d <;> rfl
    rw [stripped] at read
    cases read
  · have word := IsWord.of_isDigits digits
    have alone : ColumnText.read (cs ++ []) = some (⟨none, String.ofList cs⟩, []) :=
      ColumnText.read_word word.1 word.2 nofun
    rw [List.append_nil] at alone
    exact same (.inl rfl) ((congrArg _ (word.sanitized d)).trans alone)
  · obtain ⟨unchanged, w', rest', again, follows⟩ := sanitized_of_isLabelledColumn column d
    exact same follows ((congrArg _ unchanged).trans again)
  · obtain ⟨w', rest', again, follows⟩ := sanitized_of_isCallShape call d
    exact same follows again

theorem isWord_label {expr label : List Char} (h : isSelectable cs) (d : Sql.Dialect)
    (split : splitLabel (Text.trim (Sql.stripComments d cs)) = (expr, some label))
    (column : ColumnText.parse? expr = some w) : IsWord label := by
  have first : ∀ c ∈ (Text.trim (Sql.stripComments d cs)).head?, Text.isBlank c = false := by
    intro c head
    rw [Text.head?_trim] at head
    simpa using List.find?_some head
  obtain ⟨rest, l, read, introduced, rfl⟩ := read_of_splitLabel first split column
  obtain ⟨_, _, _, blank⟩ := afterAs?_append introduced
  rcases follows_of_isSelectable h d read with none | ⟨name, labelled⟩ | call
  · rw [none] at introduced
    simp [afterAs?] at introduced
  · obtain ⟨l', again, spells⟩ := spells_of_label? labelled
    cases introduced.symm.trans again
    rw [spells.solid.trim_eq, unquoted_of_spells spells]
    exact ⟨spells.ne_nil, spells.within fun _ => id⟩
  · exact absurd (blank '(' call) (by decide)

end Clause

end ScopedQuery
