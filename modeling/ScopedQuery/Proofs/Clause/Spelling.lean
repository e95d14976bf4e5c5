import Mathlib.Data.List.Basic
import ScopedQuery.Clause.Column

set_option autoImplicit false

namespace ScopedQuery.Clause

def IsWord (cs : List Char) : Prop := cs ≠ [] ∧ ∀ c ∈ cs, Text.isWordChar c

instance decidableIsWord (cs : List Char) : Decidable (IsWord cs) :=
  decidable_of_iff ((!cs.isEmpty && cs.all Text.isWordChar) = true) <| by
    rw [Bool.and_eq_true, Bool.not_eq_true', List.isEmpty_eq_false_iff, List.all_eq_true]
    rfl

/-- The texts that spell a name: the bare word, or the name between two equal marks. -/
inductive Spells (inside : Char → Bool) (name : List Char) : List Char → Prop
  | bare (ne : name ≠ []) (word : ∀ c ∈ name, Text.isWordChar c) : Spells inside name name
  | quoted {mark : Char} (quote : isNameQuote mark) (ne : name ≠ [])
    (within : ∀ c ∈ name, inside c) : Spells inside name (mark :: (name ++ [mark]))

namespace ColumnText

inductive SpelledBy : ColumnText → List Char → Prop
  | bare {name text : List Char} (column : Spells Text.isWordChar name text) :
    SpelledBy ⟨none, String.ofList name⟩ text
  | qualified {owner name front back : List Char} (table : Spells isEntityChar owner front)
    (column : Spells Text.isWordChar name back) :
    SpelledBy ⟨some (String.ofList owner), String.ofList name⟩ (front ++ '.' :: back)

end ColumnText

section Characters

variable {c : Char}

theorem isNameQuote_iff : isNameQuote c ↔ c = '\x60' ∨ c = '\x22' := by
  unfold isNameQuote
  rw [Bool.or_eq_true, beq_iff_eq, beq_iff_eq]
  rfl

theorem not_isNameQuote_of_isWordChar (h : Text.isWordChar c) : isNameQuote c = false := by
  rw [Bool.eq_false_iff]
  intro quote
  rcases isNameQuote_iff.1 quote with rfl | rfl <;> exact absurd h (by decide)

theorem isEntityChar_of_isWordChar (h : Text.isWordChar c) : isEntityChar c := by
  unfold isEntityChar
  rw [h, Bool.true_or, Bool.true_or]

theorem not_isEntityChar_of_isNameQuote (h : isNameQuote c) : isEntityChar c = false := by
  rcases isNameQuote_iff.1 h with rfl | rfl <;> decide

theorem not_isWordChar_of_isNameQuote (h : isNameQuote c) : Text.isWordChar c = false := by
  rcases isNameQuote_iff.1 h with rfl | rfl <;> decide

end Characters

section Names

variable {inside : Char → Bool} {name text cs rest : List Char}

theorem takeWhile_append {p : Char → Bool} (all : ∀ c ∈ name, p c)
    (stop : ∀ c ∈ rest.head?, p c = false) : (name ++ rest).takeWhile p = name := by
  rw [List.takeWhile_append_of_pos all]
  cases rest with
  | nil => simp
  | cons c r => simp [stop c rfl]

theorem dropWhile_append {p : Char → Bool} (all : ∀ c ∈ name, p c)
    (stop : ∀ c ∈ rest.head?, p c = false) : (name ++ rest).dropWhile p = rest := by
  rw [List.dropWhile_append_of_pos all]
  cases rest with
  | nil => rfl
  | cons c r => simp [stop c rfl]

theorem spells_of_readName (h : readName inside cs = some (name, rest)) :
    ∃ text, Spells inside name text ∧ cs = text ++ rest := by
  unfold readName at h
  split at h
  · cases h
  next c r =>
  split at h
  · next quote =>
    have whole := List.takeWhile_append_dropWhile (p := inside) (l := r)
    split at h
    · cases h
    · cases h
    next q behind eq ne =>
    split at h
    · next same =>
      cases h
      obtain rfl : q = c := by simpa using same
      rw [eq] at whole
      refine ⟨_, .quoted quote (fun none => ne none) ?_, ?_⟩
      · exact fun x mem => List.all_eq_true.1 List.all_takeWhile x mem
      · conv_lhs => rw [← whole]
        simp
    · cases h
  · split at h
    · cases h
    · next ne =>
      cases h
      refine ⟨_, .bare (fun none => ne none) ?_, (List.takeWhile_append_dropWhile ..).symm⟩
      exact fun x mem => List.all_eq_true.1 List.all_takeWhile x mem

theorem readName_append (quotes : ∀ c, isNameQuote c → inside c = false)
    (h : Spells inside name text) (stop : ∀ c ∈ rest.head?, Text.isWordChar c = false) :
    readName inside (text ++ rest) = some (name, rest) := by
  cases h with
  | bare ne word =>
    obtain ⟨c, r, rfl⟩ := List.exists_cons_of_ne_nil ne
    have plain := not_isNameQuote_of_isWordChar (word c List.mem_cons_self)
    have taken := takeWhile_append word stop
    have left := dropWhile_append word stop
    rw [List.cons_append] at taken left ⊢
    rw [readName, plain, if_neg Bool.false_ne_true, taken, left]
  | @quoted mark quote ne within =>
    have closes : ∀ c ∈ (mark :: rest).head?, inside c = false := by
      rintro _ ⟨⟩
      exact quotes mark quote
    have taken := takeWhile_append within closes
    have left := dropWhile_append within closes
    have text : mark :: (name ++ [mark]) ++ rest = mark :: (name ++ mark :: rest) := by simp
    obtain ⟨c, r, rfl⟩ := List.exists_cons_of_ne_nil ne
    rw [text, readName, if_pos quote, taken, left]
    simp

theorem Spells.ne_nil (h : Spells inside name text) : name ≠ [] := by
  cases h <;> assumption

theorem Spells.within (word : ∀ c, Text.isWordChar c → inside c) (h : Spells inside name text) :
    ∀ c ∈ name, inside c := by
  cases h with
  | bare _ bare => exact fun c mem => word c (bare c mem)
  | quoted _ _ within => exact within

theorem Spells.mono {outside : Char → Bool} (wider : ∀ c, inside c → outside c)
    (h : Spells inside name text) : Spells outside name text := by
  cases h with
  | bare ne word => exact .bare ne word
  | quoted quote ne within => exact .quoted quote ne fun c mem => wider c (within c mem)

theorem Spells.chars {p : Char → Prop} (h : Spells inside name text)
    (within : ∀ c ∈ name, p c) (quotes : ∀ c, isNameQuote c → p c) : ∀ c ∈ text, p c := by
  cases h with
  | bare _ _ => exact within
  | @quoted mark quote _ _ =>
    rw [List.forall_mem_cons, List.forall_mem_append]
    exact ⟨quotes mark quote, within, List.forall_mem_singleton.2 (quotes mark quote)⟩

end Names

namespace ColumnText

variable {w : ColumnText} {text cs rest : List Char}

theorem spelled_of_read (h : read cs = some (w, rest)) :
    ∃ text, w.SpelledBy text ∧ cs = text ++ rest := by
  unfold read at h
  split at h
  · next owner behind table =>
    obtain ⟨⟨column, after⟩, name, h⟩ := Option.map_eq_some_iff.1 h
    cases h
    obtain ⟨front, spells, rfl⟩ := spells_of_readName table
    obtain ⟨back, spells', rfl⟩ := spells_of_readName name
    exact ⟨_, .qualified spells spells', by simp⟩
  · obtain ⟨⟨column, after⟩, name, h⟩ := Option.map_eq_some_iff.1 h
    cases h
    obtain ⟨text, spells, rfl⟩ := spells_of_readName name
    exact ⟨text, .bare spells, rfl⟩

theorem read_append (h : w.SpelledBy text)
    (stop : ∀ c ∈ rest.head?, Text.isWordChar c = false ∧ c ≠ '.') :
    read (text ++ rest) = some (w, rest) := by
  have ends : ∀ c ∈ rest.head?, Text.isWordChar c = false := fun c head => (stop c head).1
  cases h with
  | bare column =>
    have wide := readName_append (fun c => not_isEntityChar_of_isNameQuote)
      (column.mono fun c => isEntityChar_of_isWordChar) ends
    have narrow := readName_append (fun c => not_isWordChar_of_isNameQuote) column ends
    unfold read
    rw [wide, narrow]
    -- What follows is no point, so the word is not taken for a table.
    cases rest with
    | nil => rfl
    | cons c r =>
      have other : c ≠ '.' := (stop c rfl).2
      split
      · next eq =>
        cases eq
        exact absurd rfl other
      · rfl
  | @qualified owner name front back table column =>
    have point : ∀ c ∈ ('.' :: (back ++ rest)).head?, Text.isWordChar c = false := by
      rintro _ ⟨⟩
      decide
    have outer := readName_append (fun c => not_isEntityChar_of_isNameQuote) table point
    have inner := readName_append (fun c => not_isWordChar_of_isNameQuote) column ends
    rw [List.append_assoc, List.cons_append]
    unfold read
    rw [outer]
    change Option.map _ (readName Text.isWordChar (back ++ rest)) = _
    rw [inner]
    rfl

theorem parse?_eq_some : parse? cs = some w ↔ w.SpelledBy cs := by
  unfold parse?
  constructor
  · intro h
    split at h
    · next found =>
      cases h
      obtain ⟨text, spelled, rfl⟩ := spelled_of_read found
      rwa [List.append_nil]
    · cases h
  · intro spelled
    have found : read (cs ++ []) = some (w, []) := read_append spelled nofun
    rw [List.append_nil] at found
    rw [found]

theorem SpelledBy.isWord_column (h : w.SpelledBy cs) : IsWord w.column.toList := by
  cases h with
  | bare column | qualified _ column =>
    rw [String.toList_ofList]
    exact ⟨column.ne_nil, column.within fun _ => id⟩

theorem SpelledBy.isEntityChar_table (h : w.SpelledBy cs) :
    ∀ table ∈ w.table, ∀ c ∈ table.toList, isEntityChar c := by
  cases h with
  | bare _ => nofun
  | qualified table _ =>
    rintro _ ⟨⟩
    rw [String.toList_ofList]
    exact table.within fun _ => isEntityChar_of_isWordChar

theorem SpelledBy.chars {p : Char → Prop} (h : w.SpelledBy text)
    (table : ∀ table ∈ w.table, ∀ c ∈ table.toList, p c) (word : ∀ c, Text.isWordChar c → p c)
    (quotes : ∀ c, isNameQuote c → p c) (point : p '.') : ∀ c ∈ text, p c := by
  cases h with
  | bare column =>
    exact column.chars (fun c mem => word c (column.within (fun _ => id) c mem)) quotes
  | @qualified owner _ _ _ front column =>
    have named : ∀ c ∈ owner, p c := by simpa using table
    rw [List.forall_mem_append, List.forall_mem_cons]
    exact ⟨front.chars named quotes, point,
      column.chars (fun c mem => word c (column.within (fun _ => id) c mem)) quotes⟩

theorem not_spelledBy_of_unclosed {mark : Char} (quote : isNameQuote mark)
    (inside : ∀ c ∈ cs, isEntityChar c) : ¬ w.SpelledBy (mark :: cs) := by
  -- A name at the head has its second mark in what follows.
  have unspelled {p : Char → Bool} {name text rest : List Char} (spells : Spells p name text)
      (eq : mark :: cs = text ++ rest) : False := by
    cases spells with
    | bare ne word =>
      obtain ⟨x, name, rfl⟩ := List.exists_cons_of_ne_nil ne
      obtain ⟨rfl, _⟩ := List.cons.inj eq
      have letter := word mark List.mem_cons_self
      rw [not_isWordChar_of_isNameQuote quote] at letter
      cases letter
    | @quoted mark' quote' _ _ =>
      obtain ⟨rfl, behind⟩ := List.cons.inj eq
      have entity := inside mark (by rw [behind]; simp)
      rw [not_isEntityChar_of_isNameQuote quote] at entity
      cases entity
  intro spelled
  generalize whole : mark :: cs = text at spelled
  cases spelled with
  | bare column => exact unspelled column (whole.trans (List.append_nil _).symm)
  | qualified table _ => exact unspelled table whole

theorem parse?_of_bare (ne : cs ≠ []) (bare : hasSpecialChar cs = false) :
    parse? cs = some ⟨none, String.ofList cs⟩ := by
  have word : ∀ c ∈ cs, Text.isWordChar c := by
    intro c mem
    have plain := List.any_eq_false.1 bare c mem
    simpa using plain
  exact parse?_eq_some.2 (.bare (.bare ne word))

end ColumnText

end ScopedQuery.Clause
