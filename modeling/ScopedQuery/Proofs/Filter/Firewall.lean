import ScopedQuery.Proofs.Joins.Sequence
import ScopedQuery.Proofs.Selection.Referral

set_option autoImplicit false

/-!
Which texts a filter takes for fields. Words, columns of physical tables and references are taken,
and besides them references with blanks around them, or with AS behind them and any text at all
behind that. Every other text is refused, and nothing is joined for it.
-/

namespace ScopedQuery

open Sql Outcome

open Clause (ColumnText IsWord splitLabel)

namespace Clause.ColumnText

variable {w : ColumnText} {own : Table}

theorem resolve?_isSome : (w.resolve? own).isSome ↔
    ∀ t ∈ w.table, ∃ entity, t = Table.namePrefix ++ entity := by
  unfold resolve? physicalTable?
  cases w.table with
  | none => simp
  | some t => simp [Option.isSome_iff_exists, Table.afterPrefix?_eq_some]

end Clause.ColumnText

namespace Filter

open Selection (Reference Refers IsPair)

inductive IsField (c : Catalog) (owner : String) (cs : List Char) : Prop
  | word (word : IsWord cs)
  | column {w : ColumnText} (spelled : w.SpelledBy cs)
    (physical : ∀ t ∈ w.table, ∃ entity, t = Table.namePrefix ++ entity)
  | pair (pair : IsPair c owner cs)

/-- Whether a text is a reference with more around it: blanks, or AS between blanks and whatever
follows. -/
inductive IsPadded (c : Catalog) (owner : String) (cs : List Char) : Prop
  | intro {front expr tail : List Char} {label : Option (List Char)}
    (whole : cs = front ++ (expr ++ tail)) (leading : ∀ x ∈ front, Text.isBlank x)
    (trailing : (∀ x ∈ tail, Text.isBlank x) ∨
      (Clause.afterAs? Text.isBlank Text.foldLetter tail).isSome)
    (more : cs ≠ expr) (cut : splitLabel cs = (expr, label)) (refers : Refers c owner expr)

variable {c : Catalog} {owner : String} {cs : List Char}

theorem IsField.of_refers (h : Refers c owner cs) : IsField c owner cs := by
  rcases h with pair | foreign
  · exact .pair pair
  · obtain ⟨⟨entity, column⟩, found⟩ := Option.isSome_iff_exists.1 foreign
    obtain ⟨⟨table, back⟩, pair, found⟩ := Option.bind_eq_some_iff.1 found
    obtain ⟨target, behind, _⟩ := Option.bind_eq_some_iff.1 found
    refine .column (Selection.spelled_of_quotedPair? pair) ?_
    rintro _ ⟨⟩
    exact ⟨target, Table.afterPrefix?_eq_some.1 behind⟩

/-- Fields are spelled with the characters of entities, points and the marks of quoted names. -/
theorem IsField.chars (h : IsField c owner cs) :
    ∀ x ∈ cs, Clause.isEntityChar x ∨ x = '.' ∨ Clause.isNameQuote x := by
  have bare : ∀ {word : List Char}, IsWord word → ∀ x ∈ word,
      Clause.isEntityChar x ∨ x = '.' ∨ Clause.isNameQuote x :=
    fun word x mem => .inl (Clause.isEntityChar_of_isWordChar (word.2 x mem))
  have name : ∀ {inside : Char → Bool} {word text : List Char}, Clause.Spells inside word text →
      (∀ x, inside x → Clause.isEntityChar x) → ∀ x ∈ text,
        Clause.isEntityChar x ∨ x = '.' ∨ Clause.isNameQuote x := by
    intro inside word text spells within x mem
    cases spells with
    | bare ne word => exact bare ⟨ne, word⟩ x mem
    | quoted quote _ inner =>
      simp only [List.mem_cons, List.mem_append, List.not_mem_nil, or_false] at mem
      rcases mem with rfl | mem | rfl
      · exact .inr (.inr quote)
      · exact .inl (within x (inner x mem))
      · exact .inr (.inr quote)
  cases h with
  | word word => exact bare word
  | pair pair =>
    obtain ⟨f, column, _, _, _, first, second, rfl⟩ := pair
    rw [List.forall_mem_append, List.forall_mem_cons]
    exact ⟨bare first, .inr (.inl rfl), bare second⟩
  | column spelled _ =>
    cases spelled with
    | bare column => exact name column fun _ => Clause.isEntityChar_of_isWordChar
    | qualified table column =>
      rw [List.forall_mem_append, List.forall_mem_cons]
      exact ⟨name table fun _ => id, .inr (.inl rfl),
        name column fun _ => Clause.isEntityChar_of_isWordChar⟩

/-- What refers to related records when blanks and a label are taken away is a field, unless there
is more to it. -/
theorem field_or_padded {label : Option (List Char)} {expr : List Char}
    (cut : splitLabel cs = (expr, label)) (h : Refers c owner expr) :
    IsField c owner cs ∨ IsPadded c owner cs := by
  by_cases whole : cs = expr
  · rw [whole]
    exact .inl (.of_refers h)
  · obtain ⟨front, tail, eq, leading, trailing⟩ := Clause.splitLabel_append cut
    exact .inr (.intro eq leading trailing whole cut h)

section Field

variable {q q' : Query} {field : String} {entity : Option String} {column : Column}

theorem admitted_of_resolve (h : resolve c q field entity = (.ok column, q')) :
    IsField c q.table.entity field.toList ∨ IsPadded c q.table.entity field.toList := by
  rcases resolve_eq_ok.1 h with ⟨r, read, _⟩ | ⟨_, _, w, written, resolved⟩
  · exact field_or_padded rfl (.of_parse read)
  · have physical := ColumnText.resolve?_isSome.1 (Option.isSome_iff_exists.2 ⟨column, resolved⟩)
    exact .inl (.column (ColumnText.parse?_eq_some.1 written) physical)

theorem resolve_of_padded (entity : Option String) (h : IsPadded c q.table.entity field.toList) :
    ∃ column q', resolve c q field entity = (.ok column, q') := by
  obtain ⟨_, _, _, _, cut, refers⟩ := h
  obtain ⟨r, read⟩ := refers.parse cut
  exact ⟨_, _, resolve_of_reference read⟩

theorem resolve_of_fault {fault : QueryError}
    (h : Reference.parse c q.table.entity field = .error fault) :
    resolve c q field entity = (.error fault, q) := by
  have point : '.' ∈ field.toList := by
    by_contra absent
    rw [Reference.parse_of_pointless absent] at h
    cases h
  have solid : Text.isBlankText field.toList = false := List.all_eq_false.2 ⟨'.', point, by decide⟩
  have special : Clause.hasSpecialChar field.toList := List.any_eq_true.2 ⟨'.', point, by decide⟩
  unfold resolve
  simp only [solid, special, h, Bool.not_true, Bool.false_eq_true, ↓reduceIte]

theorem resolve_of_spelled {w : ColumnText} (spelled : w.SpelledBy field.toList)
    (physical : ∀ t ∈ w.table, ∃ entity, t = Table.namePrefix ++ entity) :
    (∃ column q', resolve c q field entity = (.ok column, q')) ∨
      ∃ fault, c.entity q.table.entity = .error fault ∧
        resolve c q field entity = (.error fault, q) := by
  cases read : Reference.parse c q.table.entity field with
  | error fault => exact .inr ⟨fault, Reference.parse_eq_error read, resolve_of_fault read⟩
  | ok reference =>
    cases reference with
    | some r => exact .inl ⟨_, _, resolve_of_reference read⟩
    | none =>
      have meant : (w.resolve? (homeTable q.table entity)).isSome :=
        ColumnText.resolve?_isSome.2 physical
      obtain ⟨column, resolved⟩ := Option.isSome_iff_exists.1 meant
      exact .inl ⟨column, q, resolve_of_written read (ColumnText.parse?_eq_some.2 spelled)
        resolved⟩

theorem resolve_of_field (entity : Option String) (h : IsField c q.table.entity field.toList) :
    (∃ column q', resolve c q field entity = (.ok column, q')) ∨
      ∃ fault, c.entity q.table.entity = .error fault ∧
        resolve c q field entity = (.error fault, q) := by
  cases h with
  | word word => exact resolve_of_spelled (.bare (.bare word.1 word.2)) nofun
  | column spelled physical => exact resolve_of_spelled spelled physical
  | pair pair =>
    have unbroken : splitLabel field.toList = (field.toList, none) := by
      obtain ⟨f, column, _, _, _, first, second, eq⟩ := pair
      refine Clause.splitLabel_of_unbroken (by simp [eq]) ?_
      rw [eq, List.forall_mem_append, List.forall_mem_cons]
      exact ⟨fun x mem => Clause.not_isBlank_of_isWordChar (first.2 x mem), by decide,
        fun x mem => Clause.not_isBlank_of_isWordChar (second.2 x mem)⟩
    obtain ⟨r, read⟩ := Refers.parse unbroken (.inl pair)
    exact .inl ⟨_, _, resolve_of_reference read⟩

/-- A text is resolved as the field of a filter only if it has one of the shapes of fields or is a
padded reference. Every other text is refused and the query stays as it is; so it does for a text
with the shape of a field if the queried entity is unknown, and for no other reason. -/
theorem resolve_shapes (c : Catalog) (q : Query) (field : String) (entity : Option String) :
    (∃ column q', resolve c q field entity = (.ok column, q') ∧
      (IsField c q.table.entity field.toList ∨ IsPadded c q.table.entity field.toList)) ∨
    ∃ fault, resolve c q field entity = (.error fault, q) ∧
      ¬ IsPadded c q.table.entity field.toList ∧
      (IsField c q.table.entity field.toList → c.entity q.table.entity = .error fault) := by
  cases resolved : resolve c q field entity with
  | mk answer q' =>
    cases answer with
    | ok column => exact .inl ⟨column, q', rfl, admitted_of_resolve resolved⟩
    | error fault =>
      obtain rfl := query_of_refused resolved
      refine .inr ⟨fault, rfl, fun padded => ?_, fun shaped => ?_⟩
      · obtain ⟨_, _, taken⟩ := resolve_of_padded entity padded
        rw [resolved] at taken
        cases taken
      · rcases resolve_of_field entity shaped with ⟨_, _, taken⟩ | ⟨e, unknown, same⟩
        · rw [resolved] at taken
          cases taken
        · rw [resolved] at same
          cases same
          exact unknown

end Field

/-- Behind AS anything goes, and the table of the reference is joined. -/
theorem resolve_trailing_text :
    let text := "assigned_to.email as x; DROP TABLE y"
    ∃ column q',
      resolve Usage.linkedTasks (.new .select (.ofEntity "Task") .mariadb) text none =
          (.ok column, q') ∧
        q'.joins.length = 1 ∧ ¬ IsField Usage.linkedTasks "Task" text.toList := by
  refine ⟨_, _, rfl, rfl, fun shaped => ?_⟩
  exact absurd (shaped.chars ';' (by decide)) (by decide)

end Filter

end ScopedQuery
