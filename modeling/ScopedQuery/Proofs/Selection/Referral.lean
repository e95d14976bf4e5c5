import ScopedQuery.Proofs.Clause.Labelling
import ScopedQuery.Proofs.Selection.Leads

set_option autoImplicit false

namespace ScopedQuery

open Outcome

namespace Clause

variable {cs expr before : List Char} {label : Option (List Char)}

theorem cutAtAs_eq_self (h : cutAtAs cs = (before, none)) : before = cs := by
  induction cs generalizing before with
  | nil =>
    rw [cutAtAs.eq_def] at h
    cases h
    rfl
  | cons c r ih =>
    rw [cutAtAs.eq_def] at h
    dsimp only at h
    split at h
    · cases h
    · cases rest : cutAtAs r with
      | mk front behind =>
        rw [rest] at h
        cases h
        rw [ih rest]

/-- What a text has besides its expression: blanks in front, and behind it blanks, or AS between
blanks and whatever follows. -/
theorem splitLabel_append (h : splitLabel cs = (expr, label)) : ∃ front tail,
    cs = front ++ (expr ++ tail) ∧ (∀ c ∈ front, Text.isBlank c) ∧
      ((∀ c ∈ tail, Text.isBlank c) ∨ (afterAs? Text.isBlank Text.foldLetter tail).isSome) := by
  unfold splitLabel at h
  cases cut : cutAtAs cs with
  | mk before behind =>
    rw [cut, Prod.mk.injEq] at h
    obtain ⟨rfl, _⟩ := h
    obtain ⟨front, back, whole, leading, trailing⟩ := Text.blanks_around_trim before
    cases behind with
    | none =>
      obtain rfl := cutAtAs_eq_self cut
      exact ⟨front, back, whole, leading, .inl trailing⟩
    | some l =>
      obtain ⟨tail, rfl, found⟩ := cutAtAs_append cut
      refine ⟨front, back ++ tail, ?_, leading, .inr ?_⟩
      · conv_lhs => rw [whole]
        simp
      · rw [afterAs?_blanks trailing found]
        rfl

theorem splitLabel_of_unbroken (ne : cs ≠ []) (unbroken : ∀ c ∈ cs, Text.isBlank c = false) :
    splitLabel cs = (cs, none) := by
  have uncut : ∀ cs : List Char, (∀ c ∈ cs, Text.isBlank c = false) → cutAtAs cs = (cs, none) := by
    intro cs unbroken
    induction cs with
    | nil => rfl
    | cons c r ih =>
      obtain ⟨first, others⟩ := List.forall_mem_cons.1 unbroken
      rw [cutAtAs.eq_def]
      simp [afterAs?, first, ih others]
  have solid : Text.Solid cs :=
    ⟨⟨_, List.head?_eq_some_head ne, unbroken _ (List.head_mem ne)⟩,
      _, List.getLast?_eq_some_getLast ne, unbroken _ (List.getLast_mem ne)⟩
  unfold splitLabel
  rw [uncut cs unbroken]
  exact congrArg (Prod.mk · none) solid.trim_eq

end Clause

theorem Catalog.field?_eq_error {c : Catalog} {entity fieldname : String} {fault : QueryError}
    (h : c.field? entity fieldname = .error fault) : c.entity entity = .error fault := by
  unfold field? at h
  cases declared : c.entity entity with
  | error e =>
    rw [declared] at h
    cases h
    rfl
  | ok e =>
    rw [declared] at h
    cases h

namespace Selection

open Clause (IsWord splitLabel)

variable {c : Catalog} {owner text : String} {cs expr : List Char} {front back : String}

theorem dottedPair?_eq_some : dottedPair? cs = some (front, back) ↔
    IsWord front.toList ∧ IsWord back.toList ∧ cs = front.toList ++ '.' :: back.toList := by
  constructor
  · intro h
    unfold dottedPair? at h
    split at h
    · next x word r taken left =>
      split at h
      · next second =>
        cases h
        simp only [Bool.and_eq_true, Bool.not_eq_true', List.isEmpty_eq_false_iff,
          List.all_eq_true] at second
        simp only [String.toList_ofList]
        refine ⟨⟨by simp [taken], fun c mem => ?_⟩, second, ?_⟩
        · exact List.all_eq_true.1 List.all_takeWhile c mem
        · rw [← left, List.takeWhile_append_dropWhile]
      · cases h
    · cases h
  · rintro ⟨first, second, rfl⟩
    have point : ∀ c ∈ ('.' :: back.toList).head?, Text.isWordChar c = false := by
      rintro _ ⟨⟩
      decide
    obtain ⟨x, word, eq⟩ := List.exists_cons_of_ne_nil first.1
    have rest : (!back.toList.isEmpty && back.toList.all Text.isWordChar) = true := by
      simp only [Bool.and_eq_true, Bool.not_eq_true', List.isEmpty_eq_false_iff, List.all_eq_true]
      exact second
    unfold dottedPair?
    rw [Clause.takeWhile_append first.2 point, Clause.dropWhile_append first.2 point, eq]
    refine (if_pos rest).trans ?_
    rw [← eq, String.ofList_toList, String.ofList_toList]

theorem begins_of_quotedPair? (h : quotedPair? cs = some (front, back)) :
    ∃ mark rest, Clause.isNameQuote mark ∧ cs = mark :: (front.toList ++ rest) := by
  unfold quotedPair? at h
  split at h
  · cases h
  next mark behind =>
  split at h
  · next quote =>
    split at h
    · next table x r first =>
      obtain ⟨text, spells, eq⟩ := Clause.spells_of_readName first
      have named : front = String.ofList table := by
        split at h
        · split at h
          · cases h
            rfl
          · cases h
        · cases h
      rw [named, String.toList_ofList]
      cases spells with
      | bare ne word =>
        obtain ⟨y, name, rfl⟩ := List.exists_cons_of_ne_nil ne
        obtain ⟨rfl, _⟩ := List.cons.inj eq
        -- A mark of quotations is no part of a bare name.
        have letter := word mark List.mem_cons_self
        rw [Clause.not_isWordChar_of_isNameQuote quote] at letter
        cases letter
      | quoted =>
        rw [List.cons_append, List.append_assoc] at eq
        obtain ⟨rfl, behind⟩ := List.cons.inj eq
        exact ⟨mark, _, quote, congrArg _ behind⟩
    · cases h
  · cases h

theorem namesTable_of_foreignColumn? {found : String × String}
    (h : foreignColumn? owner cs = some found) : namesTable cs := by
  unfold foreignColumn? at h
  obtain ⟨⟨table, column⟩, pair, h⟩ := Option.bind_eq_some_iff.1 h
  obtain ⟨entity, behind, _⟩ := Option.bind_eq_some_iff.1 h
  obtain ⟨mark, rest, quote, rfl⟩ := begins_of_quotedPair? pair
  obtain rfl := Sql.Table.afterPrefix?_eq_some.1 behind
  have found : Text.after? Sql.Table.namePrefix.toList
      ((Sql.Table.namePrefix ++ entity).toList ++ rest) = some (entity.toList ++ rest) := by
    rw [Text.after?_eq_some, String.toList_append, List.append_assoc]
  unfold namesTable
  dsimp only
  rw [quote, found]
  rfl

/-- Whether a text is a pair of words, the first of which is a link or a collection of an entity
with a target. -/
def IsPair (c : Catalog) (owner : String) (cs : List Char) : Prop :=
  ∃ f column, c.field? owner f.fieldname = .ok (some f) ∧ (f.type = .link ∨ f.type.isCollection) ∧
    f.target.isSome ∧ IsWord f.fieldname.toList ∧ IsWord column ∧
    cs = f.fieldname.toList ++ '.' :: column

def Refers (c : Catalog) (owner : String) (cs : List Char) : Prop :=
  IsPair c owner cs ∨ (foreignColumn? owner cs).isSome

theorem Reference.throughField?_isSome (f : Catalog.Field) (column : String)
    (label : Option String) : (throughField? owner f column label).isSome ↔
      (f.type = .link ∨ f.type.isCollection) ∧ f.target.isSome := by
  unfold throughField?
  cases f.target with
  | none => simp
  | some entity =>
    by_cases link : f.type = .link
    · simp [link]
    · by_cases rows : f.type.isCollection <;> simp [link, rows]

theorem Refers.of_parse {r : Reference} (h : Reference.parse c owner text = .ok (some r)) :
    Refers c owner (splitLabel text.toList).1 := by
  unfold Reference.parse at h
  dsimp only at h
  split at h
  · cases h
  split at h
  · obtain ⟨found, foreign, _⟩ := Option.map_eq_some_iff.1 (Except.ok.inj h)
    exact .inr (by rw [foreign]; rfl)
  split at h
  · cases h
  next field column pair =>
  obtain ⟨declared, found, h⟩ := bind_eq_ok.1 h
  split at h
  · next f =>
    have through : Reference.throughField? owner f column _ = some r := Except.ok.inj h
    obtain ⟨_, _, _, rfl⟩ := Catalog.field?_ok found
    obtain ⟨first, second, eq⟩ := dottedPair?_eq_some.1 pair
    obtain ⟨kind, target⟩ := (Reference.throughField?_isSome f column _).1
      (Option.isSome_iff_exists.2 ⟨r, through⟩)
    exact .inl ⟨f, column.toList, found, kind, target, first, second, eq⟩
  · cases h

theorem Refers.point_mem (h : Refers c owner cs) : '.' ∈ cs := by
  rcases h with ⟨f, column, _, _, _, _, _, rfl⟩ | foreign
  · simp
  · obtain ⟨⟨entity, column⟩, found⟩ := Option.isSome_iff_exists.1 foreign
    obtain ⟨⟨table, _⟩, pair, _⟩ := Option.bind_eq_some_iff.1 found
    cases spelled_of_quotedPair? pair with
    | qualified => simp

theorem Refers.parse {label : Option (List Char)} (divided : splitLabel text.toList = (expr, label))
    (h : Refers c owner expr) : ∃ r, Reference.parse c owner text = .ok (some r) := by
  have point : text.toList.contains '.' := by
    obtain ⟨front, tail, eq, _⟩ := Clause.splitLabel_append divided
    simp [eq, h.point_mem]
  unfold Reference.parse
  simp only [point, divided, Bool.not_true, Bool.false_eq_true, ↓reduceIte]
  rcases h with ⟨f, column, found, kind, target, first, second, rfl⟩ | foreign
  · have bare : namesTable (f.fieldname.toList ++ '.' :: column) = false := by
      obtain ⟨x, word, eq⟩ := List.exists_cons_of_ne_nil first.1
      have letter : Text.isWordChar x := first.2 x (by rw [eq]; exact List.mem_cons_self)
      rw [eq, List.cons_append]
      unfold namesTable
      simp [Clause.not_isNameQuote_of_isWordChar letter]
    have pair : dottedPair? (f.fieldname.toList ++ '.' :: column) =
        some (f.fieldname, String.ofList column) :=
      dottedPair?_eq_some.2 ⟨first, by simpa using second, by simp⟩
    have leads : (Reference.throughField? owner f (String.ofList column)
        (label.map String.ofList)).isSome :=
      (Reference.throughField?_isSome f _ _).2 ⟨kind, target⟩
    obtain ⟨r, through⟩ := Option.isSome_iff_exists.1 leads
    refine ⟨r, ?_⟩
    simp only [bare, pair, found, Bool.false_eq_true, ↓reduceIte]
    exact congrArg Except.ok through
  · obtain ⟨⟨entity, column⟩, found⟩ := Option.isSome_iff_exists.1 foreign
    rw [if_pos (namesTable_of_foreignColumn? found), found]
    exact ⟨_, rfl⟩

theorem Reference.parse_eq_error {fault : QueryError} (h : parse c owner text = .error fault) :
    c.entity owner = .error fault := by
  unfold parse at h
  dsimp only at h
  split at h
  · cases h
  split at h
  · cases h
  split at h
  · cases h
  next field column pair =>
  cases found : c.field? owner field with
  | error e =>
    rw [found] at h
    cases h
    exact Catalog.field?_eq_error found
  | ok declared =>
    rw [found] at h
    cases declared <;> cases h

theorem Reference.parse_of_not_column
    (other : ∀ w : Clause.ColumnText, ¬ w.SpelledBy (splitLabel text.toList).1) :
    Reference.parse c owner text = .ok none := by
  cases read : Reference.parse c owner text with
  | error fault =>
    unfold Reference.parse at read
    dsimp only at read
    split at read
    · cases read
    split at read
    · cases read
    split at read
    · cases read
    · next pair => exact absurd (spelled_of_dottedPair? pair) (other _)
  | ok found =>
    cases found with
    | none => rfl
    | some r =>
      obtain ⟨_, expr, label, divided, _, leads⟩ := Reference.leads_of_parse read
      obtain ⟨w, spelled, _⟩ := leads.spelled
      rw [divided] at other
      exact absurd spelled (other w)

end Selection

end ScopedQuery
