import ScopedQuery.Proofs.Lexical.Quotation
import ScopedQuery.Proofs.Rows.Confinement
import ScopedQuery.Proofs.Text.Replacement

set_option autoImplicit false

/-!
The user's name in written conditions. Every place for it takes one and the same literal, whatever
the dialect is, and not every dialect reads every user's name back from it.
-/

namespace ScopedQuery

theorem Assoc.find?_map {α β : Type} (m : Assoc α) (f : α → β) (name : String) :
    find? (m.map fun e => (e.1, f e.2)) name = (find? m name).map f := by
  unfold find?
  rw [List.find?_map, Option.map_map, Option.map_map]
  rfl

namespace Catalog

def Definition.templates (D : Definition) (entity : String) : List String :=
  (D.conditions.find? entity).getD [] ++
    (if entity == wildcard then [] else (D.conditions.find? wildcard).getD []) ++
      (D.scripts.find? entity).toList

variable {D : Definition} {entity user sql : String}

theorem hooksOf_ofDefinition (D : Definition) (entity : String) :
    (ofDefinition D).hooksOf entity =
      ((D.conditions.find? entity).getD [] ++
        if entity == wildcard then [] else (D.conditions.find? wildcard).getD []).map
          fun t user _ => some (renderTemplate t user) := by
  have found (name : String) : ((ofDefinition D).hooks.find? name).getD [] =
      ((D.conditions.find? name).getD []).map fun t user _ => some (renderTemplate t user) := by
    change (Assoc.find? (D.conditions.map _) name).getD [] = _
    rw [Assoc.find?_map D.conditions]
    cases D.conditions.find? name <;> rfl
  unfold hooksOf
  rw [List.map_append, found, found]
  split <;> rfl

theorem script?_ofDefinition (D : Definition) (entity : String) :
    (ofDefinition D).script? entity =
      (D.scripts.find? entity).map fun t user => some (renderTemplate t user) :=
  Assoc.find?_map D.scripts (fun t user => some (renderTemplate t user)) entity

theorem provides_ofDefinition : Access.Provides (ofDefinition D) entity user sql ↔
    Text.isBlankText sql.toList = false ∧ ∃ t ∈ D.templates entity, renderTemplate t user = sql := by
  unfold Access.Provides Definition.templates
  refine and_congr_right fun _ => ?_
  rw [hooksOf_ofDefinition, script?_ofDefinition]
  constructor
  · rintro (⟨hook, mem, made⟩ | ⟨script, given, made⟩)
    · obtain ⟨t, there, rfl⟩ := List.mem_map.1 mem
      exact ⟨t, List.mem_append_left _ there, Option.some.inj made⟩
    · obtain ⟨t, there, rfl⟩ := Option.map_eq_some_iff.1 given
      exact ⟨t, List.mem_append_right _ (Option.mem_toList.2 there), Option.some.inj made⟩
  · rintro ⟨t, mem, rfl⟩
    rcases List.mem_append.1 mem with there | there
    · exact .inl ⟨_, List.mem_map_of_mem there, rfl⟩
    · exact .inr ⟨_, Option.map_eq_some_iff.2 ⟨t, Option.mem_toList.1 there, rfl⟩, rfl⟩

def userLiteral (user : String) : String :=
  String.ofList ([Text.singleQuote] ++ Text.doubling Text.singleQuote user.toList ++
    [Text.singleQuote])

theorem lone_userPlace : ∀ x ∈ userPlace.toList.head?, x ∉ userPlace.toList.tail := by
  rintro _ ⟨⟩
  decide

/-- A literal is put in every place for the user, and the rest of the template stays. -/
theorem renderTemplate_eq_iff {template : String} : renderTemplate template user = sql ↔
    ∃ parts, Text.Divides userPlace parts template ∧
      (userLiteral user).intercalate parts = sql := by
  have filled {parts : List String} (h : Text.Divides userPlace parts template) :
      renderTemplate template user = (userLiteral user).intercalate parts :=
    Text.replaceAll_of_divides lone_userPlace h _
  constructor
  · rintro rfl
    have ne : userPlace ≠ "" := by decide
    obtain ⟨parts, _, divides⟩ := Text.exists_divides ne template
    exact ⟨parts, divides, (filled divides).symm⟩
  · rintro ⟨parts, divides, rfl⟩
    exact filled divides

theorem literal?_userLiteral {d : Sql.Dialect} {rest : List Char} :
    d.literal? ((userLiteral user).toList ++ rest) = some (user.toList, rest) ↔
      d.ReadsBack rest user.toList := by
  unfold userLiteral Sql.Dialect.ReadsBack
  rw [String.toList_ofList, List.append_assoc, List.append_assoc]
  rfl

/-- A definition provides its templates with one literal in all the places for the user. A dialect
reads the user's name from it, whatever follows, unless a backslash of the name escapes there: then
it reads another value, or no end. -/
theorem provides_user_literal (D : Definition) (user : String) : ∃ literal : String,
    (∀ entity sql, Access.Provides (ofDefinition D) entity user sql ↔
      Text.isBlankText sql.toList = false ∧ ∃ t ∈ D.templates entity, ∃ parts,
        Text.Divides userPlace parts t ∧ literal.intercalate parts = sql) ∧
    ∀ (d : Sql.Dialect) (rest : List Char), rest.head? ≠ some Text.singleQuote →
      (d.literal? (literal.toList ++ rest) = some (user.toList, rest) ↔
        (d = .mariadb → ∀ front back, user.toList = front ++ Text.backslash :: back →
          ∃ e ∈ back.head?, Sql.isWildcard e)) := by
  refine ⟨userLiteral user, fun entity sql => ?_, fun d rest stop => ?_⟩
  · simp only [provides_ofDefinition, renderTemplate_eq_iff]
  · rw [literal?_userLiteral, Sql.Dialect.readsBack_iff stop, Sql.Dialect.keeps_iff]

def ownedTasks : Definition :=
  { Definition.blank with conditions := [("Task", ["\x60owner\x60 = \x7buser\x7d"])] }

theorem provides_user_literal_apostrophe : ∃ literal : String,
    Access.Provides (ofDefinition ownedTasks) "Task" "o'brien" ("\x60owner\x60 = " ++ literal) ∧
      ∀ d : Sql.Dialect, d.literal? (literal.toList ++ [')']) = some ("o'brien".toList, [')']) := by
  obtain ⟨literal, provides, reads⟩ := provides_user_literal ownedTasks "o'brien"
  refine ⟨literal, (provides _ _).2 ⟨?_, _, List.mem_cons_self, ["\x60owner\x60 = ", ""], ?_, ?_⟩, ?_⟩
  · rw [String.toList_append]
    rfl
  · exact ⟨by decide, by decide⟩
  · rw [String.intercalate_cons_of_ne_nil (List.cons_ne_nil _ _), String.intercalate_singleton,
      String.append_empty]
  · intro d
    refine (reads d [')'] (by decide)).2 fun _ front back eq => ?_
    have mem : Text.backslash ∈ "o'brien".toList := by
      rw [eq]
      simp
    exact absurd mem (by decide)

/-- The literal for a name that ends with a backslash has no end, although such a name has a literal
of the dialect's own. -/
theorem provides_user_unread :
    Access.Provides (ofDefinition ownedTasks) "Task" "a\\" ("\x60owner\x60 = " ++ "'a\\'") ∧
      Sql.Dialect.mariadb.literal? "'a\\'".toList = none ∧
      Sql.Dialect.mariadb.literal? (Sql.Dialect.mariadb.quoteString "a\\").toList =
        some ("a\\".toList, []) := by
  refine ⟨provides_ofDefinition.2 ⟨rfl, _, List.mem_cons_self, ?_⟩, ?_, ?_⟩ <;> decide

end Catalog

end ScopedQuery
