import ScopedQuery.Proofs.Access.Gate
import ScopedQuery.Proofs.Joins.Request
import ScopedQuery.Proofs.Lexical.Request
import ScopedQuery.Proofs.Names.Request
import ScopedQuery.Proofs.Tables.Calm

set_option autoImplicit false

namespace ScopedQuery

open Sql Outcome

open Clause (isEntityName)

namespace Catalog

/-- Whether declared fields lead to nothing but what an entity can be called. -/
def ProperTargets (c : Catalog) : Prop := ∀ target, c.Targets target → isEntityName target.toList

variable {c : Catalog} {table : Table}

theorem properTargets_of_entities
    (h : ∀ e ∈ c.entities, ∀ f ∈ e.2.fields, ∀ t ∈ f.target, isEntityName t.toList) :
    c.ProperTargets := by
  rintro target ⟨name, e, declared, f, mem, eq⟩
  obtain ⟨entry, there, rfl⟩ := entry_of_entity declared
  exact h entry there f mem target eq

theorem NamesTable.proper (h : c.NamesTable table) (proper : c.ProperTargets) :
    .ofEntity table.entity = table ∧ isEntityName table.entity.toList := by
  obtain ⟨entity, rfl, named | targeted⟩ := h
  · rw [Table.entity_ofEntity]
    exact ⟨rfl, named⟩
  · rw [Table.entity_ofEntity]
    exact ⟨rfl, proper entity targeted⟩

end Catalog

namespace Selection

theorem Reference.namesTable_of_parse {c : Catalog} {owner text : String} {r : Reference}
    (read : parse c owner text = .ok (some r)) : c.NamesTable r.table := by
  obtain ⟨_, _, _, _, _, leads⟩ := leads_of_parse read
  exact Catalog.namesTable_of_leads leads

end Selection

namespace Request

variable {c : Catalog} {d : Dialect} {s : Settings} {v : Viewer} {r : Request} {m m' : Memo}
  {q q' : Query}

def NamesJoins (c : Catalog) (q : Query) : Prop := ∀ j ∈ q.joins, c.NamesTable j.table

theorem Step.namesJoins (step : Step c r q q') (h : NamesJoins c q) : NamesJoins c q' := by
  cases step with
  | @child child name _ =>
    refine List.forall_mem_append.2 ⟨h, List.forall_mem_singleton.2 ?_⟩
    exact ⟨child, rfl, .inl name⟩
  | related read =>
    unfold Selection.Reference.join Query.ensureJoin
    split
    · exact h
    · refine List.forall_mem_append.2 ⟨h, List.forall_mem_singleton.2 ?_⟩
      exact Selection.Reference.namesTable_of_parse read
  | flags =>
    unfold withFlags
    split_ifs <;> exact h
  | condition _ _ _ | ready _ _ | order _ _ _ | group _ _ | limit _ | offset _ => exact h

theorem namesJoins_of_selectFields {table : Table}
    (h : selectFields c d v r table m = (.ok q, m')) : NamesJoins c q := by
  obtain ⟨chosen, found, joined⟩ := joined_selectFields h
  intro j mem
  rw [joined.joins] at mem
  rcases Join.mem_of_mem_extend mem with fresh | asked
  · cases fresh
  · obtain ⟨i, there, asks⟩ := List.mem_flatMap.1 asked
    obtain ⟨reference, is, rfl⟩ := Selection.Item.mem_joins.1 asks
    have made : reference ∈ r.references c table chosen :=
      List.mem_append_left _ (List.mem_filterMap.2 ⟨i, there, is⟩)
    obtain ⟨_, read⟩ := parsed_of_references found made
    exact Selection.Reference.namesTable_of_parse read

/-- A select that is built for a document mentions the queried table and all tables that it joins,
whatever literals, labels and arguments stand in front of them. So whoever passes the gate in front
of its text may select or read each of their entities. -/
theorem mentions_of_build {j : Json} (proper : c.ProperTargets) (read : ofJson j = .ok r)
    (selecting : r.mode = .select) (h : r.build c s v m = (.ok q, m')) :
    ∀ table ∈ q.table :: q.joins.map Join.table, table.entity ∈ Access.mentionedEntities q.sql ∧
      ∀ v', Access.checkSql c q.sql v' = .ok () → Access.MayRead c v' table.entity := by
  obtain ⟨own, picked, asked, gate, selected, arranged, confined⟩ := build_ok h
  have textual : r.Textual := textual_of_ofJson read
  have grown := grows_asked textual selected arranged
  have tame : asked.Tame := tame_of_grows grown (Query.tame_new _ _ _)
  have joins : NamesJoins c asked :=
    invariant_of_steps (steps_of_arrange arranged) (fun _ _ step => step.namesJoins)
      (namesJoins_of_selectFields selected)
  have tables : ∀ table ∈ asked.table :: asked.joins.map Join.table, c.NamesTable table := by
    refine List.forall_mem_cons.2 ⟨?_, List.forall_mem_map.2 joins⟩
    rw [grown.table]
    exact namesTable_of_ofJson read (passGate_ok gate).1
  obtain ⟨wheres, rfl⟩ := confine_ok confined
  intro table mem
  obtain ⟨same, named⟩ := (tables table mem).proper proper
  have mentioned : table.entity ∈ Access.mentionedEntities { asked with wheres : Query }.sql := by
    refine Query.mem_mentionedEntities_sql (grown.mode.trans selecting) tame.selects tame.joins
      named ?_
    rw [same]
    exact mem
  exact ⟨mentioned, fun v' passed => Access.mayRead_of_checkSql passed _ mentioned⟩

theorem mentions_of_build_titles :
    let j := Json.obj [("entity", .str "Task"),
      ("fields", .arr [.str "subject", .str "project.title AS tab"]),
      ("filters", .obj [("project.title", .str "\x60tab")])]
    ∃ r q m', ofJson j = .ok r ∧
      r.build Access.columnReader .standard (.ofUser "jane") (.empty 1) = (.ok q, m') ∧
      "Project" ∈ Access.mentionedEntities q.sql ∧
      ∀ v', Access.checkSql Access.columnReader q.sql v' = .ok () →
        Access.MayRead Access.columnReader v' "Project" := by
  intro j
  obtain ⟨r, read, selecting⟩ : ∃ r, ofJson j = .ok r ∧ r.mode = .select := ⟨_, rfl, rfl⟩
  obtain ⟨q, m', built, joined⟩ : ∃ q m', r.build Access.columnReader .standard (.ofUser "jane")
      (.empty 1) = (.ok q, m') ∧ q.joins.map Join.table = [.ofEntity "Project"] := by
    cases read
    exact ⟨_, _, rfl, rfl⟩
  have proper : Access.columnReader.ProperTargets :=
    Catalog.properTargets_of_entities (by decide)
  have project : .ofEntity "Project" ∈ q.table :: q.joins.map Join.table := by
    rw [joined]
    exact List.mem_cons_of_mem _ List.mem_cons_self
  have mentions := mentions_of_build proper read selecting built _ project
  rw [Table.entity_ofEntity] at mentions
  exact ⟨r, q, m', read, built, mentions⟩

end Request

end ScopedQuery
