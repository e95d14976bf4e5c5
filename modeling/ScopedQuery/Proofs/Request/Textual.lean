import ScopedQuery.Proofs.Outcome
import ScopedQuery.Request.Document

set_option autoImplicit false

namespace ScopedQuery

open Sql Outcome

namespace Filter

theorem ofTuple_ne (items : List Json) (criterion : Criterion) :
    Step.ofTuple items ≠ .criterion criterion := by
  unfold Step.ofTuple
  split <;> exact Step.noConfusion

theorem ofMember_ne (field : String) (value : Json) (criterion : Criterion) :
    Step.ofMember field value ≠ .criterion criterion := by
  unfold Step.ofMember
  split <;> exact Step.noConfusion

mutual

theorem criterion_not_mem_stepsOfJson (criterion : Criterion) :
    ∀ j, .criterion criterion ∉ stepsOfJson j
  | .null => by simp [stepsOfJson]
  | .bool _ | .int _ | .float _ | .str _ => by simp [stepsOfJson, Step.named]
  | .obj members => by
    rw [stepsOfJson]
    intro mem
    obtain ⟨⟨field, value⟩, _, eq⟩ := List.mem_map.1 mem
    exact ofMember_ne field value criterion eq
  | .arr items => by
    rw [stepsOfJson]
    split
    · simp [Step.named]
    · exact criterion_not_mem_stepsOfItems criterion items

theorem criterion_not_mem_stepsOfItems (criterion : Criterion) :
    ∀ items, .criterion criterion ∉ stepsOfItems items
  | [] => by simp [stepsOfItems]
  | .arr items :: rest => by
    rw [stepsOfItems, List.mem_cons, not_or]
    exact ⟨(ofTuple_ne items criterion).symm, criterion_not_mem_stepsOfItems criterion rest⟩
  | .null :: rest | .bool _ :: rest | .int _ :: rest | .float _ :: rest | .str _ :: rest
  | .obj _ :: rest => by
    rw [stepsOfItems, List.mem_append, not_or]
    · exact ⟨criterion_not_mem_stepsOfJson criterion _,
        criterion_not_mem_stepsOfItems criterion rest⟩
    · simp

end

end Filter

def Selection.Textual (s : Selection) : Prop := ∀ t, .term t ∉ s.toEntries

theorem Selection.textual_getD {fields : Option Selection} (h : ∀ s ∈ fields, s.Textual) :
    (fields.getD (.entries [])).Textual := by
  cases fields with
  | none => nofun
  | some s => exact h s rfl

namespace Request

structure Textual (r : Request) : Prop where
  fields : ∀ s ∈ r.fields, s.Textual
  filters : ∀ f ∈ r.filters, ∃ j, f = .json j

theorem childEntry_ok {fieldname : String} {j : Json} {e : Selection.Entry}
    (h : childEntry fieldname j = .ok e) : ∃ fields, e = .child fieldname fields := by
  unfold childEntry at h
  split at h <;> cases h
  exact ⟨_, rfl⟩

theorem term_not_mem_entries {e : EntryDocument} {es : List Selection.Entry}
    (h : e.entries = .ok es) (t : Term) : .term t ∉ es := by
  cases e with
  | text s =>
    cases h
    simp
  | children members =>
    intro mem
    obtain ⟨⟨fieldname, j⟩, _, made⟩ := mem_of_mapM h mem
    obtain ⟨fields, eq⟩ := childEntry_ok made
    cases eq

theorem textual_selection {f : FieldsDocument} {s : Selection} (h : f.selection = .ok s) :
    s.Textual := by
  intro t mem
  cases f with
  | text text =>
    cases h
    obtain ⟨cs, _, eq⟩ := List.mem_map.1 mem
    cases eq
  | list entries =>
    obtain ⟨lists, each, rfl⟩ := map_eq_ok.1 h
    obtain ⟨list, found, mem⟩ := List.mem_flatten.1 mem
    obtain ⟨e, _, made⟩ := mem_of_mapM each found
    exact term_not_mem_entries made t mem

theorem textual_request {d : Document} {r : Request} (h : d.request = .ok r) : r.Textual := by
  unfold Document.request at h
  obtain ⟨fields, selected, h⟩ := bind_eq_ok.1 h
  obtain ⟨mode, _, h⟩ := bind_eq_ok.1 h
  cases h
  constructor
  · intro s hs
    cases written : d.fields with
    | none =>
      rw [written] at selected
      cases selected
      cases hs
    | some f =>
      rw [written] at selected
      obtain ⟨s', made, eq⟩ := bind_eq_ok.1 selected
      cases eq
      cases hs
      exact textual_selection made
  · intro f hf
    obtain ⟨j, _, rfl⟩ := Option.map_eq_some_iff.1 hf
    exact ⟨j, rfl⟩

theorem textual_of_ofJson {j : Json} {r : Request} (h : ofJson j = .ok r) : r.Textual := by
  unfold ofJson at h
  split at h
  · cases h
  split at h
  · cases h
  · next made =>
    cases h
    exact textual_request made

end Request

end ScopedQuery
