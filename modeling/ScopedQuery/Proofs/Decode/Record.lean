import Mathlib.Data.List.Nodup
import ScopedQuery.Decode.Basic
import ScopedQuery.Proofs.Outcome

set_option autoImplicit false

/-!
Records read out of objects. Where each field sets a part of its own and leaves the other parts as
they are, an object is read as the record whose parts are what the members say, in whatever order
the members stand. A member that no field has a name for is found after whatever members fit.
-/

namespace ScopedQuery

open Outcome

theorem Assoc.find?_of_mem {α : Type} {m : Assoc α} {name : String} {value : α}
    (distinct : (m.map Prod.fst).Nodup) (mem : (name, value) ∈ m) : find? m name = some value := by
  induction m with
  | nil => cases mem
  | cons e m ih =>
    rw [List.map_cons, List.nodup_cons] at distinct
    obtain ⟨fresh, distinct⟩ := distinct
    rcases List.mem_cons.1 mem with rfl | later
    · simp [find?]
    · have other : e.1 ≠ name := fun eq => fresh (eq ▸ List.mem_map_of_mem later)
      simpa [find?, other] using ih distinct later

theorem Assoc.find?_of_not_mem {α : Type} {m : Assoc α} {name : String}
    (absent : name ∉ m.map Prod.fst) : find? m name = none := by
  rw [find?, Option.map_eq_none_iff, List.find?_eq_none]
  intro e mem same
  exact absent (beq_iff_eq.1 same ▸ List.mem_map_of_mem mem)

namespace Decoder

/-- A part of a record: the name of its field, how its values are read, and its value. -/
structure RecordPart (ρ : Type) where
  {α : Type}
  name : String
  decoder : Decoder α
  value : ρ → α

variable {ρ : Type} {fields : List (RecordField ρ)} {parts : List (RecordPart ρ)}
  {shape : RecordShape} {members : List (String × Json)} {r d blank : ρ}

/-- Whether the fields of a record set the given parts of it, which are all that it consists of. -/
structure Covers (fields : List (RecordField ρ)) (parts : List (RecordPart ρ)) : Prop where
  names : fields.map RecordField.name = parts.map RecordPart.name
  sets : ∀ p ∈ parts, ∀ j a, p.decoder.json j = .ok a →
    ∃ f, fields.find? (fun f => f.name == p.name) = some f ∧
      ∀ r, ∃ r', f.readJson r j = .ok r' ∧ p.value r' = a ∧
        ∀ q ∈ parts, q.name ≠ p.name → q.value r' = q.value r
  ext : ∀ r r', (∀ p ∈ parts, p.value r = p.value r') → r = r'

def RecordPart.Told (p : RecordPart ρ) (blank d : ρ) : Option Json → Prop
  | some j => p.decoder.json j = .ok (p.value d)
  | none => p.value blank = p.value d

theorem readMembers_append (before after : List (String × Json)) :
    readMembers shape fields (before ++ after) r =
      (readMembers shape fields before r >>= readMembers shape fields after) := by
  induction before generalizing r with
  | nil => rfl
  | cons e before ih =>
    obtain ⟨name, j⟩ := e
    simp only [List.cons_append, readMembers]
    split
    · next f found =>
      cases f.readJson r j with
      | error e => rfl
      | ok r' => exact ih
    · split
      · rfl
      · exact ih

/-- Members that fit are read, in any order. A part is right afterwards if its member is there or
it was right before. -/
theorem exists_readMembers (shape : RecordShape) (r : ρ) (covers : Covers fields parts)
    (declared : ∀ name ∈ members.map Prod.fst, name ∈ fields.map RecordField.name)
    (agree : ∀ p ∈ parts, ∀ j, (p.name, j) ∈ members → p.decoder.json j = .ok (p.value d)) :
    ∃ r', readMembers shape fields members r = .ok r' ∧ ∀ p ∈ parts,
      p.name ∈ members.map Prod.fst ∨ p.value r = p.value d → p.value r' = p.value d := by
  induction members generalizing r with
  | nil => exact ⟨r, rfl, fun p _ right => right.resolve_left List.not_mem_nil⟩
  | cons e members ih =>
    obtain ⟨name, j⟩ := e
    rw [List.map_cons, List.forall_mem_cons] at declared
    obtain ⟨known, declared⟩ := declared
    rw [covers.names, List.mem_map] at known
    obtain ⟨p, part, rfl⟩ := known
    obtain ⟨f, found, sets⟩ := covers.sets p part j _ (agree p part j List.mem_cons_self)
    obtain ⟨r₁, read, -, frame⟩ := sets r
    obtain ⟨r', rest, right⟩ := ih r₁ declared
      fun q other k mem => agree q other k (List.mem_cons_of_mem _ mem)
    refine ⟨r', ?_, fun q other given => right q other ?_⟩
    · rw [readMembers, found]
      exact bind_eq_ok.2 ⟨r₁, read, rest⟩
    · by_cases same : q.name = p.name
      · -- The field of this name sets every part of the name.
        obtain ⟨g, found', sets'⟩ :=
          covers.sets q other j _ (agree q other j (same ▸ List.mem_cons_self))
        rw [same, found] at found'
        cases found'
        obtain ⟨r₂, read', value, -⟩ := sets' r
        rw [read] at read'
        cases read'
        exact .inr value
      · rw [frame q other same]
        exact given.imp_left fun mem => (List.mem_cons.1 mem).resolve_left same

theorem RecordPart.Told.of_mem {p : RecordPart ρ} {j : Json}
    (distinct : (members.map Prod.fst).Nodup)
    (told : p.Told blank d (Assoc.find? members p.name)) (mem : (p.name, j) ∈ members) :
    p.decoder.json j = .ok (p.value d) := by
  rwa [Assoc.find?_of_mem distinct mem] at told

theorem RecordPart.Told.of_not_mem {p : RecordPart ρ}
    (told : p.Told blank d (Assoc.find? members p.name))
    (absent : p.name ∉ members.map Prod.fst) : p.value blank = p.value d := by
  rwa [Assoc.find?_of_not_mem absent] at told

theorem record_json_of_told {type : String} {closed : Bool} (covers : Covers fields parts)
    (distinct : (members.map Prod.fst).Nodup)
    (declared : ∀ name ∈ members.map Prod.fst, name ∈ fields.map RecordField.name)
    (complete : missing? fields (members.map Prod.fst) = none)
    (told : ∀ p ∈ parts, p.Told blank d (Assoc.find? members p.name)) :
    (record type closed fields blank).json (.obj members) = .ok d := by
  obtain ⟨r, read, right⟩ := exists_readMembers
    ⟨type, fields.map RecordField.name, closed⟩ blank covers declared
    fun p part _ mem => (told p part).of_mem distinct mem
  obtain rfl : r = d := covers.ext r d fun p part =>
    right p part (Decidable.or_iff_not_imp_left.2 (told p part).of_not_mem)
  refine bind_eq_ok.2 ⟨r, read, ?_⟩
  rw [complete]
  rfl

/-- A closed record refuses a name that it has no field for, wherever among members that fit it
stands. -/
theorem record_json_unknown {type key : String} {before after : List (String × Json)} {j : Json}
    (covers : Covers fields parts) (distinct : ((before ++ after).map Prod.fst).Nodup)
    (declared : ∀ name ∈ (before ++ after).map Prod.fst, name ∈ fields.map RecordField.name)
    (told : ∀ p ∈ parts, p.Told blank d (Assoc.find? (before ++ after) p.name))
    (undeclared : key ∉ fields.map RecordField.name) :
    (record type true fields blank).json (.obj (before ++ (key, j) :: after)) =
      .error (.unknownField key (fields.map RecordField.name)) := by
  rw [List.map_append, List.forall_mem_append] at declared
  obtain ⟨r, read, -⟩ := exists_readMembers
    ⟨type, fields.map RecordField.name, true⟩ blank covers declared.1
    fun p part _ mem => (told p part).of_mem distinct (List.mem_append_left after mem)
  have unknown : fields.find? (fun f => f.name == key) = none := by
    refine List.find?_eq_none.2 fun f mem same => undeclared ?_
    exact List.mem_map.2 ⟨f, mem, beq_iff_eq.1 same⟩
  simp only [record]
  rw [readMembers_append, read]
  simp [bind, Except.bind, readMembers, unknown]

end Decoder

end ScopedQuery
