import ScopedQuery.Proofs.Decode.Record
import ScopedQuery.Proofs.Request.Textual

set_option autoImplicit false

namespace ScopedQuery.Request

open Outcome Decoder

/-! ### What documents tell -/

def Document.names : List String :=
  ["entity", "fields", "filters", "order_by", "group_by", "limit", "offset", "distinct",
    "for_update", "skip_locked", "wait", "mode"]

/-- Whether a member tells of something that may be missing: it is then not there or null. -/
def OptionWritten {α : Type} (written : α → Json → Prop) : Option α → Option Json → Prop
  | some a, some j => written a j
  | some _, none => False
  | none, some j => j = .null
  | none, none => True

def FlagWritten (usual value : Bool) : Option Json → Prop
  | some j => j = .bool value
  | none => usual = value

def TextWritten (text : String) (j : Json) : Prop := j = .str text

def NumberWritten (n : Int64) (j : Json) : Prop := j = .int n.toInt

def FilterWritten (f : Filter) (j : Json) : Prop := f = .json j ∧ j ≠ .null

inductive EntryWritten : Selection.Entry → Json → Prop where
  | text (text : String) : EntryWritten (.text text) (.str text)
  | child (fieldname : String) (fields : List String) :
    EntryWritten (.child fieldname fields) (.obj [(fieldname, .arr (fields.map .str))])

inductive SelectionWritten : Selection → Json → Prop where
  | text (text : String) : SelectionWritten (.text text) (.str text)
  | entries {entries : List Selection.Entry} {items : List Json}
    (each : List.Forall₂ EntryWritten entries items) :
    SelectionWritten (.entries entries) (.arr items)

/-- Whether the members of a document tell of a request. -/
structure Tells (members : List (String × Json)) (r : Request) : Prop where
  once : (members.map Prod.fst).Nodup
  declared : ∀ name ∈ members.map Prod.fst, name ∈ Document.names
  entity : ∃ name, r.target = .entity name ∧ Assoc.find? members "entity" = some (.str name)
  fields : OptionWritten SelectionWritten r.fields (Assoc.find? members "fields")
  filters : OptionWritten FilterWritten r.filters (Assoc.find? members "filters")
  orderBy : OptionWritten TextWritten r.orderBy (Assoc.find? members "order_by")
  groupBy : OptionWritten TextWritten r.groupBy (Assoc.find? members "group_by")
  limit : OptionWritten NumberWritten r.limit (Assoc.find? members "limit")
  offset : OptionWritten NumberWritten r.offset (Assoc.find? members "offset")
  distinct : FlagWritten false r.distinct (Assoc.find? members "distinct")
  forUpdate : FlagWritten false r.forUpdate (Assoc.find? members "for_update")
  skipLocked : FlagWritten false r.skipLocked (Assoc.find? members "skip_locked")
  wait : FlagWritten true r.wait (Assoc.find? members "wait")
  mode : ∃ text, OptionWritten TextWritten text (Assoc.find? members "mode") ∧
    (text = some r.mode.name ∨ text = none ∧ r.mode = .select)

/-! ### Reading -/

namespace Document

def parts : List (RecordPart Document) :=
  [⟨"entity", string, entity⟩,
   ⟨"fields", optional FieldsDocument.decode, fields⟩,
   ⟨"filters", optional (.ofJson .ok), filters⟩,
   ⟨"order_by", optional string, orderBy⟩,
   ⟨"group_by", optional string, groupBy⟩,
   ⟨"limit", optional signed, limit⟩,
   ⟨"offset", optional signed, offset⟩,
   ⟨"distinct", bool, distinct⟩,
   ⟨"for_update", bool, forUpdate⟩,
   ⟨"skip_locked", bool, skipLocked⟩,
   ⟨"wait", bool, wait⟩,
   ⟨"mode", optional string, mode⟩]

theorem members_names : members.map RecordField.name = names := rfl

theorem covers_parts : Covers members parts where
  names := rfl
  sets p mem := by
    simp only [parts, List.mem_cons, List.not_mem_nil, or_false] at mem
    rcases mem with rfl | rfl | rfl | rfl | rfl | rfl | rfl | rfl | rfl | rfl | rfl | rfl <;>
      exact fun j a read => ⟨_, rfl, fun r => ⟨_, map_eq_ok.2 ⟨a, read, rfl⟩, rfl, by simp [parts]⟩⟩
  ext r r' same := by
    cases r
    cases r'
    simpa [parts] using same

theorem missing?_members {keys : List String} (given : "entity" ∈ keys) :
    missing? members keys = none := by
  simp [missing?, members, required, nullable, defaulted, given]

end Document

def ReadAs {α : Type} (decoder : Decoder α) (a : α) (j : Json) : Prop :=
  j ≠ .null ∧ decoder.json j = .ok a

section Parts

variable {α : Type} {decoder : Decoder α} {name : String} {d : Document} {member : Option Json}

theorem OptionWritten.imp {written written' : α → Json → Prop} {value : Option α}
    (h : OptionWritten written value member) (step : ∀ a j, written a j → written' a j) :
    OptionWritten written' value member := by
  match value, member with
  | some a, some j => exact step a j h
  | none, some j => exact h
  | none, none => trivial

theorem told_of_optionWritten {value : Document → Option α} (blank : value .blank = none)
    (h : OptionWritten (ReadAs decoder) (value d) member) :
    (RecordPart.mk name (optional decoder) value).Told .blank d member := by
  generalize eq : value d = v at h
  match v, member with
  | none, none => exact blank.trans eq.symm
  | none, some j =>
    cases h
    exact congrArg Except.ok eq.symm
  | some a, some j =>
    obtain ⟨present, read⟩ := h
    change (optional decoder).json j = .ok (value d)
    rw [eq]
    cases j with
    | null => exact absurd rfl present
    | _ => exact map_eq_ok.2 ⟨a, read, rfl⟩

theorem told_of_flagWritten {value : Document → Bool}
    (h : FlagWritten (value .blank) (value d) member) :
    (RecordPart.mk name bool value).Told .blank d member := by
  cases member with
  | none => exact h
  | some j =>
    obtain rfl : j = .bool (value d) := h
    rfl

end Parts

theorem TextWritten.readAs (s : String) (j : Json) (h : TextWritten s j) : ReadAs string s j := by
  cases h
  exact ⟨nofun, rfl⟩

theorem NumberWritten.readAs (n : Int64) (j : Json) (h : NumberWritten n j) :
    ReadAs signed n j := by
  cases h
  exact ⟨nofun, by simp [signed, Decimal.signed?_toInt]⟩

theorem EntryWritten.entries {e : Selection.Entry} {j : Json} (h : EntryWritten e j) :
    ∃ doc, EntryDocument.ofJson? j = some doc ∧ doc.entries = .ok [e] := by
  cases h with
  | text text => exact ⟨.text text, rfl, rfl⟩
  | child fieldname fields =>
    have read : (Decoder.list string).json (.arr (fields.map .str)) = .ok fields := by
      refine mapM_eq_ok.2 ?_
      rw [List.forall₂_map_left_iff]
      exact List.forall₂_same.2 fun _ _ => rfl
    exact ⟨_, rfl, by simp [EntryDocument.entries, childEntry, read]⟩

theorem mapM_entries_of_written {entries : List Selection.Entry} {items : List Json}
    (h : List.Forall₂ EntryWritten entries items) :
    ∃ docs, items.mapM EntryDocument.ofJson? = some docs ∧
      docs.mapM EntryDocument.entries = .ok (entries.map fun e => [e]) := by
  induction h with
  | nil => exact ⟨[], rfl, rfl⟩
  | cons first _ ih =>
    obtain ⟨doc, read, entry⟩ := first.entries
    obtain ⟨docs, reads, rest⟩ := ih
    refine ⟨doc :: docs, by simp [read, reads], ?_⟩
    simp [entry, rest, bind, Except.bind, pure, Except.pure]

theorem SelectionWritten.selection {s : Selection} {j : Json} (h : SelectionWritten s j) :
    ∃ doc, ReadAs FieldsDocument.decode doc j ∧ doc.selection = .ok s := by
  cases h with
  | text text => exact ⟨.text text, ⟨nofun, rfl⟩, rfl⟩
  | @entries es items each =>
    obtain ⟨docs, reads, made⟩ := mapM_entries_of_written each
    refine ⟨.list docs, ⟨nofun, by simp [FieldsDocument.decode, Decoder.ofJson, reads]⟩, ?_⟩
    have flat : (es.map fun e => [e]).flatten = es := by
      rw [← List.flatMap_def, List.flatMap_singleton']
    simp [FieldsDocument.selection, made, Except.map, flat]

theorem exists_fields {fields : Option Selection} {member : Option Json}
    (h : OptionWritten SelectionWritten fields member) :
    ∃ docs, OptionWritten (ReadAs FieldsDocument.decode) docs member ∧
      docs.mapM FieldsDocument.selection = .ok fields := by
  match fields, member with
  | none, none => exact ⟨none, trivial, rfl⟩
  | none, some j => exact ⟨none, h, rfl⟩
  | some s, some j =>
    obtain ⟨doc, read, selected⟩ := SelectionWritten.selection h
    exact ⟨some doc, read, by simp [selected, Functor.map, Except.map]⟩

theorem exists_filters {filters : Option Filter} {member : Option Json}
    (h : OptionWritten FilterWritten filters member) :
    ∃ values, OptionWritten (ReadAs (.ofJson .ok)) values member ∧
      values.map Filter.json = filters := by
  match filters, member with
  | none, none => exact ⟨none, trivial, rfl⟩
  | none, some j => exact ⟨none, h, rfl⟩
  | some f, some j =>
    obtain ⟨rfl, present⟩ := h
    exact ⟨some j, ⟨present, rfl⟩, rfl⟩

theorem modeOf_eq {mode : Sql.Mode} {text : Option String}
    (h : text = some mode.name ∨ text = none ∧ mode = .select) : modeOf text = .ok mode := by
  rcases h with rfl | ⟨rfl, rfl⟩
  · cases mode <;> rfl
  · rfl

theorem Tells.exists_document {members : List (String × Json)} {r : Request} (h : Tells members r) :
    ∃ d : Document, d.request = .ok r ∧
      ∀ p ∈ Document.parts, p.Told .blank d (Assoc.find? members p.name) := by
  obtain ⟨entity, target, named⟩ := h.entity
  obtain ⟨fields, fields_read, selected⟩ := exists_fields h.fields
  obtain ⟨filters, filters_read, filtered⟩ := exists_filters h.filters
  obtain ⟨mode, mode_read, mode_eq⟩ := h.mode
  refine ⟨{
    entity := entity
    fields := fields
    filters := filters
    orderBy := r.orderBy
    groupBy := r.groupBy
    limit := r.limit
    offset := r.offset
    distinct := r.distinct
    forUpdate := r.forUpdate
    skipLocked := r.skipLocked
    wait := r.wait
    mode := mode }, ?_, ?_⟩
  · unfold Document.request
    simp only [selected, modeOf_eq mode_eq, filtered, ← target]
    rfl
  · simp only [Document.parts, List.forall_mem_cons]
    refine ⟨?_, told_of_optionWritten rfl fields_read, told_of_optionWritten rfl filters_read,
      told_of_optionWritten rfl (h.orderBy.imp TextWritten.readAs),
      told_of_optionWritten rfl (h.groupBy.imp TextWritten.readAs),
      told_of_optionWritten rfl (h.limit.imp NumberWritten.readAs),
      told_of_optionWritten rfl (h.offset.imp NumberWritten.readAs),
      told_of_flagWritten h.distinct, told_of_flagWritten h.forUpdate,
      told_of_flagWritten h.skipLocked, told_of_flagWritten h.wait,
      told_of_optionWritten rfl (mode_read.imp TextWritten.readAs), List.forall_mem_nil _⟩
    rw [named]
    rfl

/-! ### Writing -/

theorem exists_optionWritten {α : Type} {written : α → Json → Prop} {value : Option α}
    (h : ∀ a ∈ value, ∃ j, written a j) : ∃ j, OptionWritten written value (some j) := by
  cases value with
  | none => exact ⟨.null, rfl⟩
  | some a => exact h a rfl

theorem exists_entryWritten {e : Selection.Entry} (h : ∀ t, e ≠ .term t) :
    ∃ j, EntryWritten e j := by
  cases e with
  | text text => exact ⟨_, .text text⟩
  | term t => exact absurd rfl (h t)
  | child fieldname fields => exact ⟨_, .child fieldname fields⟩

theorem exists_selectionWritten {s : Selection} (h : s.Textual) : ∃ j, SelectionWritten s j := by
  cases s with
  | text text => exact ⟨_, .text text⟩
  | entries es =>
    obtain ⟨items, each⟩ := exists_forall₂ fun e mem =>
      exists_entryWritten (e := e) fun t eq => h t (eq ▸ mem)
    exact ⟨_, .entries each⟩

theorem exists_tells {r : Request} {name : String} (entity : r.target = .entity name)
    (textual : r.Textual) (present : r.filters ≠ some (.json .null)) :
    ∃ members, Tells members r := by
  have text (value : Option String) : ∃ j, OptionWritten TextWritten value (some j) :=
    exists_optionWritten fun s _ => ⟨.str s, rfl⟩
  have number (value : Option Int64) : ∃ j, OptionWritten NumberWritten value (some j) :=
    exists_optionWritten fun n _ => ⟨.int n.toInt, rfl⟩
  obtain ⟨fields, fields_written⟩ :=
    exists_optionWritten fun s mem => exists_selectionWritten (textual.fields s mem)
  obtain ⟨filters, filters_written⟩ : ∃ j, OptionWritten FilterWritten r.filters (some j) := by
    refine exists_optionWritten fun f mem => ?_
    obtain ⟨j, rfl⟩ := textual.filters f mem
    exact ⟨j, rfl, fun eq => present (eq ▸ mem)⟩
  obtain ⟨orderBy, orderBy_written⟩ := text r.orderBy
  obtain ⟨groupBy, groupBy_written⟩ := text r.groupBy
  obtain ⟨limit, limit_written⟩ := number r.limit
  obtain ⟨offset, offset_written⟩ := number r.offset
  exact ⟨[("entity", .str name), ("fields", fields), ("filters", filters), ("order_by", orderBy),
    ("group_by", groupBy), ("limit", limit), ("offset", offset), ("distinct", .bool r.distinct),
    ("for_update", .bool r.forUpdate), ("skip_locked", .bool r.skipLocked),
    ("wait", .bool r.wait), ("mode", .str r.mode.name)], {
    once := by simp
    declared := by simp [Document.names]
    entity := ⟨name, entity, rfl⟩
    fields := fields_written
    filters := filters_written
    orderBy := orderBy_written
    groupBy := groupBy_written
    limit := limit_written
    offset := offset_written
    distinct := rfl
    forUpdate := rfl
    skipLocked := rfl
    wait := rfl
    mode := ⟨some r.mode.name, rfl, .inl rfl⟩ }⟩

/-- A request for an entity, of texts and of values other than null, has documents that tell of it.
Each of them is read as that request, and with one more member of another name it is refused, which
the error names. -/
theorem ofJson_of_tells {r : Request} {name : String} (entity : r.target = .entity name)
    (textual : r.Textual) (present : r.filters ≠ some (.json .null)) :
    (∃ members, Tells members r) ∧ ∀ members, Tells members r →
      ofJson (.obj members) = .ok r ∧
      ∀ before after key j, members = before ++ after → key ∉ Document.names →
        ofJson (.obj (before ++ (key, j) :: after)) =
          .error (.invalidRequest (.decode (.unknownField key Document.names))) := by
  refine ⟨exists_tells entity textual present, fun members tells => ?_⟩
  obtain ⟨d, request, told⟩ := tells.exists_document
  have declared : ∀ name ∈ members.map Prod.fst, name ∈ Document.members.map RecordField.name := by
    rw [Document.members_names]
    exact tells.declared
  constructor
  · have named : "entity" ∈ members.map Prod.fst := by
      by_contra absent
      obtain ⟨_, _, found⟩ := tells.entity
      rw [Assoc.find?_of_not_mem absent] at found
      cases found
    have read : Document.decode.json (.obj members) = .ok d :=
      record_json_of_told Document.covers_parts tells.once declared
        (Document.missing?_members named) told
    rw [ofJson, read]
    simp only [request]
  · rintro before after key j rfl undeclared
    have refused : Document.decode.json (.obj (before ++ (key, j) :: after)) =
        .error (.unknownField key Document.names) := by
      rw [← Document.members_names] at undeclared ⊢
      exact record_json_unknown Document.covers_parts tells.once declared told undeclared
    rw [ofJson, refused]

def openTasks : Request :=
  { Request.all (.entity "Task") with
    fields := some (.entries [.text "name", .child "items" ["qty"]])
    filters := some (.json (.obj [("status", .str "Open")]))
    limit := some 5 }

def openTasksMembers : List (String × Json) :=
  [("limit", .int 5), ("fields", .arr [.str "name", .obj [("items", .arr [.str "qty"])]]),
    ("wait", .bool true), ("group_by", .null), ("entity", .str "Task"),
    ("filters", .obj [("status", .str "Open")]), ("mode", .null)]

theorem tells_openTasks : Tells openTasksMembers openTasks where
  once := by decide
  declared := by decide
  entity := ⟨"Task", rfl, rfl⟩
  fields := .entries (.cons (.text "name") (.cons (.child "items" ["qty"]) .nil))
  filters := ⟨rfl, nofun⟩
  orderBy := trivial
  groupBy := rfl
  limit := rfl
  offset := trivial
  distinct := rfl
  forUpdate := rfl
  skipLocked := rfl
  wait := rfl
  mode := ⟨none, rfl, .inr ⟨rfl, rfl⟩⟩

theorem ofJson_openTasks :
    openTasks.target = .entity "Task" ∧ openTasks.Textual ∧
      openTasks.filters ≠ some (.json .null) ∧ Tells openTasksMembers openTasks ∧
      ofJson (.obj openTasksMembers) = .ok openTasks ∧
      ofJson (.obj (("columns", .null) :: openTasksMembers)) =
        .error (.invalidRequest (.decode (.unknownField "columns" Document.names))) := by
  have textual : openTasks.Textual := by
    constructor
    · rintro s ⟨⟩ t mem
      simp [Selection.toEntries] at mem
    · rintro f ⟨⟩
      exact ⟨_, rfl⟩
  obtain ⟨read, refused⟩ :=
    (ofJson_of_tells (r := openTasks) rfl textual nofun).2 openTasksMembers tells_openTasks
  exact ⟨rfl, textual, nofun, tells_openTasks, read,
    refused [] openTasksMembers "columns" .null rfl (by decide)⟩

end ScopedQuery.Request
