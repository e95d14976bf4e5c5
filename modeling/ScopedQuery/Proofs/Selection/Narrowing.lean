import ScopedQuery.Proofs.Function.Transparency
import ScopedQuery.Proofs.Selection.Items

set_option autoImplicit false

namespace ScopedQuery

open Sql Outcome Selection

theorem Catalog.entry_of_entity {c : Catalog} {name : String} {e : Catalog.Entity}
    (h : c.entity name = .ok e) : ∃ entry ∈ c.entities, entry.2 = e := by
  unfold Catalog.entity at h
  split at h
  · next found =>
    cases h
    obtain ⟨entry, there, eq⟩ := Option.map_eq_some_iff.1 found
    exact ⟨entry, List.mem_of_find?_eq_some there, eq⟩
  · cases h

def Catalog.Unstarred (c : Catalog) : Prop :=
  ∀ entity e, c.entity entity = .ok e → ∀ f ∈ e.fields, f.fieldname ≠ "*"

namespace Access

def Sees (c : Catalog) (user entity fieldname : String) : Prop :=
  ∃ columns, visibleColumns c user entity = .ok columns ∧ fieldname ∈ columns

/-- Whether an item, selected from an entity, shows nothing but columns that a user may see. A
column behind a link shows when the link does, and terms that were ready made always show. -/
def Shows (c : Catalog) (user entity : String) : Item → Prop
  | .plain column => Sees c user column.table.entity column.name
  | .star _ => False
  | .position _ => True
  | .call f => ∀ column, f.term.Mentions column → Sees c user column.table.entity column.name
  | .reference r =>
    match r.route with
    | .link field => Sees c user entity field
    | .rows _ => Sees c user r.entity r.fieldname
  | .child q => q.fields ≠ [] ∧ ∀ f ∈ q.fields, Sees c user q.entity f
  | .term _ => True

def Single : Item → Prop
  | .star _ => False
  | .child _ => False
  | _ => True

/-- What remains of an item for a user. -/
inductive Remains (c : Catalog) (user : String) (table : Table) : Item → List Item → Prop
  | star {t : Table} {columns : List String}
    (visible : visibleColumns c user table.entity = .ok columns) :
    Remains c user table (.star t) (columns.map fun name => .plain (t.column name))
  | child {q : ChildQuery} {columns fields : List String}
    (visible : visibleColumns c user q.entity = .ok columns)
    (narrowed : fields = q.fields.flatMap fun f =>
      if f = "*" then columns else if f ∈ columns then [f] else []) :
    Remains c user table (.child q)
      (if fields = [] then [] else [.child { q with fields := fields }])
  | kept {i : Item} (single : Single i) (shows : Shows c user table.entity i) :
    Remains c user table i [i]
  | dropped {i : Item} (single : Single i) (hides : ¬ Shows c user table.entity i) :
    Remains c user table i []

variable {c : Catalog} {user entity fieldname : String} {table : Table}

section Columns

theorem seesColumn_of_visible {columns : List String}
    (visible : visibleColumns c user entity = .ok columns) (fieldname : String) :
    seesColumn c user entity fieldname = .ok (columns.contains fieldname) := by
  unfold seesColumn
  rw [visible]
  rfl

theorem seesColumn_of_sees (h : Sees c user entity fieldname) :
    seesColumn c user entity fieldname = .ok true := by
  obtain ⟨columns, visible, mem⟩ := h
  rw [seesColumn_of_visible visible]
  exact congrArg Except.ok (List.contains_iff_mem.2 mem)

theorem sees_iff {seen : Bool} (h : seesColumn c user entity fieldname = .ok seen) :
    Sees c user entity fieldname ↔ seen := by
  unfold seesColumn at h
  obtain ⟨columns, visible, rfl⟩ := map_eq_ok.1 h
  rw [List.contains_iff_mem]
  constructor
  · rintro ⟨others, again, mem⟩
    cases visible.symm.trans again
    exact mem
  · intro mem
    exact ⟨columns, visible, mem⟩

theorem seesAll_of_sees {columns : List Column}
    (h : ∀ column ∈ columns, Sees c user column.table.entity column.name) :
    seesAll c user columns = .ok true := by
  induction columns with
  | nil => rfl
  | cons column columns ih =>
    obtain ⟨first, rest⟩ := List.forall_mem_cons.1 h
    rw [seesAll, seesColumn_of_sees first]
    exact ih rest

theorem seesAll_iff {columns : List Column} {seen : Bool} (h : seesAll c user columns = .ok seen) :
    (∀ column ∈ columns, Sees c user column.table.entity column.name) ↔ seen := by
  induction columns with
  | nil =>
    cases h
    simp
  | cons column columns ih =>
    rw [seesAll] at h
    obtain ⟨first, found, h⟩ := bind_eq_ok.1 h
    rw [List.forall_mem_cons, sees_iff found]
    cases first with
    | false =>
      cases h
      simp
    | true =>
      rw [ih h]
      simp

theorem visibleColumns_sublist {columns : List String}
    (h : visibleColumns c user entity = .ok columns) :
    ∃ e, c.entity entity = .ok e ∧ columns.Sublist (e.columns true) := by
  unfold visibleColumns Catalog.permittedFields at h
  obtain ⟨e, declared, h⟩ := bind_eq_ok.1 h
  refine ⟨e, declared, ?_⟩
  dsimp only at h
  split at h
  · cases h
    exact List.Sublist.refl _
  · split at h
    · cases h
      exact List.filter_sublist
    · cases h
      exact List.Sublist.refl _

theorem not_sees_star (unstarred : c.Unstarred) : ¬ Sees c user entity "*" := by
  rintro ⟨columns, visible, mem⟩
  obtain ⟨e, declared, sublist⟩ := visibleColumns_sublist visible
  have among := sublist.mem mem
  unfold Catalog.Entity.columns at among
  rw [List.mem_append, List.mem_append] at among
  rcases among with (standard | child) | own
  · exact absurd standard (by decide)
  · split at child
    · exact absurd child (by decide)
    · cases child
  · obtain ⟨f, there, name⟩ := List.mem_map.1 own
    exact unstarred entity e declared f (List.mem_filter.1 there).1 name

end Columns

def Readable (table : Table) : Item → Prop
  | .star t => t = table
  | .call f => f.term.Transparent
  | _ => True

theorem readable_of_denotes {d : Dialect} {entry : Entry} {i : Item}
    (h : Denotes c table d entry i) : Readable table i := by
  cases h with
  | star => exact rfl
  | call read => exact Function.transparent_of_parseCall read
  | position _ | reference _ | plain _ | child _ | term _ => trivial

theorem shows_call_iff {f : FunctionCall} (transparent : f.term.Transparent) :
    Shows c user entity (.call f) ↔
      ∀ column ∈ f.columns, Sees c user column.table.entity column.name := by
  constructor
  · intro shows column mem
    exact shows column (Term.mentions_of_mem_columns f.term mem)
  · intro sees column mentions
    exact sees column (transparent column mentions)

section Child

variable {q : ChildQuery} {columns : List String}

theorem fields_narrowChild : (narrowChild columns q).fields = q.fields.flatMap fun f =>
    if f = "*" then columns else if f ∈ columns then [f] else [] := by
  have every : columns.filter columns.contains = columns := List.filter_eq_self.2 (by simp)
  unfold narrowChild
  dsimp only
  rw [List.filter_flatMap]
  refine List.flatMap_congr fun f _ => ?_
  by_cases star : f = "*"
  · simp [star, every]
  · by_cases mem : f ∈ columns <;> simp [star, mem]

theorem narrowChild_eq_self (seen : ∀ f ∈ q.fields, f ∈ columns) (bare : "*" ∉ q.fields) :
    narrowChild columns q = q := by
  have fields : (narrowChild columns q).fields = q.fields := by
    have each : ∀ f ∈ q.fields,
        (if f = "*" then columns else if f ∈ columns then [f] else []) = [f] := by
      intro f mem
      rw [if_neg (ne_of_mem_of_not_mem mem bare), if_pos (seen f mem)]
    rw [fields_narrowChild, List.flatMap_congr each, List.flatMap_singleton']
  exact congrArg (fun fields => { q with fields := fields }) fields

theorem mem_columns_of_narrowed {f : String} (mem : f ∈ q.fields.flatMap fun f =>
    if f = "*" then columns else if f ∈ columns then [f] else []) : f ∈ columns := by
  obtain ⟨g, _, mem⟩ := List.mem_flatMap.1 mem
  split at mem
  · exact mem
  · split at mem
    · next seen =>
      cases List.mem_singleton.1 mem
      exact seen
    · cases mem

end Child

section Item

variable {i : Item} {items kept list : List Item} {own : List String}

theorem remains_of_keepIf {seen : Result Bool} (single : Single i)
    (shows : ∀ b, seen = .ok b → (Shows c user table.entity i ↔ b))
    (h : narrowItem.keepIf seen i = .ok list) : Remains c user table i list := by
  obtain ⟨b, found, rfl⟩ := map_eq_ok.1 h
  have exact_shows := shows b found
  cases b with
  | true => exact .kept single (exact_shows.2 rfl)
  | false => exact .dropped single fun hidden => absurd (exact_shows.1 hidden) (by decide)

theorem remains_of_narrowItem (visible : visibleColumns c user table.entity = .ok own)
    (readable : Readable table i) (h : narrowItem c user own i = .ok list) :
    Remains c user table i list := by
  cases i with
  | star t =>
    cases h
    exact .star visible
  | plain column => exact remains_of_keepIf trivial (fun _ found => sees_iff found) h
  | call f =>
    refine remains_of_keepIf trivial (fun b found => ?_) h
    rw [shows_call_iff readable]
    exact seesAll_iff found
  | reference r =>
    rw [narrowItem] at h
    split at h
    · next field route =>
      refine remains_of_keepIf trivial (fun b found => ?_) h
      -- The link is looked up among the columns of the queried table, which are at hand.
      rw [Shows, route]
      exact sees_iff ((seesColumn_of_visible visible field).trans found)
    · next field route =>
      refine remains_of_keepIf trivial (fun b found => ?_) h
      rw [Shows, route]
      exact sees_iff found
  | child q =>
    rw [narrowItem] at h
    obtain ⟨columns, seen, h⟩ := bind_eq_ok.1 h
    cases h
    simp only [List.isEmpty_iff]
    exact .child seen fields_narrowChild
  | position n =>
    cases h
    exact .kept trivial trivial
  | term t =>
    cases h
    exact .kept trivial trivial

theorem shows_of_remains (readable : Readable table i) (h : Remains c user table i list) :
    ∀ j ∈ list, Shows c user table.entity j ∧ Readable table j := by
  intro j mem
  cases h with
  | star visible =>
    obtain ⟨name, among, rfl⟩ := List.mem_map.1 mem
    rw [show _ = table from readable]
    exact ⟨⟨_, visible, among⟩, trivial⟩
  | child visible narrowed =>
    split at mem
    · cases mem
    · next remaining =>
      cases List.mem_singleton.1 mem
      refine ⟨⟨remaining, fun f there => ⟨_, visible, ?_⟩⟩, trivial⟩
      rw [narrowed] at there
      exact mem_columns_of_narrowed there
  | kept single shows =>
    cases List.mem_singleton.1 mem
    exact ⟨shows, readable⟩
  | dropped single hides => cases mem

theorem narrowItem_of_shows (unstarred : c.Unstarred)
    (visible : visibleColumns c user table.entity = .ok own) (readable : Readable table i)
    (shows : Shows c user table.entity i) : narrowItem c user own i = .ok [i] := by
  cases i with
  | star t => cases shows
  | plain column =>
    rw [narrowItem, seesColumn_of_sees shows]
    rfl
  | call f =>
    rw [narrowItem, seesAll_of_sees ((shows_call_iff readable).1 shows)]
    rfl
  | reference r =>
    cases route : r.route with
    | link field =>
      have sees : Sees c user table.entity field := by simpa only [Shows, route] using shows
      simp only [narrowItem, route]
      rw [← seesColumn_of_visible visible, seesColumn_of_sees sees]
      rfl
    | rows field =>
      have sees : Sees c user r.entity r.fieldname := by simpa only [Shows, route] using shows
      simp only [narrowItem, route]
      rw [seesColumn_of_sees sees]
      rfl
  | child q =>
    obtain ⟨remaining, each⟩ := shows
    obtain ⟨f, mem⟩ := List.exists_mem_of_ne_nil _ remaining
    -- There is a field, so the columns that all of them are looked up in can be read.
    obtain ⟨columns, seen, _⟩ := each f mem
    have among : ∀ f ∈ q.fields, f ∈ columns := by
      intro f mem
      obtain ⟨others, again, there⟩ := each f mem
      cases seen.symm.trans again
      exact there
    have bare : "*" ∉ q.fields := fun star => not_sees_star unstarred (each _ star)
    rw [narrowItem, seen]
    change Except.ok (if (narrowChild columns q).fields.isEmpty then [] else
      [Item.child (narrowChild columns q)]) = _
    rw [narrowChild_eq_self among bare, if_neg (by simpa using remaining)]
  | position n => rfl
  | term t => rfl

theorem narrow_eq_ok {v : Viewer} : narrow c table v items = .ok kept ↔
    ∃ own parts, visibleColumns c v.user table.entity = .ok own ∧
      List.Forall₂ (fun i list => narrowItem c v.user own i = .ok list) items parts ∧
      kept = parts.flatten := by
  unfold narrow
  simp only [← mapM_eq_ok, bind_eq_ok]
  constructor
  · rintro ⟨own, visible, parts, narrowed, h⟩
    cases h
    exact ⟨own, parts, visible, narrowed, rfl⟩
  · rintro ⟨own, parts, visible, narrowed, rfl⟩
    exact ⟨own, visible, parts, narrowed, rfl⟩

theorem remains_of_forall₂ {parts : List (List Item)}
    (visible : visibleColumns c user table.entity = .ok own)
    (readable : ∀ i ∈ items, Readable table i)
    (h : List.Forall₂ (fun i list => narrowItem c user own i = .ok list) items parts) :
    List.Forall₂ (Remains c user table) items parts := by
  induction h with
  | nil => exact .nil
  | cons first _ ih =>
    obtain ⟨head, tail⟩ := List.forall_mem_cons.1 readable
    exact .cons (remains_of_narrowItem visible head first) (ih tail)

theorem shows_of_forall₂ {parts : List (List Item)} (readable : ∀ i ∈ items, Readable table i)
    (h : List.Forall₂ (Remains c user table) items parts) :
    ∀ j ∈ parts.flatten, Shows c user table.entity j ∧ Readable table j := by
  induction h with
  | nil => simp
  | cons first _ ih =>
    obtain ⟨head, tail⟩ := List.forall_mem_cons.1 readable
    rw [List.flatten_cons, List.forall_mem_append]
    exact ⟨shows_of_remains head first, ih tail⟩

theorem mem_of_shows {parts : List (List Item)} (single : Single i)
    (shows : Shows c user table.entity i) (mem : i ∈ items)
    (h : List.Forall₂ (Remains c user table) items parts) : i ∈ parts.flatten := by
  induction h with
  | nil => cases mem
  | cons first _ ih =>
    rw [List.flatten_cons, List.mem_append]
    rcases List.mem_cons.1 mem with rfl | mem
    · refine .inl ?_
      -- A single item remains whole or not at all, and this one is not hidden.
      cases first with
      | star _ => cases single
      | child _ _ => cases single
      | kept _ _ => exact List.mem_cons_self
      | dropped _ hides => exact absurd shows hides
    · exact .inr (ih mem)

theorem narrow_of_shows {v : Viewer} (unstarred : c.Unstarred)
    (visible : visibleColumns c v.user table.entity = .ok own)
    (h : ∀ i ∈ items, Shows c v.user table.entity i ∧ Readable table i) :
    narrow c table v items = .ok items := by
  refine narrow_eq_ok.2 ⟨own, items.map fun i => [i], visible, ?_, ?_⟩
  · induction items with
    | nil => exact .nil
    | cons i items ih =>
      obtain ⟨⟨shows, readable⟩, rest⟩ := List.forall_mem_cons.1 h
      exact .cons (narrowItem_of_shows unstarred visible readable shows) (ih rest)
  · rw [← List.flatMap_def, List.flatMap_singleton']

end Item

/-- What remains of a selection, item by item and in order; all of it shows visible columns only,
and it is what remains of itself. -/
theorem narrow_of_parse {s : Selection} {d : Dialect} {m m' : Memo} {v : Viewer}
    {items kept : List Item} (unstarred : c.Unstarred)
    (parsed : s.parse c table d m = (.ok items, m')) (narrowed : narrow c table v items = .ok kept) :
    (∃ e own, c.entity table.entity = .ok e ∧
      visibleColumns c v.user table.entity = .ok own ∧ own.Sublist (e.columns true)) ∧
    (∃ parts, List.Forall₂ (Remains c v.user table) items parts ∧ kept = parts.flatten) ∧
    (∀ i ∈ kept, Shows c v.user table.entity i) ∧
    (∀ i ∈ items, Single i → (i ∈ kept ↔ Shows c v.user table.entity i)) ∧
    narrow c table v kept = .ok kept := by
  have readable : ∀ i ∈ items, Readable table i := by
    intro i mem
    obtain ⟨entry, _, denotes⟩ := denotes_of_parse parsed i mem
    exact readable_of_denotes denotes
  obtain ⟨own, parts, visible, each, rfl⟩ := narrow_eq_ok.1 narrowed
  obtain ⟨e, declared, sublist⟩ := visibleColumns_sublist visible
  have remains := remains_of_forall₂ visible readable each
  have shown := shows_of_forall₂ readable remains
  refine ⟨⟨e, own, declared, visible, sublist⟩, ⟨parts, remains, rfl⟩, fun i mem => (shown i mem).1,
    fun i mem single => ⟨fun left => (shown i left).1, fun shows => ?_⟩,
    narrow_of_shows unstarred visible shown⟩
  exact mem_of_shows single shows mem remains

theorem unstarred_of_entities
    (h : ∀ entry ∈ c.entities, ∀ f ∈ entry.2.fields, f.fieldname ≠ "*") : c.Unstarred := by
  intro entity e declared
  obtain ⟨entry, there, rfl⟩ := Catalog.entry_of_entity declared
  exact h entry there

def plainField (fieldname : String) : Catalog.Field := ⟨fieldname, .data, none, false, false⟩

def columnReader : Catalog :=
  (((Catalog.empty.withEntity "Task" ⟨false, [plainField "subject", plainField "budget",
    .link "project" "Project", ⟨"items", .table, some "Task Item", false, false⟩], []⟩).withEntity
      "Task Item" ⟨true, [plainField "qty", plainField "cost"], []⟩).grant "jane" "Task"
        ⟨[.read], [], some ["subject", "project"], none⟩).grant "jane" "Task Item"
          ⟨[.read], [], some ["qty"], none⟩

def taskColumns : Selection :=
  .entries [.text "*", .text "budget", .text "project.title", .child "items" ["*", "cost"],
    .child "items" ["cost"]]

def taskItems : List Item :=
  [.star (.ofEntity "Task"), .plain ((Table.ofEntity "Task").column "budget"),
    .reference ⟨"Project", "title", "Task", .link "project", none⟩,
    .child ⟨"items", ["*", "cost"], "Task", "Task Item"⟩,
    .child ⟨"items", ["cost"], "Task", "Task Item"⟩]

def visibleItems : List Item :=
  [.plain ((Table.ofEntity "Task").column "subject"),
    .plain ((Table.ofEntity "Task").column "project"),
    .reference ⟨"Project", "title", "Task", .link "project", none⟩,
    .child ⟨"items", ["qty"], "Task", "Task Item"⟩]

theorem narrow_of_parse_columns :
    (∃ m, taskColumns.parse columnReader (.ofEntity "Task") .mariadb (.empty 8) =
      (.ok taskItems, m)) ∧
    narrow columnReader (.ofEntity "Task") (.ofUser "jane") taskItems = .ok visibleItems ∧
    (∀ i ∈ visibleItems, Shows columnReader "jane" "Task" i) ∧
    narrow columnReader (.ofEntity "Task") (.ofUser "jane") visibleItems = .ok visibleItems := by
  have unstarred : columnReader.Unstarred := unstarred_of_entities (by decide)
  have read : (taskColumns.parse columnReader (.ofEntity "Task") .mariadb (.empty 8)).1 =
    .ok taskItems := rfl
  have parsed := Prod.ext read rfl
  have narrowed : narrow columnReader (.ofEntity "Task") (.ofUser "jane") taskItems =
    .ok visibleItems := rfl
  obtain ⟨_, _, shows, _, again⟩ := narrow_of_parse unstarred parsed narrowed
  exact ⟨⟨_, parsed⟩, narrowed, shows, again⟩

end Access

end ScopedQuery
