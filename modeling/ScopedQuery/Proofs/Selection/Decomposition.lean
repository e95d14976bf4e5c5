import ScopedQuery.Proofs.Clause.Cut
import ScopedQuery.Proofs.Function.Recognition
import ScopedQuery.Proofs.Selection.Listing

set_option autoImplicit false

/-!
Columns that are selected by their texts. The table, the column and the label that a text is put
together from are those of the item it is read as, unless the table shows AS between blanks: such a
text passes the check and is cut inside of the quotation.
-/

namespace ScopedQuery.Selection

open Clause (ColumnText HasAs Labels splitLabel)
open Sql (Dialect)

variable {c : Catalog} {own : Sql.Table} {d : Dialect} {m : Memo} {w : ColumnText}
  {front back : List Char} {label : Option (List Char)} {selection : Selection}

def labelled (own : Sql.Table) (w : ColumnText) (label : Option (List Char)) : Sql.Column :=
  ⟨(w.table.map Sql.Table.mk).getD own, w.column, label.map String.ofList⟩

/-- Whether the table of a written column, if there is one, is a physical one and has not the name
of a field of the entity that is queried. -/
structure Qualified (e : Catalog.Entity) (w : ColumnText) : Prop where
  physical : ∀ table ∈ w.table, (Sql.Table.afterPrefix? table).isSome
  apart : ∀ table ∈ w.table, ∀ f ∈ e.fields, f.fieldname ≠ table

/-- Whether an item is a written column with its label: a plain column, or a column of the child
rows that the table holds. -/
inductive Means (own : Sql.Table) (w : ColumnText) (label : Option (List Char)) : Item → Prop
  | plain : Means own w label (.plain (labelled own w label))
  | child {entity : String} (table : w.table = some (Sql.Table.namePrefix ++ entity)) :
    Means own w label
      (.reference ⟨entity, w.column, own.entity, .rows none, label.map String.ofList⟩)

variable {e : Catalog.Entity}

theorem Qualified.resolve?_eq (h : Qualified e w) :
    w.resolve? own = some { labelled own w none with label := none } := by
  unfold ColumnText.resolve? ColumnText.physicalTable?
  cases named : w.table with
  | none => simp [labelled, named, Sql.Table.column]
  | some table => simp [labelled, named, h.physical table named, Sql.Table.column]

theorem Qualified.of_leads (h : Qualified e w) (known : c.entity own.entity = .ok e)
    (read : ColumnText.parse? front = some w) {entity column : String} {route : Route}
    (leads : Leads c own.entity front entity column route) :
    w.table = some (Sql.Table.namePrefix ++ entity) ∧ w.column = column ∧ route = .rows none := by
  have reads {v : ColumnText} (spelled : v.SpelledBy front) : w = v :=
    Option.some.inj (read.symm.trans (ColumnText.parse?_eq_some.2 spelled))
  cases leads with
  | table found =>
    obtain ⟨⟨table, _⟩, pair, found⟩ := Option.bind_eq_some_iff.1 found
    obtain ⟨target, behind, found⟩ := Option.bind_eq_some_iff.1 found
    split at found
    · cases found
    cases found
    obtain rfl := Sql.Table.afterPrefix?_eq_some.1 behind
    rw [reads (spelled_of_quotedPair? pair)]
    exact ⟨rfl, rfl, rfl⟩
  -- A field that leads elsewhere would have the name of the table in front of the column.
  | link pair declared mem _ _ =>
    cases known.symm.trans declared
    have same := reads (spelled_of_dottedPair? pair)
    exact absurd rfl (h.apart _ (by rw [same]; rfl) _ mem)
  | collection pair declared mem _ _ =>
    cases known.symm.trans declared
    have same := reads (spelled_of_dottedPair? pair)
    exact absurd rfl (h.apart _ (by rw [same]; rfl) _ mem)

section Parts

variable {text : String} (whole : text.toList = front ++ back)
  (spelled : w.SpelledBy front) (labels : Labels label back)

include whole spelled labels

theorem plain_of_labels : ∀ x ∈ text.toList, x ∉ ['*', '('] := by
  have absent {p : Char → Bool} (apart : ['*', '('].any p = false) (x : Char) (h : p x) :
      x ∉ ['*', '('] := fun mem => List.any_eq_false.1 apart x mem h
  have word := @absent Text.isWordChar (by decide)
  have quote := @absent Clause.isNameQuote (by decide)
  have blank := @absent Text.isBlank (by decide)
  have letter := @absent (fun x => ['a', 's'].contains (Text.foldLetter x)) (by decide)
  rw [whole, List.forall_mem_append]
  constructor
  · have entity := @absent Clause.isEntityChar (by decide)
    exact spelled.chars (fun table named x mem =>
      entity x (spelled.isEntityChar_table table named x mem)) word quote (by decide)
  · cases labels with
    | bare => exact List.forall_mem_nil _
    | labelled _ gap fold fold' _ gap' spells =>
      rw [List.forall_mem_append, List.forall_mem_cons, List.forall_mem_cons,
        List.forall_mem_append]
      exact ⟨fun x mem => blank x (gap x mem), letter _ (by rw [fold]; rfl),
        letter _ (by rw [fold']; rfl), fun x mem => blank x (gap' x mem),
        spells.chars (fun x mem => word x (spells.within (fun _ => id) x mem)) quote⟩

theorem parseText_of_plain (digits : Text.isDigits text.toList = false) :
    parseText c own d text = (Reference.parse c own.entity text).bind fun r =>
      match r with
      | some r => .ok (.reference r)
      | none => match plainColumn? own text.toList with
        | some column => .ok (.plain column)
        | none => .error (.unparsableField text) := by
  have plain := plain_of_labels whole spelled labels
  have star : (text.toList == ['*']) = false := by
    rw [beq_eq_false_iff_ne]
    intro same
    exact plain '*' (by rw [same]; exact List.mem_cons_self) (by decide)
  have unmentioned : Function.mentionsCall text.toList = false := by
    rw [Bool.eq_false_iff]
    intro mentioned
    exact plain '(' (Function.paren_mem_of_mentionsCallFrom mentioned) (by decide)
  unfold parseText
  simp only [star, digits, unmentioned, Bool.false_eq_true, ↓reduceIte]
  rfl

theorem parseText_of_labels (known : c.entity own.entity = .ok e) (qualified : Qualified e w)
    (plain : ∀ table ∈ w.table, ¬ HasAs table.toList)
    (digits : Text.isDigits text.toList = false) :
    ∃ i, parseText c own d text = .ok i ∧ Means own w label i := by
  have divided : splitLabel text.toList = (front, label) := by
    rw [whole]
    exact Clause.splitLabel_of_labels spelled labels plain
  have read := ColumnText.parse?_eq_some.2 spelled
  rw [parseText_of_plain whole spelled labels digits]
  cases referred : Reference.parse c own.entity text with
  | error fault =>
    rw [Reference.parse_eq_error referred] at known
    cases known
  | ok found =>
    cases found with
    | none =>
      have column : plainColumn? own text.toList = some (labelled own w label) := by
        unfold plainColumn?
        rw [divided]
        dsimp only
        rw [read, Option.bind_eq_bind, Option.bind_some, qualified.resolve?_eq]
        rfl
      refine ⟨_, ?_, .plain⟩
      dsimp only [Except.bind]
      rw [column]
    | some r =>
      obtain ⟨owner, expr, label', divided', same, leads⟩ := Reference.leads_of_parse referred
      obtain ⟨rfl, rfl⟩ := Prod.mk.inj (divided.symm.trans divided')
      obtain ⟨table, column, routed⟩ := qualified.of_leads known read leads
      have child : Item.reference r =
          .reference ⟨r.entity, w.column, own.entity, .rows none, label.map String.ofList⟩ := by
        rw [← owner, column, ← routed, ← same]
      exact ⟨.reference r, rfl, child ▸ .child table⟩

theorem parseText_of_hasAs (has : ∃ table ∈ w.table, HasAs table.toList) :
    parseText c own d text = .error (.unparsableField text) := by
  have other : ∀ w : ColumnText, ¬ w.SpelledBy (splitLabel text.toList).1 := by
    rw [whole]
    exact Clause.not_spelledBy_of_hasAs spelled has back
  have point : '.' ∈ text.toList := by
    obtain ⟨table, named, _⟩ := has
    rw [whole]
    cases spelled with
    | bare column => cases named
    | qualified table column => simp
  have digits : Text.isDigits text.toList = false := by
    rw [Bool.eq_false_iff]
    intro digits
    exact absurd ((Clause.IsWord.of_isDigits digits).2 '.' point) (by decide)
  rw [parseText_of_plain whole spelled labels digits, Reference.parse_of_not_column other]
  dsimp only [Except.bind]
  rw [plainColumn?_of_not_column other]

omit spelled labels whole in
theorem parseText_of_isDigits (digits : Text.isDigits text.toList) :
    parseText c own d text = match Decimal.unsignedOfDigits? text.toList with
      | some n => .ok (.position n)
      | none => .error (.unparsableField text) := by
  have star : (text.toList == ['*']) = false := by
    rw [beq_eq_false_iff_ne]
    intro same
    rw [same] at digits
    exact absurd digits (by decide)
  cases read : Decimal.unsignedOfDigits? text.toList <;> simp [parseText, star, digits, read]

/-- The parts of a selected column. A text that is put together from a table, a column and a label
is read as the column of that table under that label, of the queried entity or of the rows of
another one, with two exceptions: a bare run of digits is a position, and a quoted table that shows
AS between blanks makes the text unreadable. -/
theorem parse_labels (sound : m.Sound) (known : c.entity own.entity = .ok e)
    (qualified : Qualified e w) (single : Single text selection) :
    ((∃ table ∈ w.table, HasAs table.toList) →
      (selection.parse c own d m).1 = .error (.unparsableField text)) ∧
    (Text.isDigits text.toList →
      (selection.parse c own d m).1 = match Decimal.unsignedOfDigits? text.toList with
        | some n => .ok [.position n]
        | none => .error (.unparsableField text)) ∧
    ((∀ table ∈ w.table, ¬ HasAs table.toList) → Text.isDigits text.toList = false →
      ∃ i, (selection.parse c own d m).1 = .ok [i] ∧ Means own w label i) := by
  have column : Clause.isLabelledColumn text.toList := by
    rw [whole]
    exact labels.isLabelledColumn spelled
  have selectable : Clause.isSelectable text.toList := by simp [Clause.isSelectable, column]
  have clean : sanitize d text = .ok text := by
    unfold sanitize
    rw [if_pos selectable, (Clause.sanitized_of_isLabelledColumn column d).1, String.ofList_toList]
  have read : (selection.parse c own d m).1 = (parseText c own d text).map fun i => [i] := by
    rw [single.parse_eq sound (Clause.solid_of_isSelectable selectable)
      (Clause.uncut_of_isLabelledColumn column), clean]
    rfl
  rw [read]
  refine ⟨fun has => ?_, fun digits => ?_, fun plain digits => ?_⟩
  · rw [parseText_of_hasAs whole spelled labels has]
    rfl
  · rw [parseText_of_isDigits digits]
    split <;> rfl
  · obtain ⟨i, item, parts⟩ := parseText_of_labels whole spelled labels known qualified plain digits
    rw [item]
    exact ⟨i, rfl, parts⟩

end Parts

def itemsOfTasks : Catalog :=
  Catalog.empty.withEntity "Task" ⟨false, [⟨"items", .table, some "Task Item", false, false⟩], []⟩

theorem parse_labels_items : ∃ i,
    ((Selection.text "`tabTask Item`.qty  As `n`").parse itemsOfTasks (.ofEntity "Task") .mariadb
      (.empty 8)).1 = .ok [i] ∧
    Means (.ofEntity "Task") ⟨some "tabTask Item", "qty"⟩ (some "n".toList) i := by
  have spelled : (⟨some "tabTask Item", "qty"⟩ : ColumnText).SpelledBy
      "`tabTask Item`.qty".toList :=
    ColumnText.parse?_eq_some.1 rfl
  have quoted : Clause.Spells Text.isWordChar "n".toList "`n`".toList :=
    .quoted rfl (by decide) (List.all_eq_true.1 rfl)
  have labels : Labels (some "n".toList) ("  ".toList ++ 'A' :: 's' :: (" ".toList ++ _)) :=
    .labelled (by decide) (List.all_eq_true.1 rfl) rfl rfl (by decide) (List.all_eq_true.1 rfl)
      quoted
  exact (parse_labels rfl spelled labels (Memo.sound_empty 8) rfl ⟨by decide, by decide⟩
    .text).2.2 (by decide) (by decide)

/-- A column that is written like any other, and is not read. -/
theorem parse_labels_saveAs :
    (⟨some "tabSave as Draft", "name"⟩ : ColumnText).SpelledBy "`tabSave as Draft`.`name`".toList ∧
      ((Selection.entries [.text "`tabSave as Draft`.`name`"]).parse itemsOfTasks (.ofEntity "Task")
        .mariadb (.empty 8)).1 = .error (.unparsableField "`tabSave as Draft`.`name`") :=
  ⟨ColumnText.parse?_eq_some.1 rfl, rfl⟩

end ScopedQuery.Selection
