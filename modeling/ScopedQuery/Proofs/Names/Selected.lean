import ScopedQuery.Proofs.Function.Transparency
import ScopedQuery.Proofs.Lexical.Argument
import ScopedQuery.Proofs.Names.Proper
import ScopedQuery.Proofs.Request.Memory

set_option autoImplicit false

namespace ScopedQuery

open Sql Outcome

open Clause (ColumnText IsWord splitLabel spells_of_readName)

namespace Function

variable {c : Catalog} {own : Table} {d : Dialect} {entity user : String}

theorem isWord_spelling {e : Entry} (mem : e ∈ registry) (d : Dialect) :
    IsWord (e.spelling d).name.toList := by
  have named : registry.all fun e => !(e.spelling d).name.toList.isEmpty := by
    cases d <;> decide +kernel
  refine ⟨fun empty => ?_, isWordChar_spelling mem d⟩
  have nonempty := List.all_eq_true.1 named e mem
  rw [empty] at nonempty
  cases nonempty

theorem function_call (name : String) (args : List Term) (d : Dialect) :
    (∃ e ∈ registry, (call name args d).function = (e.spelling d).name) ∨
      isRecognized name = false ∧ (call name args d).function = name := by
  unfold call isRecognized
  cases found : lookup? name with
  | some e => exact .inl ⟨e, List.mem_of_find?_eq_some found, rfl⟩
  | none => exact .inr ⟨rfl, rfl⟩

theorem mem_registry_extract : plain "extract" "EXTRACT" ∈ registry := by decide +kernel

theorem function_of_denotesCall {name : List Char} {args : List (List Char)} {f : FunctionCall}
    (h : DenotesCall own d name args f) : f.label = none ∧
      ((∃ e ∈ registry, f.function = (e.spelling d).name) ∨
        isRecognized (String.ofList name) = false ∧ f.function = String.ofList name) := by
  cases h with
  | extract _ _ _ _ =>
    exact ⟨rfl, .inl ⟨_, mem_registry_extract, by cases d <;> rfl⟩⟩
  | plain _ _ =>
    refine ⟨?_, function_call _ _ _⟩
    unfold call
    split <;> rfl

mutual

theorem within_of_denotes (home : c.NamesTable own) : ∀ {text : List Char} {t : Term},
    Denotes own d text t → t.Within (c.vocabulary d entity user)
  | _, _, .star _ => .star nofun
  | _, _, .literal _ => .literal _
  | _, _, @Denotes.call _ _ _ call f read made => by
    obtain ⟨label, name⟩ := function_of_denotesCall made
    have known : ∃ e ∈ registry, f.function = (e.spelling d).name := by
      have registered := (Option.filter_eq_some_iff.1 read).2
      rw [Bool.and_eq_true_iff] at registered
      refine name.resolve_right fun other => ?_
      rw [other.1] at registered
      cases registered.2
    have inner := Term.Within.call (V := c.vocabulary d entity user) known
      (within_of_denotesCall home made)
    rw [← label] at inner
    exact inner
  | _, _, .binary _ _ hl hr => .binary (within_of_denotes home hl) (within_of_denotes home hr)
  | _, _, .column read => by
    obtain ⟨w, parsed, resolved⟩ := Option.bind_eq_some_iff.1 read
    obtain ⟨column, found, rfl⟩ := Option.map_eq_some_iff.1 resolved
    exact .column (Catalog.namesColumn_of_resolve? home (ColumnText.parse?_eq_some.1 parsed) found)

theorem within_of_denotesAll (home : c.NamesTable own) : ∀ {texts : List (List Char)}
    {ts : List Term}, DenotesAll own d texts ts → ∀ t ∈ ts, t.Within (c.vocabulary d entity user)
  | _, _, .nil => nofun
  | _, _, .cons first rest => by
    have head := within_of_denotes home first
    have tail := within_of_denotesAll home rest
    exact List.forall_mem_cons.2 ⟨head, tail⟩

theorem within_of_denotesCall (home : c.NamesTable own) : ∀ {name : List Char}
    {args : List (List Char)} {f : FunctionCall}, DenotesCall own d name args f →
    ∀ t ∈ f.args, t.Within (c.vocabulary d entity user)
  | _, _, _, .extract _ _ _ date => by
    have term := within_of_denotes home date
    exact List.forall_mem_cons.2 ⟨.datePart _, by simpa using term⟩
  | _, _, _, .plain _ each => by
    intro t mem
    rcases mem_args_call mem with given | ⟨s, rfl⟩
    · exact within_of_denotesAll home each t given
    · exact .literal _

end

theorem isWord_of_parse? {text : List Char} {call : CallText}
    (h : CallText.parse? text = some call) : IsWord call.name ∧ ∀ l ∈ call.label, IsWord l := by
  have word := isWordChar_name h
  unfold CallText.parse? at h
  dsimp only at h
  split at h
  · cases h
  · next named =>
    split at h
    · obtain ⟨label, labelled, rfl⟩ := Option.map_eq_some_iff.1 h
      refine ⟨⟨fun none => named none, word⟩, ?_⟩
      rintro l rfl
      unfold CallText.label? at labelled
      dsimp only at labelled
      split at labelled
      · next found =>
        split at labelled
        · cases labelled
          obtain ⟨rest, _, read⟩ := Option.bind_eq_some_iff.1 found
          obtain ⟨_, spells, _⟩ := spells_of_readName read
          exact ⟨spells.ne_nil, spells.within fun _ => id⟩
        · cases labelled
      · split at labelled <;> cases labelled
    · cases h
  · cases h

theorem selectedWithin_of_parseCall (home : c.NamesTable own) {text : String} {f : FunctionCall}
    (h : parseCall own d text = .ok f) : f.term.SelectedWithin (c.vocabulary d entity user) := by
  unfold parseCall at h
  dsimp only at h
  split at h
  · next call parsed =>
    cases h
    obtain ⟨syntactic, read, parsed⟩ := Option.bind_eq_some_iff.1 parsed
    obtain ⟨call, made, eq⟩ := Option.bind_eq_some_iff.1 parsed
    have denotes := denotesCall_of_callOf made
    obtain ⟨word, labels⟩ := isWord_of_parse? read
    have known : IsWord call.function.toList := by
      rcases (function_of_denotesCall denotes).2 with ⟨e, mem, name⟩ | ⟨_, name⟩
      · rw [name]
        exact isWord_spelling mem d
      · rw [name, String.toList_ofList]
        exact word
    have each : ∀ t ∈ call.args, t.Within (c.vocabulary d entity user) :=
      within_of_denotesCall home denotes
    cases eq
    refine .call known ?_ each
    rintro _ labelled
    obtain ⟨l, there, rfl⟩ := Option.map_eq_some_iff.1 labelled
    change IsWord (String.ofList l).toList
    rw [String.toList_ofList]
    exact labels l there
  · cases h

end Function

namespace Selection

variable {c : Catalog} {own : Table} {d : Dialect} {entity user : String} {m m' : Memo}

structure Item.Within (V : Vocabulary) (i : Item) : Prop where
  term : ∀ t ∈ i.term?, t.SelectedWithin V
  join : ∀ r, i = .reference r → V.table r.table ∧ r.joinCriterion.Within V

theorem Item.Within.of_term {V : Vocabulary} {i : Item} (other : ∀ r, i ≠ .reference r)
    (term : ∀ t ∈ i.term?, t.SelectedWithin V) : i.Within V :=
  ⟨term, fun r eq => absurd eq (other r)⟩

theorem Item.Within.plain {V : Vocabulary} {column : Column} (known : V.column column) :
    (Item.plain column).Within V :=
  .of_term nofun <| by
    rintro _ ⟨⟩
    exact .part (.column known)

section Text

variable {written text : String} (sanitized : sanitize d written = .ok text)

include sanitized

theorem isWord_label {expr : List Char} {label : Option (List Char)} {w : ColumnText}
    (split : splitLabel text.toList = (expr, label)) (spelled : w.SpelledBy expr) :
    ∀ l ∈ label.map String.ofList, IsWord l.toList := by
  intro _ labelled
  obtain ⟨l, rfl, rfl⟩ := Option.map_eq_some_iff.1 labelled
  unfold sanitize at sanitized
  split at sanitized
  · next selectable =>
    cases sanitized
    rw [String.toList_ofList] at split ⊢
    exact Clause.isWord_label selectable d split (ColumnText.parse?_eq_some.2 spelled)
  · cases sanitized

theorem within_reference {r : Reference} (home : c.NamesTable own)
    (read : Reference.parse c own.entity text = .ok (some r)) :
    (Item.reference r).Within (c.vocabulary d entity user) := by
  obtain ⟨owner, expr, label, split, labelled, leads⟩ := Reference.leads_of_parse read
  obtain ⟨w, spelled, _⟩ := leads.spelled
  have word : ∀ l ∈ r.label, IsWord l.toList := by
    rw [labelled]
    exact isWord_label sanitized split spelled
  constructor
  · rintro _ ⟨⟩
    exact .part (.column (Catalog.namesColumn_of_leads leads word))
  · rintro _ ⟨⟩
    rw [← owner] at leads
    refine ⟨Catalog.namesTable_of_leads leads, Catalog.within_joinCriterion ?_ leads⟩
    rw [owner, home.ofEntity_entity]
    exact home

theorem within_plain {column : Column} (home : c.NamesTable own)
    (read : plainColumn? own text.toList = some column) :
    (Item.plain column).Within (c.vocabulary d entity user) := by
  unfold plainColumn? at read
  obtain ⟨expr, label, split⟩ : ∃ expr label, splitLabel text.toList = (expr, label) :=
    ⟨_, _, rfl⟩
  rw [split] at read
  obtain ⟨w, parsed, read⟩ := Option.bind_eq_some_iff.1 read
  obtain ⟨column, resolved, read⟩ := Option.bind_eq_some_iff.1 read
  cases read
  have spelled := ColumnText.parse?_eq_some.1 parsed
  have names := Catalog.namesColumn_of_resolve? home spelled resolved
  exact .plain ⟨names.table, names.name, isWord_label sanitized split spelled⟩

theorem within_of_parseText {i : Item} (home : c.NamesTable own)
    (h : parseText c own d text = .ok i) : i.Within (c.vocabulary d entity user) := by
  unfold parseText at h
  dsimp only at h
  split at h
  · cases h
    refine .of_term nofun ?_
    rintro _ ⟨⟩
    exact .part (.star fun _ => by rintro ⟨⟩; exact home)
  split at h
  · split at h
    · cases h
      refine .of_term nofun ?_
      rintro _ ⟨⟩
      exact .part (.position _)
    · cases h
  split at h
  · obtain ⟨f, read, rfl⟩ := map_eq_ok.1 h
    refine .of_term nofun ?_
    rintro _ ⟨⟩
    exact Function.selectedWithin_of_parseCall home read
  obtain ⟨reference, read, h⟩ := bind_eq_ok.1 h
  split at h
  · cases h
    exact within_reference sanitized home read
  split at h
  · next column read =>
    cases h
    exact within_plain sanitized home read
  · cases h

end Text

theorem within_of_parseEntry {e : Entry} {i : Item} (home : c.NamesTable own) (sound : m.Sound)
    (textual : ∀ t, e ≠ .term t) (h : parseEntry c own d m e = (.ok (some i), m')) :
    i.Within (c.vocabulary d entity user) := by
  cases e with
  | term t => exact absurd rfl (textual t)
  | child fieldname fields =>
    rw [parseEntry, Prod.mk.injEq] at h
    obtain ⟨q, _, eq⟩ := map_eq_ok.1 h.1
    obtain ⟨q, rfl, rfl⟩ := Option.map_eq_some_iff.1 eq
    refine .of_term ?_ ?_ <;> rintro _ ⟨⟩
  | text written =>
    rw [parseEntry, Prod.mk.injEq] at h
    obtain ⟨text, sanitized, read⟩ := bind_eq_ok.1 h.1
    obtain ⟨item, read, eq⟩ := map_eq_ok.1 read
    cases eq
    rw [sound.sanitize_eq] at sanitized
    exact within_of_parseText sanitized home read

theorem within_of_parseEntries {es : List Entry} {items : List Item} (home : c.NamesTable own)
    (sound : m.Sound) (textual : ∀ t, .term t ∉ es)
    (h : parseEntries c own d es m = (.ok items, m')) :
    ∀ i ∈ items, i.Within (c.vocabulary d entity user) := by
  induction es generalizing m items with
  | nil =>
    cases h
    nofun
  | cons e es ih =>
    have first : ∀ t, e ≠ .term t := fun t eq => textual t (eq ▸ List.mem_cons_self)
    have others : ∀ t, .term t ∉ es := fun t mem => textual t (List.mem_cons_of_mem e mem)
    have left := (alike_parseEntry (c := c) (d := d) sound sound own e).left
    rw [parseEntries] at h
    split at h
    · cases h
    · next found m₁ read =>
      rw [read] at left
      rw [Prod.mk.injEq] at h
      obtain ⟨rest, reads, rfl⟩ := map_eq_ok.1 h.1
      refine List.forall_mem_append.2 ⟨?_, ih left others (Prod.ext reads h.2)⟩
      intro i mem
      obtain rfl : found = some i := by simpa using mem
      exact within_of_parseEntry home sound first read

end Selection

namespace Access

open Selection

variable {c : Catalog} {d : Dialect} {table : Table} {entity user : String} {v : Viewer}

theorem within_of_remains {i : Item} {list : List Item}
    (within : i.Within (c.vocabulary d entity user))
    (h : Remains c v.user table i list) : ∀ j ∈ list, j.Within (c.vocabulary d entity user) := by
  intro j mem
  cases h with
  | @star t _ visible =>
    obtain ⟨name, among, rfl⟩ := List.mem_map.1 mem
    have known : c.NamesTable t := by
      cases within.term _ rfl with
      | part inside =>
        cases inside with
        | star known => exact known _ rfl
    exact .plain (Catalog.namesColumn_own known (.inr (Catalog.supplies_of_visible visible among)))
  | child _ _ =>
    split at mem
    · cases mem
    · cases List.mem_singleton.1 mem
      exact .of_term nofun nofun
  | kept _ _ =>
    cases List.mem_singleton.1 mem
    exact within
  | dropped _ _ => cases mem

theorem within_of_narrow {items kept : List Item} (readable : ∀ i ∈ items, Readable table i)
    (within : ∀ i ∈ items, i.Within (c.vocabulary d entity user))
    (narrowed : narrow c table v items = .ok kept) :
    ∀ i ∈ kept, i.Within (c.vocabulary d entity user) := by
  obtain ⟨_, parts, visible, each, rfl⟩ := narrow_eq_ok.1 narrowed
  intro i mem
  obtain ⟨list, there, mem⟩ := List.mem_flatten.1 mem
  obtain ⟨item, given, made⟩ := mem_of_mapM (mapM_eq_ok.2 each) there
  have remains := remains_of_narrowItem visible (readable item given) made
  exact within_of_remains (within item given) remains i mem

end Access

end ScopedQuery
