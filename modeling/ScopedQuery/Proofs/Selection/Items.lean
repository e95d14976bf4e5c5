import ScopedQuery.Access.Columns
import ScopedQuery.Proofs.Outcome
import ScopedQuery.Selection.Parse

set_option autoImplicit false

namespace ScopedQuery.Selection

open Outcome

inductive Denotes (c : Catalog) (own : Sql.Table) (d : Sql.Dialect) : Entry → Item → Prop
  | star {written : String} : Denotes c own d (.text written) (.star own)
  | position {written : String} (n : Nat) : Denotes c own d (.text written) (.position n)
  | call {written text : String} {f : Sql.FunctionCall}
    (read : Function.parseCall own d text = .ok f) : Denotes c own d (.text written) (.call f)
  | reference {written text : String} {r : Reference}
    (read : Reference.parse c own.entity text = .ok (some r)) :
    Denotes c own d (.text written) (.reference r)
  | plain {written : String} {cs : List Char} {column : Sql.Column}
    (read : plainColumn? own cs = some column) : Denotes c own d (.text written) (.plain column)
  | child {fieldname : String} {fields : List String} {q : Sql.ChildQuery}
    (found : childQuery? c own.entity fieldname fields = .ok (some q)) :
    Denotes c own d (.child fieldname fields) (.child q)
  | term (t : Sql.Term) : Denotes c own d (.term t) (.term t)

variable {c : Catalog} {own : Sql.Table} {d : Sql.Dialect} {m m' : Memo}

theorem denotes_of_parseText (written : String) {text : String} {i : Item}
    (h : parseText c own d text = .ok i) : Denotes c own d (.text written) i := by
  unfold parseText at h
  dsimp only at h
  split at h
  · cases h
    exact .star
  split at h
  · split at h
    · cases h
      exact .position _
    · cases h
  split at h
  · obtain ⟨f, read, rfl⟩ := map_eq_ok.1 h
    exact .call read
  obtain ⟨reference, read, h⟩ := bind_eq_ok.1 h
  split at h
  · cases h
    exact .reference read
  split at h
  · next column read =>
    cases h
    exact .plain read
  · cases h

theorem denotes_of_parseEntry {e : Entry} {i : Item}
    (h : parseEntry c own d m e = (.ok (some i), m')) : Denotes c own d e i := by
  cases e with
  | term t =>
    cases h
    exact .term t
  | child fieldname fields =>
    rw [parseEntry, Prod.mk.injEq] at h
    obtain ⟨q, found, eq⟩ := map_eq_ok.1 h.1
    obtain ⟨q, rfl, rfl⟩ := Option.map_eq_some_iff.1 eq
    exact .child found
  | text written =>
    rw [parseEntry, Prod.mk.injEq] at h
    obtain ⟨sanitized, _, h⟩ := bind_eq_ok.1 h.1
    obtain ⟨item, read, eq⟩ := map_eq_ok.1 h
    cases eq
    exact denotes_of_parseText written read

theorem denotes_of_parseEntries {es : List Entry} {items : List Item}
    (h : parseEntries c own d es m = (.ok items, m')) :
    ∀ i ∈ items, ∃ e ∈ es, Denotes c own d e i := by
  induction es generalizing m items with
  | nil =>
    cases h
    simp
  | cons e es ih =>
    rw [parseEntries] at h
    split at h
    · cases h
    · next found m₁ first =>
      rw [Prod.mk.injEq] at h
      obtain ⟨others, rest, rfl⟩ := map_eq_ok.1 h.1
      intro i hi
      rcases List.mem_append.1 hi with hi | hi
      · obtain rfl : found = some i := by simpa using hi
        exact ⟨e, List.mem_cons_self, denotes_of_parseEntry first⟩
      · obtain ⟨e', mem, denotes⟩ := ih (Prod.ext rest h.2) i hi
        exact ⟨e', List.mem_cons_of_mem _ mem, denotes⟩

theorem denotes_of_parse {s : Selection} {items : List Item}
    (h : s.parse c own d m = (.ok items, m')) :
    ∀ i ∈ items, ∃ e ∈ s.toEntries, Denotes c own d e i :=
  denotes_of_parseEntries h

end ScopedQuery.Selection

namespace ScopedQuery.Access

open Selection Outcome

variable {c : Catalog}

/-- What remains for a viewer was selected, or is a column in place of a star, or a child query with
fewer columns. -/
theorem narrow_ok {table : Sql.Table} {v : Viewer} {items kept : List Item}
    (h : narrow c table v items = .ok kept) :
    ∀ i ∈ kept, i ∈ items ∨ (∃ t name, .star t ∈ items ∧ i = .plain (Sql.Table.column t name)) ∨
      ∃ q visible, .child q ∈ items ∧ i = .child (narrowChild visible q) := by
  unfold narrow at h
  obtain ⟨own, _, h⟩ := bind_eq_ok.1 h
  obtain ⟨lists, narrowed, h⟩ := bind_eq_ok.1 h
  cases h
  intro i hi
  obtain ⟨list, mem, hi⟩ := List.mem_flatten.1 hi
  obtain ⟨item, hitem, found⟩ := mem_of_mapM narrowed mem
  -- Most items are kept as they are or not at all.
  have kept : ∀ {seen : Result Bool}, narrowItem.keepIf seen item = .ok list → i = item := by
    intro seen found
    obtain ⟨b, _, rfl⟩ := map_eq_ok.1 found
    cases b with
    | false => cases hi
    | true => exact List.mem_singleton.1 hi
  cases item with
  | star t =>
    cases found
    obtain ⟨name, _, rfl⟩ := List.mem_map.1 hi
    exact .inr (.inl ⟨t, name, hitem, rfl⟩)
  | child q =>
    obtain ⟨visible, _, found⟩ := bind_eq_ok.1 found
    cases found
    split at hi
    · cases hi
    · exact .inr (.inr ⟨q, visible, hitem, List.mem_singleton.1 hi⟩)
  | plain column => exact .inl (kept found ▸ hitem)
  | call f => exact .inl (kept found ▸ hitem)
  | reference r =>
    rw [narrowItem] at found
    split at found <;> exact .inl (kept found ▸ hitem)
  | position n =>
    cases found
    exact .inl (List.mem_singleton.1 hi ▸ hitem)
  | term t =>
    cases found
    exact .inl (List.mem_singleton.1 hi ▸ hitem)

end ScopedQuery.Access
