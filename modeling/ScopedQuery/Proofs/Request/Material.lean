import ScopedQuery.Proofs.Request.Growth
import ScopedQuery.Proofs.Request.Textual

set_option autoImplicit false

namespace ScopedQuery.Request

open Sql Outcome

/-- Whether some terms and criteria are among others all that a document can put into a query. -/
structure Material (c : Catalog) (d : Dialect) (own : Table) (T : Term → Prop)
    (C : Criterion → Prop) : Prop where
  star : T (.star (some own))
  column : ∀ column : Column, T (.column column)
  position : ∀ n, T (.position n)
  call : ∀ text f, Function.parseCall own d text = .ok f → T f.term
  child : ∀ table owner, C (Selection.childRowsOf table owner none)
  reference : ∀ r : Selection.Reference, C r.joinCriterion
  made : ∀ token op column value criterion, Filter.Operator.parse token = .ok op →
    Filter.criterionOf c op column value = .ok criterion → C criterion

namespace Material

variable {T : Term → Prop} {C : Criterion → Prop} {c : Catalog} {d : Dialect} {own : Table}
  {v : Viewer} {r : Request} {m m' : Memo} {q q' : Query}

theorem term_of_denotes (h : Material c d own T C) {e : Selection.Entry} {i : Selection.Item}
    (denotes : Selection.Denotes c own d e i) (written : ∀ t, e ≠ .term t) :
    ∀ t ∈ i.term?, T t := by
  cases denotes with
  | star =>
    rintro t ⟨⟩
    exact h.star
  | position n =>
    rintro t ⟨⟩
    exact h.position n
  | reference _ | plain _ =>
    rintro t ⟨⟩
    exact h.column _
  | call read =>
    rintro t ⟨⟩
    exact h.call _ _ read
  | child _ => nofun
  | term t => exact absurd rfl (written t)

theorem terms_of_selectItems (h : Material c d own T C) {fields : Option Selection}
    {items : List Selection.Item} (textual : ∀ s ∈ fields, s.Textual)
    (found : selectItems c d v own fields m = (.ok items, m')) :
    ∀ i ∈ items, ∀ t ∈ i.term?, T t := by
  obtain ⟨parsed, read, found⟩ := selectItems_ok found
  have terms : ∀ i ∈ parsed, ∀ t ∈ i.term?, T t := by
    intro i mem
    obtain ⟨e, there, denotes⟩ := Selection.denotes_of_parse read i mem
    refine h.term_of_denotes denotes ?_
    rintro t rfl
    exact Selection.textual_getD textual t there
  split at found
  · intro i mem
    rcases Access.narrow_ok found i mem with selected | ⟨own, name, _, rfl⟩ | ⟨_, _, _, rfl⟩
    · exact terms i selected
    · rintro t ⟨⟩
      exact h.column _
    · nofun
  · cases found
    exact terms

theorem grows (h : Material c d own T C) (textual : r.Textual)
    (select : selectFields c d v r own m = (.ok q, m')) (arrange : arrange c r q = .ok q') :
    Grows T C (.new r.mode own d) q' := by
  have picked : Grows T C (.new r.mode own d) q := by
    rcases selectFields_ok select with ⟨items, found, rfl⟩ | rfl
    · exact Selection.grows_selectAll h.reference (h.terms_of_selectItems textual.fields found)
        h.column _
    · exact .refl _
  refine picked.trans (grows_arrange (fun filtered filter => ?_) h.column h.position arrange)
  unfold filterRows at filter
  split at filter
  · next f given =>
    obtain ⟨j, rfl⟩ := textual.filters f given
    refine Filter.grows_apply (fun _ _ => h.child _ _) h.reference h.made ?_ filter
    exact fun criterion mem => absurd mem (Filter.criterion_not_mem_stepsOfJson criterion j)
  · cases filter
    exact .refl q

end Material

end ScopedQuery.Request
