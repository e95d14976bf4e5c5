import ScopedQuery.Proofs.Function.Denotation
import ScopedQuery.Proofs.Sql.Mention

set_option autoImplicit false

namespace ScopedQuery.Function

open Sql

variable {own : Table} {d : Dialect}

theorem mem_apply {rule : ArgRule} {args : List Term} {t : Term} (mem : t ∈ rule.apply args) :
    t ∈ args ∨ ∃ s, t = .text s := by
  unfold ArgRule.apply at mem
  split at mem
  · exact .inl mem
  · exact .inl (by simpa [or_left_comm] using mem)
  · exact .inl mem
  · exact (List.mem_cons.1 mem).symm.imp_right fun eq => ⟨_, eq⟩
  · exact .inr ⟨_, List.mem_singleton.1 mem⟩

theorem mem_args_call {name : String} {args : List Term} {t : Term}
    (mem : t ∈ (call name args d).args) : t ∈ args ∨ ∃ s, t = .text s := by
  unfold call at mem
  split at mem
  · refine (mem_apply mem).imp_left fun given => ?_
    split at given
    · cases given
    · exact given
  · exact .inl mem

/-- Whether terms have a property as soon as their parts have it, among the terms that texts of
arguments denote. -/
structure Inherited (P : Term → Prop) : Prop where
  star : P (.star none)
  literal : ∀ v, P (.literal v)
  datePart : ∀ part, P (.datePart part)
  column : ∀ column, P (.column column)
  binary : ∀ left op right, P left → P right → P (.binary left op right)
  call : ∀ f : FunctionCall, (∀ t ∈ f.args, P t) → P f.term

namespace Inherited

variable {P : Term → Prop}

mutual

theorem of_denotes (h : Inherited P) : ∀ {text : List Char} {t : Term}, Denotes own d text t → P t
  | _, _, .star _ => h.star
  | _, _, .literal _ => h.literal _
  | _, _, .call _ made => h.call _ (of_denotesCall h made)
  | _, _, .binary _ _ hl hr => h.binary _ _ _ (of_denotes h hl) (of_denotes h hr)
  | _, _, .column read => by
    obtain ⟨c, _, resolved⟩ := Option.bind_eq_some_iff.1 read
    obtain ⟨column, _, rfl⟩ := Option.map_eq_some_iff.1 resolved
    exact h.column column

theorem of_denotesAll (h : Inherited P) : ∀ {texts : List (List Char)} {ts : List Term},
    DenotesAll own d texts ts → ∀ t ∈ ts, P t
  | _, _, .nil => nofun
  | _, _, .cons first rest =>
    List.forall_mem_cons.2 ⟨of_denotes h first, of_denotesAll h rest⟩

theorem of_denotesCall (h : Inherited P) : ∀ {name : List Char} {args : List (List Char)}
    {f : FunctionCall}, DenotesCall own d name args f → ∀ t ∈ f.args, P t
  | _, _, _, .extract _ _ _ date =>
    List.forall_mem_cons.2 ⟨h.datePart _, List.forall_mem_singleton.2 (of_denotes h date)⟩
  | _, _, _, .plain _ each => by
    intro t mem
    rcases mem_args_call mem with given | ⟨s, rfl⟩
    · exact of_denotesAll h each t given
    · exact h.literal _

end

theorem of_parseCall (h : Inherited P) {text : String} {f : FunctionCall}
    (read : parseCall own d text = .ok f) : P f.term := by
  unfold parseCall at read
  dsimp only at read
  split at read
  · next call parsed =>
    cases read
    obtain ⟨syntactic, _, parsed⟩ := Option.bind_eq_some_iff.1 parsed
    obtain ⟨call, made, eq⟩ := Option.bind_eq_some_iff.1 parsed
    have args := h.of_denotesCall (denotesCall_of_callOf made)
    cases eq
    exact h.call _ args
  · cases read

end Inherited

theorem inherited_transparent : Inherited Term.Transparent where
  star := Term.transparent_of_parts (by simp) (by simp)
  literal _ := Term.transparent_of_parts (by simp) (by simp)
  datePart _ := Term.transparent_of_parts (by simp) (by simp)
  column _ := Term.transparent_of_parts (by simp) (by simp)
  binary _ _ _ hl hr := Term.transparent_of_parts (by simp) (by simp [hl, hr])
  call f each := Term.transparent_of_parts (by simp [FunctionCall.term]) each

theorem transparent_of_parseCall {text : String} {f : FunctionCall}
    (h : parseCall own d text = .ok f) : f.term.Transparent :=
  inherited_transparent.of_parseCall h

end ScopedQuery.Function
