import ScopedQuery.Proofs.Memo.Sound
import ScopedQuery.Proofs.Request.Stages

set_option autoImplicit false

namespace ScopedQuery

open Sql

structure Memo.Alike {α : Type} (a b : α × Memo) : Prop where
  value : a.1 = b.1
  left : a.2.Sound
  right : b.2.Sound

namespace Memo.Alike

variable {α β : Type} {a b : α × Memo}

theorem map (h : Alike a b) (f : α → β) : Alike (f a.1, a.2) (f b.1, b.2) :=
  ⟨congrArg f h.value, h.left, h.right⟩

end Memo.Alike

open Memo (Alike)

variable {c : Catalog} {d : Dialect} {v : Viewer} {m m' : Memo} (h : m.Sound) (h' : m'.Sound)

include h h'

theorem Memo.alike_sanitize (text : String) : Alike (m.sanitize d text) (m'.sanitize d text) where
  value := by rw [h.sanitize_eq, h'.sanitize_eq]
  left := h.sanitize d text
  right := h'.sanitize d text

namespace Selection

theorem alike_parseEntry (own : Table) (e : Entry) :
    Alike (parseEntry c own d m e) (parseEntry c own d m' e) := by
  cases e with
  | term t => exact ⟨rfl, h, h'⟩
  | child fieldname fields => exact ⟨rfl, h, h'⟩
  | text written =>
    exact (Memo.alike_sanitize h h' written).map fun sanitized =>
      sanitized.bind fun s => (parseText c own d s).map some

theorem alike_parseEntries (own : Table) (es : List Entry) :
    Alike (parseEntries c own d es m) (parseEntries c own d es m') := by
  induction es generalizing m m' with
  | nil => exact ⟨rfl, h, h'⟩
  | cons e es ih =>
    have first := alike_parseEntry (c := c) (d := d) h h' own e
    rw [parseEntries, parseEntries]
    generalize parseEntry c own d m e = p at first ⊢
    generalize parseEntry c own d m' e = p' at first ⊢
    obtain ⟨read, n⟩ := p
    obtain ⟨read', n'⟩ := p'
    obtain ⟨value, left, right⟩ := first
    cases value
    cases read with
    | error fault => exact ⟨rfl, left, right⟩
    | ok item =>
      -- The first entry leaves sound memories, and the others are read with those.
      exact (ih left right).map fun items => items.map (item.toList ++ ·)

end Selection

namespace Request

theorem alike_selectItems (table : Table) (fields : Option Selection) :
    Alike (selectItems c d v table fields m) (selectItems c d v table fields m') := by
  cases fields with
  | none => exact ⟨rfl, h, h'⟩
  | some s =>
    exact (Selection.alike_parseEntries h h' table s.toEntries).map fun items =>
      items.bind fun items => if v.confinesColumns then Access.narrow c table v items else .ok items

theorem alike_selectFields (r : Request) (table : Table) :
    Alike (selectFields c d v r table m) (selectFields c d v r table m') := by
  unfold selectFields
  cases r.mode with
  | select =>
    exact (alike_selectItems h h' table r.fields).map fun items =>
      items.map (Selection.selectAll (Query.new .select table d))
  | update => exact ⟨rfl, h, h'⟩
  | insert => exact ⟨rfl, h, h'⟩
  | delete => exact ⟨rfl, h, h'⟩

theorem alike_asked (r : Request) : Alike (asked c d v r m) (asked c d v r m') := by
  unfold asked
  cases passGate c v r with
  | error e => exact ⟨rfl, h, h'⟩
  | ok table =>
    exact (alike_selectFields h h' r table).map fun picked => picked.bind (arrange c r)

theorem alike_build (s : Settings) (r : Request) :
    Alike (r.build c s v m) (r.build c s v m') := by
  rw [build_eq, build_eq]
  exact (alike_asked h h' r).map fun asked => asked.bind (confine c s.strictUserPermissions v)

end Request

end ScopedQuery
