import ScopedQuery.Clause.Order
import ScopedQuery.Proofs.Clause.Labelling
import ScopedQuery.Proofs.Function.Atom

set_option autoImplicit false

namespace ScopedQuery

namespace Text

variable {sep : Char → Bool} {a b cs : List Char} {mark : Char}

/-- Whether a scan for separators passes over a text: it closes all that it opens, and shows no
separator at its top level. -/
structure Uncut (sep : Char → Bool) (cs : List Char) : Prop where
  balanced : Balanced cs
  avoids : Nesting.top.Avoids sep cs

theorem Uncut.append (ha : Uncut sep a) (hb : Uncut sep b) : Uncut sep (a ++ b) where
  balanced := ha.balanced.append hb.balanced
  avoids := Nesting.avoids_append.2 ⟨ha.avoids, by rw [ha.balanced.ends]; exact hb.avoids⟩

theorem uncut_of_plain (plain : ∀ c ∈ cs, isMark c = false ∧ sep c = false) : Uncut sep cs where
  balanced := balanced_of_not_isMark fun c mem => (plain c mem).1
  avoids := Nesting.avoids_of_forall fun c mem => (plain c mem).2

theorem uncut_quotation (quote : isQuote mark) (apart : sep mark = false)
    (closed : ∀ c ∈ cs, c ≠ mark) : Uncut sep (mark :: (cs ++ [mark])) := by
  have balanced := balanced_quoted quote cs
  have avoids := avoids_quoted quote apart cs
  rw [doubling_eq_self closed] at balanced avoids
  exact ⟨balanced, avoids⟩

theorem Balanced.uncut_parenthesized (h : Balanced cs) (apart : sep '(' = false) :
    Uncut sep ('(' :: (cs ++ [')'])) :=
  ⟨h.parenthesized, avoids_parenthesized h apart⟩

end Text

namespace Clause

open Text (Uncut)

variable {cs text rest l name : List Char} {w : ColumnText}

abbrev isComma (c : Char) : Bool := c == ','

def heeded : List Char :=
  [Text.singleQuote, Text.doubleQuote, Text.backtick, '(', ')', ',']

theorem plain_of_apart {p : Char → Bool} {c : Char} (apart : heeded.any p = false) (h : p c) :
    Text.isMark c = false ∧ isComma c = false := by
  have absent : c ∉ heeded := fun mem => List.any_eq_false.1 apart c mem h
  simp only [heeded, List.mem_cons, List.not_mem_nil, or_false, not_or] at absent
  obtain ⟨single, double, back, opening, closing, comma⟩ := absent
  simp [Text.isMark, Text.isQuote, single, double, back, opening, closing, comma]

theorem uncut_of_forall {p : Char → Bool} (apart : heeded.any p = false) (h : ∀ c ∈ cs, p c) :
    Uncut isComma cs :=
  Text.uncut_of_plain fun c mem => plain_of_apart apart (h c mem)

def isNameChar (c : Char) : Bool := Text.isWordChar c || isNameQuote c || c == '.'

section Names

variable {sep : Char → Bool} (apart : ∀ c, isNameChar c → sep c = false)

include apart

theorem Spells.uncut {inside : Char → Bool} (quotes : ∀ c, isNameQuote c → inside c = false)
    (h : Spells inside name text) : Uncut sep text := by
  cases h with
  | bare _ word =>
    refine Text.uncut_of_plain fun c mem => ⟨Function.not_isMark (word c mem), apart c ?_⟩
    simp [isNameChar, word c mem]
  | @quoted mark quote _ within =>
    have isQuote : Text.isQuote mark := by
      rcases isNameQuote_iff.1 quote with rfl | rfl <;> decide
    refine Text.uncut_quotation isQuote (apart mark (by simp [isNameChar, quote])) ?_
    intro c mem same
    have out := within c mem
    rw [same, quotes mark quote] at out
    cases out

theorem ColumnText.SpelledBy.uncut (h : w.SpelledBy text) : Uncut sep text := by
  cases h with
  | bare column => exact column.uncut apart fun _ => not_isWordChar_of_isNameQuote
  | qualified table column =>
    have front := table.uncut apart fun _ => not_isEntityChar_of_isNameQuote
    have back := column.uncut apart fun _ => not_isWordChar_of_isNameQuote
    have point : Uncut sep ['.'] :=
      Text.uncut_of_plain (List.forall_mem_singleton.2 ⟨by decide, apart '.' (by decide)⟩)
    simpa using front.append (point.append back)

end Names

theorem not_isComma_of_isNameChar (c : Char) (h : isNameChar c) : isComma c = false := by
  rw [beq_eq_false_iff_ne]
  rintro rfl
  exact absurd h (by decide)

theorem Spells.uncut_word (h : Spells Text.isWordChar name text) : Uncut isComma text :=
  h.uncut not_isComma_of_isNameChar fun _ => not_isWordChar_of_isNameQuote

theorem uncut_of_afterAs? {blank : Char → Bool} {fold : Char → Char}
    (apart : heeded.any (fun c => blank c || ['a', 's'].contains (fold c)) = false)
    (h : afterAs? blank fold cs = some l) (label : Uncut isComma l) : Uncut isComma cs := by
  obtain ⟨front, rfl, each, _⟩ := afterAs?_front h
  refine Text.Uncut.append (uncut_of_forall apart fun c mem => ?_) label
  rw [Bool.or_eq_true, List.contains_iff_mem]
  exact each c mem

theorem uncut_of_isLabelledColumn (h : isLabelledColumn cs) : Uncut isComma cs := by
  obtain ⟨w, text, rest, spelled, rfl, _, rfl | ⟨name, l, _, introduced, spells⟩⟩ :=
    spelled_of_isLabelledColumn h
  · rw [List.append_nil]
    exact spelled.uncut not_isComma_of_isNameChar
  · have column := spelled.uncut not_isComma_of_isNameChar
    exact column.append (uncut_of_afterAs? (by decide) introduced spells.uncut_word)

/-- Texts that no comma cuts come back from the list of them, as far as they are not blank. -/
theorem entries_intercalate {texts : List (List Char)} (each : ∀ a ∈ texts, Uncut isComma a) :
    entries ([','].intercalate texts) = (texts.map Text.trim).filter fun e => !e.isEmpty := by
  cases texts with
  | nil => rfl
  | cons a texts =>
    have whole : Text.parts ',' ([','].intercalate (a :: texts)) = a :: texts :=
      Text.parts_intercalate (by decide) (List.cons_ne_nil a texts) fun a mem =>
        ⟨(each a mem).balanced, (each a mem).avoids⟩
    rw [entries, whole]

end Clause

namespace Function.CallText

open Text (Uncut)
open Clause (isComma)

variable {cs rest : List Char} {call : CallText} {label : Option (List Char)}

theorem uncut_of_label? (h : label? rest = some label) : Uncut isComma rest := by
  have layout {cs : List Char} (all : cs.all Text.isLayout) : Uncut isComma cs :=
    Clause.uncut_of_forall (by decide) (List.all_eq_true.1 all)
  unfold label? at h
  dsimp only at h
  split at h
  · next name behind found =>
    obtain ⟨l, introduced, read⟩ := Option.bind_eq_some_iff.1 found
    split at h
    · next blank =>
      obtain ⟨text, spells, rfl⟩ := Clause.spells_of_readName read
      exact Clause.uncut_of_afterAs? (by decide) introduced
        (spells.uncut_word.append (layout blank))
    · cases h
  · split at h
    · next blank => exact layout blank
    · cases h

theorem uncut_of_parse? (h : parse? cs = some call) : Uncut isComma (Text.trim cs) := by
  obtain ⟨inside, rest, whole, word, balanced, _, label⟩ := parse?_eq_some.1 h
  have name : Uncut isComma call.name := Clause.uncut_of_forall (by decide) word.2
  have arguments : Uncut isComma ('(' :: (inside ++ [')'])) :=
    balanced.uncut_parenthesized (by decide)
  have text := name.append (arguments.append (uncut_of_label? label))
  rw [whole]
  simpa using text

end Function.CallText

namespace Clause

open Text (Uncut Solid)

variable {cs : List Char}

theorem last_of_label? {name : List Char} (h : label? cs = some name) :
    ∃ c, cs.getLast? = some c ∧ Text.isBlank c = false := by
  obtain ⟨l, introduced, spells⟩ := spells_of_label? h
  obtain ⟨front, rfl, _⟩ := afterAs?_front introduced
  obtain ⟨c, last, solid⟩ := spells.solid.last
  refine ⟨c, ?_, solid⟩
  rw [List.getLast?_append, last]
  rfl

theorem last_of_closesCall (h : closesCall cs) :
    ∃ c, cs.getLast? = some c ∧ Text.isBlank c = false := by
  induction cs with
  | nil => cases h
  | cons c r ih =>
    have further (found : ∃ x, r.getLast? = some x ∧ Text.isBlank x = false) :
        ∃ x, (c :: r).getLast? = some x ∧ Text.isBlank x = false := by
      obtain ⟨x, last, solid⟩ := found
      refine ⟨x, ?_, solid⟩
      rw [List.getLast?_cons, last]
      rfl
    rw [closesCall, Bool.or_eq_true, Bool.and_eq_true, Bool.and_eq_true, Bool.or_eq_true] at h
    rcases h with ⟨closes, none | labelled⟩ | ⟨_, rest⟩
    · rw [List.isEmpty_iff.1 none, beq_iff_eq.1 closes]
      exact ⟨')', rfl, by decide⟩
    · obtain ⟨name, label⟩ := Option.isSome_iff_exists.1 labelled
      exact further (last_of_label? label)
    · exact further (ih rest)

theorem solid_of_isSelectable (h : isSelectable cs) : Solid cs := by
  unfold isSelectable at h
  simp only [Bool.or_eq_true] at h
  rcases h with ((star | digits) | column) | call
  · obtain rfl : cs = ['*'] := by simpa using star
    exact ⟨⟨'*', rfl, by decide⟩, '*', rfl, by decide⟩
  · have word := IsWord.of_isDigits digits
    have spells : Spells Text.isWordChar cs cs := .bare word.1 word.2
    exact spells.solid
  · obtain ⟨w, text, rest, spelled, rfl, _, rfl | ⟨name, l, _, introduced, spells⟩⟩ :=
      spelled_of_isLabelledColumn column
    · rw [List.append_nil]
      exact spelled.solid
    · obtain ⟨front, rfl, _⟩ := afterAs?_front introduced
      exact spelled.solid.around spells.solid front
  · obtain ⟨name, r, word, rfl, closes⟩ := word_of_isCallShape call
    obtain ⟨c, last, solid⟩ := last_of_closesCall closes
    refine ⟨⟨name.head word.1, ?_, not_isBlank_of_isWordChar (word.2 _ (List.head_mem _))⟩,
      c, ?_, solid⟩
    · rw [List.head?_append, List.head?_eq_some_head word.1]
      rfl
    · rw [List.getLast?_append, List.getLast?_cons, last]
      rfl

end Clause

end ScopedQuery
