import ScopedQuery.Proofs.Function.Recognition
import ScopedQuery.Proofs.Function.Rereading
import ScopedQuery.Proofs.Selection.Listing

set_option autoImplicit false

namespace ScopedQuery

open Sql (Dialect Kept)
open Text (Solid Uncut singleQuote)

theorem Text.solid_quoted (s : List Char) : Solid (singleQuote :: (s ++ [singleQuote])) := by
  refine ⟨⟨singleQuote, rfl, by decide⟩, singleQuote, ?_, by decide⟩
  rw [← List.cons_append, List.getLast?_concat]

theorem Function.isRecognized_of_isExtract {name : List Char} (h : isExtract name) :
    isRecognized (String.ofList name) := by
  rw [isRecognized, lookup?, List.find?_isSome]
  refine ⟨plain "extract" "EXTRACT", by decide, ?_⟩
  rw [String.toList_ofList, beq_iff_eq]
  exact (beq_iff_eq.1 h).symm

namespace Clause

variable {cs name : List Char}

theorem closesCall_append (line : ∀ c ∈ cs, c ≠ '\n') : closesCall (cs ++ [')']) := by
  induction cs with
  | nil => rfl
  | cons c cs ih =>
    obtain ⟨first, others⟩ := List.forall_mem_cons.1 line
    rw [List.cons_append, closesCall, ih others]
    simp [first]

theorem isCallShape_name (word : IsWord name) (r : List Char) :
    isCallShape (name ++ '(' :: r) = closesCall r := by
  have stop : ∀ c ∈ ('(' :: r).head?, Text.isWordChar c = false := by
    rintro _ ⟨⟩
    decide
  unfold isCallShape
  rw [takeWhile_append word.2 stop, dropWhile_append word.2 stop]
  obtain ⟨x, rest, rfl⟩ := List.exists_cons_of_ne_nil word.1
  rfl

end Clause

namespace Selection

open Clause (IsWord isCallShape)

variable {c : Catalog} {own : Sql.Table} {d : Dialect} {m : Memo} {name s t : List Char}

/-- A text that is written as a call can be selected as a call only, and not at all where it calls
no registered function. -/
theorem parseText_of_isCallShape {text : String} (shape : isCallShape text.toList) :
    parseText c own d text =
      if Function.mentionsCall text.toList then (Function.parseCall own d text).map .call
      else .error (.unparsableField text) := by
  obtain ⟨name, r, word, whole, _⟩ := Clause.word_of_isCallShape shape
  have paren : '(' ∈ text.toList := by
    rw [whole]
    simp
  have star : (text.toList == ['*']) = false := by
    rw [beq_eq_false_iff_ne]
    intro same
    rw [same] at paren
    exact absurd paren (by decide)
  have digits : Text.isDigits text.toList = false := by
    rw [Bool.eq_false_iff]
    intro digits
    exact absurd ((IsWord.of_isDigits digits).2 '(' paren) (by decide)
  have other (w : Clause.ColumnText) : ¬ w.SpelledBy (Clause.splitLabel text.toList).1 := by
    intro spelled
    rw [Clause.isCallShape_of_splitLabel rfl spelled] at shape
    cases shape
  unfold parseText
  simp only [star, digits, Reference.parse_of_not_column other, plainColumn?_of_not_column other,
    Bool.false_eq_true, ↓reduceIte]
  rfl

def quotedCall (name s : List Char) : List Char :=
  name ++ '(' :: (singleQuote :: (s ++ [singleQuote]) ++ [')'])

/-- Whether a text can be quoted on one line as it stands. -/
def Quotable (s : List Char) : Prop := ∀ c ∈ s, c ≠ singleQuote ∧ c ≠ '\n'

instance (s : List Char) : Decidable (Quotable s) := List.decidableBAll _ s

theorem isCallShape_quotedCall (word : IsWord name) (quotable : Quotable s) :
    isCallShape (quotedCall name s) := by
  rw [quotedCall, Clause.isCallShape_name word]
  refine Clause.closesCall_append ?_
  rw [List.forall_mem_cons, List.forall_mem_append]
  exact ⟨by decide, fun c mem => (quotable c mem).2, List.forall_mem_singleton.2 (by decide)⟩

theorem mentionsCall_quotedCall (word : IsWord name)
    (unregistered : Function.isRecognized (String.ofList name) = false) (s : List Char) :
    Function.mentionsCall (quotedCall name s) = Function.mentionsCall s := by
  have quote : Function.Outside singleQuote := ⟨by decide, by decide⟩
  rw [quotedCall, Function.mentionsCall_name word, unregistered, Bool.false_or]
  calc Function.mentionsCall (singleQuote :: (s ++ [singleQuote]) ++ [')'])
      = Function.mentionsCall ([] ++ singleQuote :: (s ++ singleQuote :: [')'])) := by simp
    _ = Function.mentionsCall (s ++ singleQuote :: [')']) :=
        Function.mentionsCallFrom_append quote [] _
    _ = (Function.mentionsCall s || Function.mentionsCall [')']) :=
        Function.mentionsCallFrom_append quote s _
    _ = Function.mentionsCall s := Bool.or_false _

theorem sanitize_quotedCall (word : IsWord name) (quotable : Quotable s) :
    sanitize d (String.ofList (quotedCall name s)) = .ok (String.ofList (quotedCall name s)) := by
  have closed : singleQuote ∉ s := fun mem => (quotable _ mem).1 rfl
  have front : Kept d (name ++ ['(']) := Sql.kept_of_plain <| by
    rw [List.forall_mem_append]
    exact ⟨fun c mem => Clause.not_mem_openers_of_isWordChar (word.2 c mem),
      List.forall_mem_singleton.2 (by decide)⟩
  have back : Kept d [')'] := Sql.kept_of_plain (List.forall_mem_singleton.2 (by decide))
  have kept : Kept d (quotedCall name s) := by
    simpa [quotedCall] using front.append ((Sql.kept_quotation rfl closed).append back)
  have selectable : Clause.isSelectable (quotedCall name s) := by
    simp [Clause.isSelectable, isCallShape_quotedCall word quotable]
  unfold sanitize
  rw [String.toList_ofList, if_pos selectable, kept.stripComments_eq,
    (Clause.solid_of_isSelectable selectable).trim_eq]

theorem argument_quoted (quotable : Quotable s) :
    Function.argument own d (singleQuote :: (s ++ [singleQuote])) =
      some (.text (String.ofList s)) := by
  have doubled : Text.doubling singleQuote s = s :=
    Text.doubling_eq_self fun c mem => (quotable c mem).1
  have solid := Text.solid_quoted s
  have read := Function.literal?_quoted s
  rw [doubled] at read
  rw [Function.argument_eq solid.trim_eq (List.cons_ne_nil _ _) (by simp [singleQuote]), read]
  rfl

theorem parseCall_quotedCall (word : IsWord name)
    (unregistered : Function.isRecognized (String.ofList name) = false) (quotable : Quotable s) :
    Function.parseCall own d (String.ofList (quotedCall name s)) =
      .ok ⟨String.ofList name, [.text (String.ofList s)], none⟩ := by
  have uncut : Uncut Clause.isComma (singleQuote :: (s ++ [singleQuote])) :=
    Text.uncut_quotation rfl (by decide) fun c mem => (quotable c mem).1
  have args := Function.arguments_intercalate (List.forall_mem_singleton.2
    ⟨uncut.balanced, uncut.avoids, Text.solid_quoted s⟩)
  rw [List.intercalate_singleton] at args
  have other : Function.isExtract name = false := by
    rw [Bool.eq_false_iff]
    intro extract
    rw [Function.isRecognized_of_isExtract extract] at unregistered
    cases unregistered
  have unknown : Function.lookup? (String.ofList name) = none := by
    simpa [Function.isRecognized] using unregistered
  have settled : Function.call (String.ofList name) [.text (String.ofList s)] d =
      ⟨String.ofList name, [.text (String.ofList s)], none⟩ := by
    rw [Function.call, unknown]
  have read : Function.arguments own d [singleQuote :: (s ++ [singleQuote])] =
      some [.text (String.ofList s)] := by
    rw [Function.arguments, argument_quoted quotable, Function.arguments]
    rfl
  have made : Function.callOf own d name [singleQuote :: (s ++ [singleQuote])] =
      some ⟨String.ofList name, [.text (String.ofList s)], none⟩ := by
    have extracts : Function.isExtract (String.ofList name).toList = false := by
      rwa [String.toList_ofList]
    have found := Function.callOf_eq extracts settled read
    rwa [String.toList_ofList] at found
  unfold Function.parseCall
  rw [String.toList_ofList, quotedCall, Function.parse?_call word uncut.balanced, args]
  simp only [Option.bind_eq_bind, Option.bind_some, made]
  rfl

theorem parseText_quotedCall (word : IsWord name)
    (unregistered : Function.isRecognized (String.ofList name) = false) (quotable : Quotable s) :
    parseText c own d (String.ofList (quotedCall name s)) =
      if Function.mentionsCall s then
        .ok (.call ⟨String.ofList name, [.text (String.ofList s)], none⟩)
      else .error (.unparsableField (String.ofList (quotedCall name s))) := by
  have shape := isCallShape_quotedCall word quotable
  rw [parseText_of_isCallShape (by rwa [String.toList_ofList]), String.toList_ofList,
    mentionsCall_quotedCall word unregistered, parseCall_quotedCall word unregistered quotable]
  rfl

section Selected

variable {selection selection' : Selection} {m' : Memo} (sound : m.Sound) (sound' : m'.Sound)
  (word : IsWord name) (unregistered : Function.isRecognized (String.ofList name) = false)

include sound word unregistered

theorem parse_quotedCall (quotable : Quotable s)
    (single : Single (String.ofList (quotedCall name s)) selection) :
    (selection.parse c own d m).1 =
      if Function.mentionsCall s then
        .ok [.call ⟨String.ofList name, [.text (String.ofList s)], none⟩]
      else .error (.unparsableField (String.ofList (quotedCall name s))) := by
  have solid : Solid (quotedCall name s) := Clause.solid_of_isSelectable <| by
    simp [Clause.isSelectable, isCallShape_quotedCall word quotable]
  have front : Uncut Clause.isComma name := Clause.uncut_of_forall (by decide) word.2
  have quoted : Uncut Clause.isComma (singleQuote :: (s ++ [singleQuote])) :=
    Text.uncut_quotation rfl (by decide) fun c mem => (quotable c mem).1
  have uncut : Uncut Clause.isComma (quotedCall name s) :=
    front.append (quoted.balanced.uncut_parenthesized (by decide))
  rw [single.parse_eq sound (by rwa [String.toList_ofList]) (by rwa [String.toList_ofList]),
    sanitize_quotedCall word quotable]
  change Except.map _ (parseText c own d (String.ofList (quotedCall name s))) = _
  rw [parseText_quotedCall word unregistered quotable]
  split <;> rfl

include sound'

/-- Whether a function outside of the registry may be called depends on the text it is called with:
one text is accepted like another exactly if both or none of them call a registered function. -/
theorem accepts_quotedCall_iff (quotable : Quotable s) (quotable' : Quotable t)
    (single : Single (String.ofList (quotedCall name s)) selection)
    (single' : Single (String.ofList (quotedCall name t)) selection') :
    ((∃ items, (selection.parse c own d m).1 = .ok items) ↔
      ∃ items, (selection'.parse c own d m').1 = .ok items) ↔
      (Function.mentionsCall s ↔ Function.mentionsCall t) := by
  have accepted {s : List Char} {selection : Selection} {m : Memo} (sound : m.Sound)
      (quotable : Quotable s) (single : Single (String.ofList (quotedCall name s)) selection) :
      (∃ items, (selection.parse c own d m).1 = .ok items) ↔ Function.mentionsCall s := by
    rw [parse_quotedCall sound word unregistered quotable single]
    split
    · next mentioned => simp [mentioned]
    · next unmentioned => simp [unmentioned]
  rw [accepted sound quotable single, accepted sound' quotable' single']

end Selected

theorem isWord_foo : IsWord "foo".toList := by decide

theorem accepts_quotedCall_iff_plain :
    ((∃ items, ((Selection.text "foo('x')").parse .empty (.ofEntity "Task") .mariadb
        (.empty 8)).1 = .ok items) ↔
      ∃ items, ((Selection.entries [.text "foo('y z')"]).parse .empty (.ofEntity "Task") .mariadb
        (.empty 8)).1 = .ok items) ↔
      (Function.mentionsCall "x".toList ↔ Function.mentionsCall "y z".toList) :=
  accepts_quotedCall_iff (Memo.sound_empty 8) (Memo.sound_empty 8) isWord_foo (by decide)
    (by decide) (by decide) .text .entry

/-- One text is refused and another one accepted, since a registered function is named in it. -/
theorem quotedCall_accepted_by_text :
    ¬ ((∃ items, ((Selection.text "foo('x')").parse .empty (.ofEntity "Task") .mariadb
        (.empty 8)).1 = .ok items) ↔
      ∃ items, ((Selection.text "foo('count(x)')").parse .empty (.ofEntity "Task") .mariadb
        (.empty 8)).1 = .ok items) := by
  have refused : ((Selection.text "foo('x')").parse .empty (.ofEntity "Task") .mariadb
      (.empty 8)).1 = .error (.unparsableField "foo('x')") :=
    parse_quotedCall (s := "x".toList) (Memo.sound_empty 8) isWord_foo (by decide) (by decide) .text
  have accepted : ((Selection.text "foo('count(x)')").parse .empty (.ofEntity "Task") .mariadb
      (.empty 8)).1 = .ok [.call ⟨"foo", [.text "count(x)"], none⟩] :=
    parse_quotedCall (s := "count(x)".toList) (Memo.sound_empty 8) isWord_foo (by decide)
      (by decide) .text
  rw [refused, accepted]
  simp

end Selection

end ScopedQuery
