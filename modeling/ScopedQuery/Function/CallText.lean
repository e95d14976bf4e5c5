import ScopedQuery.Clause.Label
import ScopedQuery.Text.Nesting

set_option autoImplicit false

namespace ScopedQuery.Function

structure CallText where
  name : List Char
  args : List (List Char)
  label : Option (List Char)
  deriving DecidableEq, Repr

namespace CallText

/-- The arguments inside the parentheses of a call; blanks alone are no argument. -/
def arguments (inside : List Char) : List (List Char) :=
  if Text.isBlankText inside then [] else (Text.parts ',' inside).map Text.trim

/-- The label behind a call. Layout characters may follow it, or stand in its place. -/
def label? (rest : List Char) : Option (Option (List Char)) :=
  let behindAs := Clause.afterAs? Text.isLayout Char.toLower rest
  match behindAs.bind (Clause.readName Text.isWordChar) with
  | some (name, behind) => if behind.all Text.isLayout then some (some name) else none
  | none => if rest.all Text.isLayout then some none else none

def parse? (text : List Char) : Option CallText :=
  let cs := Text.trim text
  match cs.takeWhile Text.isWordChar, cs.dropWhile Text.isWordChar with
  | [], _ => none
  | name, '(' :: r =>
    match Text.closing? r with
    | some (inside, rest) => (label? rest).map fun label => ⟨name, arguments inside, label⟩
    | none => none
  | _, _ => none

theorem weight_arguments_le (inside : List Char) :
    Text.weight (arguments inside) ≤ inside.length + 1 := by
  unfold arguments
  split
  · simp [Text.weight]
  · have shorter : ∀ ps : List (List Char), Text.weight (ps.map Text.trim) ≤ Text.weight ps := by
      intro ps
      induction ps with
      | nil => simp [Text.weight]
      | cons p ps ih =>
        have := Text.length_trim_le p
        simp only [Text.weight, List.map_cons]
        omega
    exact Nat.le_trans (shorter _) (Nat.le_of_eq (Text.weight_partsFrom ',' .top inside))

theorem weight_of_parse? {text : List Char} {c : CallText} (h : parse? text = some c) :
    Text.weight c.args < text.length := by
  have trimmed := Text.length_trim_le text
  have cut : ((Text.trim text).takeWhile Text.isWordChar).length +
      ((Text.trim text).dropWhile Text.isWordChar).length = (Text.trim text).length := by
    rw [← List.length_append, List.takeWhile_append_dropWhile]
  unfold parse? at h
  simp only at h
  split at h
  · cases h
  · next name r eqDrop _ =>
    split at h
    · next inside rest closed =>
      obtain ⟨label, _, rfl⟩ := Option.map_eq_some_iff.1 h
      have inner := weight_arguments_le inside
      have := Text.length_of_closingFrom closed
      rw [eqDrop] at cut
      simp only [List.length_cons] at cut
      show Text.weight (arguments inside) < text.length
      omega
    · cases h
  · cases h

end CallText

end ScopedQuery.Function
