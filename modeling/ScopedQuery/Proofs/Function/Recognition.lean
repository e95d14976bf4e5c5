import ScopedQuery.Function.Registry
import ScopedQuery.Proofs.Clause.Labelling

set_option autoImplicit false

/-!
Where a text calls a registered function. The search runs over the whole text and knows neither
quotations nor parentheses: a call is found at its name, in its arguments, and in what it quotes.
-/

namespace ScopedQuery

open Clause (IsWord)

namespace Text

variable {c : Char}

theorem afterFolded?_map (fold : Char → Char) (front rest : List Char) :
    afterFolded? fold (front.map fold) (front ++ rest) = some rest := by
  induction front with
  | nil => rfl
  | cons c front ih =>
    rw [List.map_cons, List.cons_append, afterFolded?, if_pos (beq_self_eq_true _), ih]

theorem isUnicodeWord_of_isWordChar (h : isWordChar c) : isUnicodeWord c := by
  have code := Clause.code_of_isWordChar h
  have ascii : c.toNat < 0x80 := by omega
  unfold isUnicodeWord
  rw [if_pos ascii]
  exact h

theorem foldLetter_of_isWordChar (h : isWordChar c) : foldLetter c = c.toLower := by
  have long : (c == '\u017f') = false := by
    rw [beq_eq_false_iff_ne]
    rintro rfl
    exact absurd h (by decide)
  have kelvin : (c == '\u212a') = false := by
    rw [beq_eq_false_iff_ne]
    rintro rfl
    exact absurd h (by decide)
  rw [foldLetter, long, kelvin]
  rfl

end Text

namespace Function

open Text (foldLetter isUnicodeWord isWordChar lowerAscii)

variable {cs name r : List Char} {c x : Char} {inWord : Bool}

theorem isWordChar_key : ∀ e ∈ registry, ∀ k ∈ e.key.toList, isWordChar k := by
  have all : registry.all fun e => e.key.toList.all isWordChar := by decide
  exact fun e registered => List.all_eq_true.1 (List.all_eq_true.1 all e registered)

theorem startsCall_iff : startsCall cs ↔ ∃ e ∈ registry, ∃ front rest,
    cs = front ++ '(' :: rest ∧ front.map foldLetter = e.key.toList := by
  rw [startsCall, List.any_eq_true]
  refine exists_congr fun e => and_congr_right fun _ => ?_
  constructor
  · intro called
    split at called
    · next rest behind =>
      obtain ⟨front, eq, folded⟩ := Text.afterFolded?_append behind
      exact ⟨front, rest, eq, folded⟩
    · cases called
  · rintro ⟨front, rest, rfl, folded⟩
    rw [← folded, Text.afterFolded?_map]
    rfl

theorem paren_mem_of_startsCall (h : startsCall cs) : '(' ∈ cs := by
  obtain ⟨_, _, front, rest, rfl, _⟩ := startsCall_iff.1 h
  exact List.mem_append_right front List.mem_cons_self

structure Outside (x : Char) : Prop where
  letter : isWordChar (foldLetter x) = false
  paren : x ≠ '('

theorem Outside.not_mem {e : Entry} {front : List Char} (h : Outside x) (registered : e ∈ registry)
    (folded : front.map foldLetter = e.key.toList) : x ∉ front := by
  intro mem
  have letter := isWordChar_key e registered _ (folded ▸ List.mem_map_of_mem mem)
  rw [h.letter] at letter
  cases letter

theorem startsCall_append (apart : Outside x) (cs r : List Char) :
    startsCall (cs ++ x :: r) = startsCall cs := by
  rw [Bool.eq_iff_iff, startsCall_iff, startsCall_iff]
  refine exists_congr fun e => and_congr_right fun registered => ?_
  constructor
  · rintro ⟨front, rest, eq, folded⟩
    rcases List.append_eq_append_iff.1 eq with ⟨more, rfl, behind⟩ | ⟨more, rfl, behind⟩
    · cases more with
      | nil =>
        cases behind
        exact absurd rfl apart.paren
      | cons y more =>
        cases behind
        exact absurd (by simp) (apart.not_mem registered folded)
    · cases more with
      | nil =>
        cases behind
        exact absurd rfl apart.paren
      | cons y more =>
        cases behind
        exact ⟨front, more, rfl, folded⟩
  · rintro ⟨front, rest, rfl, folded⟩
    exact ⟨front, rest ++ x :: r, by simp, folded⟩

theorem startsCall_cons (apart : Outside x) (r : List Char) : startsCall (x :: r) = false :=
  startsCall_append apart [] r

theorem startsCall_name (word : IsWord name) (r : List Char) :
    startsCall (name ++ '(' :: r) = isRecognized (String.ofList name) := by
  have lower : name.map foldLetter = lowerAscii name :=
    List.map_congr_left fun c mem => Text.foldLetter_of_isWordChar (word.2 c mem)
  rw [Bool.eq_iff_iff, startsCall_iff, isRecognized, lookup?, List.find?_isSome,
    String.toList_ofList]
  refine exists_congr fun e => and_congr_right fun registered => ?_
  rw [beq_iff_eq]
  constructor
  · rintro ⟨front, rest, eq, folded⟩
    have upTo {front r : List Char} (plain : ∀ c ∈ front, c ≠ '(') :
        (front ++ '(' :: r).takeWhile (· != '(') = front :=
      Clause.takeWhile_append (by simpa using plain) (by rintro _ ⟨⟩; decide)
    have letters : ∀ c ∈ front, c ≠ '(' := by
      rintro c mem rfl
      have letter := isWordChar_key e registered _ (folded ▸ List.mem_map_of_mem mem)
      exact absurd letter (by decide)
    have plain : ∀ c ∈ name, c ≠ '(' := by
      rintro c mem rfl
      exact absurd (word.2 _ mem) (by decide)
    have same := congrArg (List.takeWhile (· != '(')) eq
    rw [upTo plain, upTo letters] at same
    rw [← folded, ← same, lower]
  · intro key
    exact ⟨name, r, rfl, lower.trans key.symm⟩

theorem paren_mem_of_mentionsCallFrom (h : mentionsCallFrom inWord cs) : '(' ∈ cs := by
  induction cs generalizing inWord with
  | nil => cases h
  | cons x cs ih =>
    rw [mentionsCallFrom, Bool.or_eq_true_iff, Bool.and_eq_true_iff] at h
    rcases h with ⟨_, starts⟩ | later
    · exact paren_mem_of_startsCall starts
    · exact List.mem_cons_of_mem x (ih later)

/-- The calls on the two sides of a character that cannot be in a call's name. -/
theorem mentionsCallFrom_append (apart : Outside x) (cs r : List Char) :
    mentionsCallFrom inWord (cs ++ x :: r) =
      (mentionsCallFrom inWord cs || mentionsCallFrom (isUnicodeWord x) r) := by
  induction cs generalizing inWord with
  | nil =>
    change (!inWord && startsCall (x :: r) || mentionsCallFrom (isUnicodeWord x) r) = _
    rw [startsCall_cons apart, Bool.and_false]
    rfl
  | cons c cs ih =>
    rw [List.cons_append, mentionsCallFrom, ih, ← List.cons_append, startsCall_append apart,
      mentionsCallFrom, Bool.or_assoc]

/-- Behind a word character no name begins before the word is over. -/
theorem mentionsCallFrom_word (word : ∀ c ∈ name, isWordChar c) (r : List Char) :
    mentionsCallFrom true (name ++ '(' :: r) = mentionsCallFrom false r := by
  induction name with
  | nil => rfl
  | cons c name ih =>
    obtain ⟨first, others⟩ := List.forall_mem_cons.1 word
    rw [List.cons_append, mentionsCallFrom, Text.isUnicodeWord_of_isWordChar first, ih others]
    rfl

/-- A text that is written as a call calls a registered function if it has the name of one, or if
what is in its parentheses does. -/
theorem mentionsCall_name (word : IsWord name) (r : List Char) :
    mentionsCall (name ++ '(' :: r) =
      (isRecognized (String.ofList name) || mentionsCall r) := by
  rw [← startsCall_name word r]
  obtain ⟨c, rest, rfl⟩ := List.exists_cons_of_ne_nil word.1
  obtain ⟨first, others⟩ := List.forall_mem_cons.1 word.2
  rw [mentionsCall, List.cons_append, mentionsCallFrom, Text.isUnicodeWord_of_isWordChar first,
    mentionsCallFrom_word others]
  rfl

end Function

end ScopedQuery
