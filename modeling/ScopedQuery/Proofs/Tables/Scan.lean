import ScopedQuery.Access.Gate
import ScopedQuery.Proofs.Selection.Leads
import ScopedQuery.Proofs.Text.TopLevel

set_option autoImplicit false

/-!
The scan for mentions of tables in SQL text. A mention takes its characters away from the mentions
behind it, so that a quoted table is found only if no earlier mention swallows its opening mark. That
happens in no text behind which every mention that has begun has ended, a calm one.
-/

namespace ScopedQuery.Access

open Sql Clause

def isUnquoted (cs : List Char) : Bool := cs.all fun c => !isNameQuote c

/-- Whether no mention that begins in a text can be closed by a quote mark right behind it: no mark
with the head of a table after it is followed by characters of an entity up to the end. -/
def Calm (cs : List Char) : Prop :=
  ∀ mark x, isNameQuote mark → (∀ c ∈ x, isEntityChar c) → ¬ (mark :: 't' :: x) <:+ cs

variable {a b cs entity rest front back : List Char} {c mark : Char}

section Calm

theorem isUnquoted_iff : isUnquoted cs ↔ ∀ c ∈ cs, isNameQuote c = false := by
  simp [isUnquoted]

theorem Calm.of_suffix (h : Calm cs) (suffix : a <:+ cs) : Calm a :=
  fun mark x quote within inside => h mark x quote within (inside.trans suffix)

theorem calm_of_unquoted (h : isUnquoted cs) : Calm cs := by
  intro mark x quote _ inside
  have plain := isUnquoted_iff.1 h mark (inside.subset List.mem_cons_self)
  rw [quote] at plain
  cases plain

theorem calm_of_getLast? (last : cs.getLast? = some c) (stop : isEntityChar c = false) :
    Calm cs := by
  intro mark x _ within inside
  obtain ⟨start, rfl⟩ := inside
  rw [List.getLast?_append_cons, List.getLast?_cons_cons] at last
  have letter : ∀ c ∈ 't' :: x, isEntityChar c := List.forall_mem_cons.2 ⟨rfl, within⟩
  have entity := letter c (List.mem_of_getLast? last)
  rw [stop] at entity
  cases entity

theorem Calm.append (ha : Calm a) (hb : Calm b)
    (apart : (∀ c ∈ a.getLast?, isNameQuote c = false) ∨ b.head? ≠ some 't') : Calm (a ++ b) := by
  rintro mark x quote within ⟨start, eq⟩
  rcases List.append_eq_append_iff.1 eq with ⟨left, rfl, beyond⟩ | ⟨left, rfl, beyond⟩
  · -- The mark stands in the first text, with some of what follows it.
    cases left with
    | nil => exact hb mark x quote within ⟨[], beyond⟩
    | cons m left =>
      rw [List.cons_append, List.cons.injEq] at beyond
      obtain ⟨rfl, beyond⟩ := beyond
      cases left with
      | nil =>
        rw [List.nil_append] at beyond
        subst beyond
        rcases apart with last | head
        · have plain := last mark (by simp)
          rw [quote] at plain
          cases plain
        · exact head rfl
      | cons y left =>
        rw [List.cons_append, List.cons.injEq] at beyond
        obtain ⟨rfl, rfl⟩ := beyond
        refine ha mark left quote (fun c mem => within c ?_) (List.suffix_append _ _)
        exact List.mem_append_left _ mem
  · exact hb mark x quote within ⟨left, beyond.symm⟩

end Calm

section Mentions

theorem quotedMention?_eq_some :
    quotedMention? cs = some (entity, rest) ↔ ∃ mark close, isNameQuote mark ∧ isNameQuote close ∧
      cs = mark :: (Table.namePrefix.toList ++ (entity ++ close :: rest)) ∧ entity ≠ [] ∧
      ∀ c ∈ entity, isEntityChar c := by
  constructor
  · intro h
    unfold quotedMention? at h
    split at h
    · cases h
    next mark r =>
    split at h
    · next quote =>
      split at h
      · next r found =>
        split at h
        · next e es close rest taken left =>
          split at h
          · next closes =>
            cases h
            refine ⟨mark, close, quote, closes, ?_, List.cons_ne_nil _ _, fun c mem => ?_⟩
            · rw [← taken, ← left, List.takeWhile_append_dropWhile, ← Text.after?_eq_some.1 found]
            · rw [← taken] at mem
              exact List.all_eq_true.1 List.all_takeWhile c mem
          · cases h
        · cases h
      · cases h
    · cases h
  · rintro ⟨mark, close, quote, closes, rfl, ne, within⟩
    have stop : ∀ c ∈ (close :: rest).head?, isEntityChar c = false := by
      rintro _ ⟨⟩
      exact not_isEntityChar_of_isNameQuote closes
    have after : Text.after? Table.namePrefix.toList
        (Table.namePrefix.toList ++ (entity ++ close :: rest)) = some (entity ++ close :: rest) :=
      Text.after?_eq_some.2 rfl
    obtain ⟨e, es, rfl⟩ := List.exists_cons_of_ne_nil ne
    unfold quotedMention?
    dsimp only
    rw [if_pos quote, after]
    dsimp only
    rw [takeWhile_append within stop, dropWhile_append within stop]
    exact if_pos closes

theorem bareMention?_eq_some (h : bareMention? cs = some (entity, rest)) :
    ∃ taken, cs = taken ++ rest ∧ ∀ c ∈ taken, isNameQuote c = false := by
  have plain {c : Char} (word : Text.isUnicodeWord c) : isNameQuote c = false := by
    rw [Bool.eq_false_iff]
    intro quote
    rcases isNameQuote_iff.1 quote with rfl | rfl <;> exact absurd word (by decide)
  have head : ∀ c ∈ Table.namePrefix.toList, isNameQuote c = false :=
    isUnquoted_iff.1 (by decide)
  unfold bareMention? at h
  split at h
  · next r found =>
    split at h
    · cases h
    · cases h
      refine ⟨Table.namePrefix.toList ++ r.takeWhile Text.isUnicodeWord, ?_,
        List.forall_mem_append.2 ⟨head, fun c mem => ?_⟩⟩
      · rw [List.append_assoc, List.takeWhile_append_dropWhile]
        exact Text.after?_eq_some.1 found
      · exact plain (List.all_eq_true.1 List.all_takeWhile c mem)
  · cases h

theorem quoted_or_bare {inWord : Bool} (h : mention? inWord cs = some (entity, rest)) :
    quotedMention? cs = some (entity, rest) ∨ bareMention? cs = some (entity, rest) := by
  unfold mention? at h
  cases quoted : quotedMention? cs with
  | some found =>
    rw [quoted] at h
    exact .inl h
  | none =>
    rw [quoted] at h
    cases inWord with
    | true => cases h
    | false => exact .inr h

/-- What is taken off the head of a text leaves a mark inside of it, unless it reaches up to the
mark. -/
theorem length_of_taken {taken r : List Char} (eq : cs ++ mark :: r = taken ++ rest)
    (short : ∀ behind, taken ≠ cs ++ mark :: behind) : (mark :: r).length ≤ rest.length := by
  rcases List.append_eq_append_iff.1 eq with ⟨left, beyond, same⟩ | ⟨left, _, rfl⟩
  · cases left with
    | nil => exact Nat.le_of_eq (congrArg List.length same)
    | cons m left =>
      cases same
      exact absurd beyond (short left)
  · simp

theorem length_of_quotedMention? {r : List Char} (calm : Calm (c :: cs)) (quote : isNameQuote mark)
    (h : quotedMention? (c :: (cs ++ mark :: r)) = some (entity, rest)) :
    (mark :: r).length ≤ rest.length := by
  obtain ⟨first, close, opens, closes, eq, ne, within⟩ := quotedMention?_eq_some.1 h
  have letters : ∀ c ∈ Table.namePrefix.toList ++ entity, isEntityChar c :=
    List.forall_mem_append.2 ⟨List.all_eq_true.1 (by decide), within⟩
  have whole : c :: cs ++ mark :: r =
      first :: (Table.namePrefix.toList ++ (entity ++ [close])) ++ rest := by simpa using eq
  refine length_of_taken whole fun behind same => ?_
  rw [List.cons_append, List.cons.injEq, ← List.append_assoc] at same
  obtain ⟨rfl, same⟩ := same
  rcases List.eq_nil_or_concat behind with rfl | ⟨behind, last, rfl⟩
  · -- The mention would be closed by the mark, which is what a calm text rules out.
    obtain ⟨rfl, _⟩ := List.append_inj' same rfl
    exact calm first (['a', 'b'] ++ entity) opens
      (List.forall_mem_append.2 ⟨List.all_eq_true.1 (by decide), within⟩) List.suffix_rfl
  · rw [List.concat_eq_append, ← List.cons_append, ← List.append_assoc] at same
    obtain ⟨inside, _⟩ := List.append_inj' same rfl
    have letter := letters mark (by rw [inside]; simp)
    rw [not_isEntityChar_of_isNameQuote quote] at letter
    cases letter

theorem length_of_bareMention? {r : List Char} (quote : isNameQuote mark)
    (h : bareMention? (cs ++ mark :: r) = some (entity, rest)) :
    (mark :: r).length ≤ rest.length := by
  obtain ⟨taken, eq, plain⟩ := bareMention?_eq_some h
  refine length_of_taken eq ?_
  rintro behind rfl
  have plain := plain mark (by simp)
  rw [quote] at plain
  cases plain

/-- A mention that begins in a calm text does not take the mark away that stands behind the text. -/
theorem length_of_mention? {inWord : Bool} {r : List Char} (calm : Calm (c :: cs))
    (quote : isNameQuote mark)
    (h : mention? inWord (c :: (cs ++ mark :: r)) = some (entity, rest)) :
    (mark :: r).length ≤ rest.length := by
  rcases quoted_or_bare h with quoted | bare
  · exact length_of_quotedMention? calm quote quoted
  · have behind : bareMention? (c :: cs ++ mark :: r) = some (entity, rest) := bare
    exact length_of_bareMention? quote behind

/-- The scan finds a quoted table behind a calm text. -/
theorem mem_mentionsFrom {skip : Nat} {inWord : Bool} (calm : Calm front)
    (short : skip ≤ front.length) (mention : quotedMention? back = some (entity, rest)) :
    entity ∈ mentionsFrom skip inWord (front ++ back) := by
  obtain ⟨mark, close, quote, _, eq, _⟩ := quotedMention?_eq_some.1 mention
  induction front generalizing skip inWord with
  | nil =>
    obtain rfl : skip = 0 := Nat.le_zero.1 short
    rw [List.nil_append, eq, mentionsFrom, ← eq]
    unfold mention?
    rw [mention]
    exact List.mem_cons_self
  | cons c front ih =>
    have calm' : Calm front := calm.of_suffix (List.suffix_cons c front)
    rw [List.cons_append]
    cases skip with
    | succ skip => exact ih calm' (Nat.le_of_succ_le_succ short)
    | zero =>
      rw [mentionsFrom]
      split
      · next found =>
        rw [eq] at found
        have whole := length_of_mention? calm quote found
        rw [← eq] at whole
        refine List.mem_cons_of_mem _ (ih calm' ?_)
        rw [List.length_append]
        omega
      · exact ih calm' (Nat.zero_le _)

end Mentions

theorem isNameQuote_quoteChar (d : Dialect) : isNameQuote d.quoteChar := by
  cases d <;> decide

theorem mem_mentionedEntities {d : Dialect} {name sql : String} (back : List Char)
    (named : isEntityName name.toList) (calm : Calm front)
    (text : sql.toList = front ++ ((d.quoteIdentifier (Table.ofEntity name).name).toList ++ back)) :
    name ∈ mentionedEntities sql := by
  unfold isEntityName at named
  rw [Bool.and_eq_true, Bool.not_eq_true', List.isEmpty_eq_false_iff, List.all_eq_true] at named
  obtain ⟨ne, within⟩ := named
  have plain : ∀ x ∈ Table.namePrefix.toList ++ name.toList, x ≠ d.quoteChar := by
    rintro x mem rfl
    have letters : ∀ c ∈ Table.namePrefix.toList ++ name.toList, isEntityChar c :=
      List.forall_mem_append.2 ⟨List.all_eq_true.1 (by decide), within⟩
    exact absurd (letters _ mem)
      (by rw [not_isEntityChar_of_isNameQuote (isNameQuote_quoteChar d)]; decide)
  have mention : quotedMention? ((d.quoteIdentifier (Table.ofEntity name).name).toList ++ back) =
      some (name.toList, back) := by
    refine quotedMention?_eq_some.2 ⟨d.quoteChar, d.quoteChar, isNameQuote_quoteChar d,
      isNameQuote_quoteChar d, ?_, ne, within⟩
    rw [Dialect.quoteIdentifier, String.toList_ofList, Table.ofEntity, String.toList_append,
      Text.doubling_eq_self plain]
    simp
  unfold mentionedEntities
  rw [List.mem_eraseDups, text]
  exact List.mem_map.2 ⟨_, mem_mentionsFrom calm (Nat.zero_le _) mention, String.ofList_toList⟩

end ScopedQuery.Access
