import ScopedQuery.Proofs.Clause.Labelling

set_option autoImplicit false

/-!
Where a text is cut at AS. The cut knows no quotations: a column with a label comes apart between
the two, unless AS stands between blanks in the name of its table already.
-/

namespace ScopedQuery.Clause

open Text (isBlank foldLetter)

variable {cs a r l name text : List Char} {c m : Char} {w : ColumnText}

/-- Whether AS stands between blanks in a text, in any case of letters. -/
def HasAs (cs : List Char) : Prop :=
  ∃ before b x y d after, cs = before ++ b :: x :: y :: d :: after ∧
    isBlank b ∧ foldLetter x = 'a' ∧ foldLetter y = 's' ∧ isBlank d

def hasAs : List Char → Bool
  | b :: x :: y :: d :: after =>
    (isBlank b && foldLetter x == 'a' && foldLetter y == 's' && isBlank d) ||
      hasAs (x :: y :: d :: after)
  | _ => false

theorem HasAs.cons (h : HasAs a) (c : Char) : HasAs (c :: a) := by
  obtain ⟨before, b, x, y, d, after, rfl, as⟩ := h
  exact ⟨c :: before, b, x, y, d, after, rfl, as⟩

theorem hasAs_iff : hasAs cs ↔ HasAs cs := by
  induction cs using hasAs.induct with
  | case1 b x y d after ih =>
    rw [hasAs, Bool.or_eq_true, ih]
    constructor
    · rintro (here | later)
      · simp only [Bool.and_eq_true, beq_iff_eq, and_assoc] at here
        exact ⟨[], b, x, y, d, after, rfl, here⟩
      · exact later.cons b
    · rintro ⟨before, b', x', y', d', after', eq, as⟩
      cases before with
      | nil =>
        cases eq
        exact .inl (by simpa [and_assoc] using as)
      | cons c before => exact .inr ⟨before, b', x', y', d', after', (List.cons.inj eq).2, as⟩
  | case2 cs short =>
    -- In less than four characters there is no room for AS and its blanks.
    rw [hasAs]
    · refine ⟨nofun, ?_⟩
      rintro ⟨before, b, x, y, d, after, rfl, _⟩
      match before with
      | [] => exact absurd rfl (short b x y d after)
      | [c] => exact absurd rfl (short c b x y (d :: after))
      | [c, c'] => exact absurd rfl (short c c' b x (y :: d :: after))
      | [c, c', c''] => exact absurd rfl (short c c' c'' b (x :: y :: d :: after))
      | c :: c' :: c'' :: z :: before => exact absurd rfl (short c c' c'' z _)
    · exact short

instance : DecidablePred HasAs := fun _ => decidable_of_iff _ hasAs_iff

/-! ### The first cut -/

theorem afterAs?_eq {b x y : Char} {gap gap' : List Char} (first : isBlank b)
    (blank : ∀ c ∈ gap, isBlank c) (fold : foldLetter x = 'a') (fold' : foldLetter y = 's')
    (ne : gap' ≠ []) (blank' : ∀ c ∈ gap', isBlank c) (rest : List Char) :
    afterAs? isBlank foldLetter (b :: (gap ++ x :: y :: (gap' ++ rest))) =
      some (rest.dropWhile isBlank) := by
  have solid : isBlank x = false := not_isBlank_of_foldLetter (by simp [fold])
  obtain ⟨d, gap', rfl⟩ := List.exists_cons_of_ne_nil ne
  rw [List.forall_mem_cons] at blank'
  have behind : (gap ++ x :: y :: (d :: gap' ++ rest)).dropWhile isBlank =
      x :: y :: (d :: gap' ++ rest) := by
    rw [List.dropWhile_append_of_pos blank, List.dropWhile_cons, solid]
    rfl
  rw [afterAs?, if_pos first, behind]
  simp only [Text.afterFolded?, fold, fold', beq_self_eq_true, ↓reduceIte, List.cons_append,
    blank'.1]
  rw [List.dropWhile_append_of_pos blank'.2]

theorem cutAtAs_prefix (h : (afterAs? isBlank foldLetter r).isSome) (a : List Char) :
    (cutAtAs (a ++ r)).1 <+: a := by
  obtain ⟨l, found⟩ := Option.isSome_iff_exists.1 h
  -- The first AS from the left is cut at, so at the latest the one that `r` begins with.
  induction a with
  | nil =>
    cases r with
    | nil => exact List.prefix_rfl
    | cons c r =>
      have cut : cutAtAs (c :: r) = ([], some l) := by
        rw [cutAtAs.eq_def]
        simp only [found]
      simp [cut]
  | cons c a ih =>
    rw [List.cons_append, cutAtAs.eq_def]
    dsimp only
    split
    · exact List.nil_prefix
    · exact List.cons_prefix_cons.2 ⟨rfl, ih⟩

theorem HasAs.cutAtAs_prefix (h : HasAs a) (r : List Char) : (cutAtAs (a ++ r)).1 <+: a := by
  obtain ⟨before, b, x, y, d, after, rfl, first, fold, fold', last⟩ := h
  have found := afterAs?_eq first Text.blank_nil fold fold' (List.cons_ne_nil d [])
    (List.forall_mem_singleton.2 last) (after ++ r)
  have cut := Clause.cutAtAs_prefix (Option.isSome_iff_exists.2 ⟨_, found⟩) before
  rw [List.append_assoc]
  exact cut.trans (List.prefix_append _ _)

structure Divides (m : Char) : Prop where
  solid : isBlank m = false
  letter : foldLetter m ∉ ['a', 's']

theorem Divides.letters (divides : Divides m) {d : Char} {rest : List Char}
    (h : Text.afterFolded? foldLetter ['a', 's'] (a ++ m :: r) = some (d :: rest))
    (blank : isBlank d) :
    ∃ x y after, a = x :: y :: d :: after ∧ foldLetter x = 'a' ∧ foldLetter y = 's' := by
  obtain ⟨word, whole, folded⟩ := Text.afterFolded?_append h
  obtain ⟨x, word, rfl, first, others⟩ := List.map_eq_cons_iff.1 folded
  obtain ⟨y, word, rfl, second, none⟩ := List.map_eq_cons_iff.1 others
  obtain rfl := List.map_eq_nil_iff.1 none
  match a with
  | [] =>
    cases whole
    exact absurd first fun fold => divides.letter (by simp [fold])
  | [_] =>
    cases whole
    exact absurd second fun fold => divides.letter (by simp [fold])
  | [_, _] =>
    cases whole
    rw [divides.solid] at blank
    cases blank
  | _ :: _ :: _ :: after =>
    cases whole
    exact ⟨x, y, after, rfl, first, second⟩

theorem Divides.dropWhile_append (divides : Divides m) (a r : List Char) :
    (a ++ m :: r).dropWhile isBlank = a.dropWhile isBlank ++ m :: r := by
  induction a with
  | nil => simp [divides.solid]
  | cons c a ih =>
    rw [List.cons_append, List.dropWhile_cons, List.dropWhile_cons, ih]
    split <;> rfl

theorem hasAs_of_afterAs? (divides : Divides m)
    (h : afterAs? isBlank foldLetter (a ++ m :: r) = some l) : HasAs a := by
  cases a with
  | nil =>
    rw [List.nil_append, afterAs?, divides.solid] at h
    cases h
  | cons c a =>
    rw [List.cons_append, afterAs?, divides.dropWhile_append] at h
    split at h
    case isFalse => cases h
    next first =>
    split at h
    case h_2 => cases h
    next d rest read =>
    split at h
    case isFalse => cases h
    next last =>
    obtain ⟨x, y, after, tail, fold, fold'⟩ := divides.letters read last
    have gap : ∀ b ∈ c :: a.takeWhile isBlank, isBlank b := by
      rw [List.forall_mem_cons]
      exact ⟨first, fun b mem => List.all_eq_true.1 List.all_takeWhile b mem⟩
    -- Of the blanks in front of the letters the last one is taken.
    obtain ⟨before, b, eq⟩ := (List.eq_nil_or_concat' (c :: a.takeWhile isBlank)).resolve_left
      (List.cons_ne_nil _ _)
    rw [eq] at gap
    refine ⟨before, b, x, y, d, after, ?_, gap b (by simp), fold, fold', last⟩
    calc c :: a = c :: a.takeWhile isBlank ++ a.dropWhile isBlank := by
          rw [List.cons_append, List.takeWhile_append_dropWhile]
      _ = before ++ b :: x :: y :: d :: after := by
          rw [eq, tail]
          simp

theorem cutAtAs_append_of_solid (solid : ∀ c ∈ a, isBlank c = false) (r : List Char) :
    cutAtAs (a ++ r) = (a ++ (cutAtAs r).1, (cutAtAs r).2) := by
  induction a with
  | nil => rfl
  | cons c a ih =>
    obtain ⟨first, others⟩ := List.forall_mem_cons.1 solid
    rw [List.cons_append, cutAtAs.eq_def]
    simp [afterAs?, first, ih others]

/-- Without AS in front of it, the cut is behind a character that no AS reaches over. -/
theorem cutAtAs_append_of_not_hasAs (divides : Divides m) (none : ¬ HasAs a) (r : List Char) :
    cutAtAs (a ++ m :: r) = (a ++ m :: (cutAtAs r).1, (cutAtAs r).2) := by
  induction a with
  | nil =>
    have alone := cutAtAs_append_of_solid (List.forall_mem_singleton.2 divides.solid) r
    exact alone
  | cons c a ih =>
    have uncut : afterAs? isBlank foldLetter (c :: (a ++ m :: r)) = Option.none :=
      Option.eq_none_iff_forall_ne_some.2 fun l found => none (hasAs_of_afterAs? divides found)
    rw [List.cons_append, cutAtAs.eq_def]
    dsimp only
    rw [uncut, ih fun has => none (has.cons c)]
    rfl

/-! ### Columns with labels -/

/-- The texts that give a label to the column in front of them, or none. -/
inductive Labels : Option (List Char) → List Char → Prop
  | bare : Labels none []
  | labelled {gap gap' name text : List Char} {x y : Char} (ne : gap ≠ [])
    (blank : ∀ c ∈ gap, isBlank c) (fold : foldLetter x = 'a') (fold' : foldLetter y = 's')
    (ne' : gap' ≠ []) (blank' : ∀ c ∈ gap', isBlank c) (spells : Spells Text.isWordChar name text) :
    Labels (some name) (gap ++ x :: y :: (gap' ++ text))

theorem Labels.afterAs? (h : Labels (some name) cs) :
    ∃ text, Clause.afterAs? isBlank foldLetter cs = some text ∧
      Spells Text.isWordChar name text := by
  cases h with
  | @labelled gap gap' _ text x y ne blank fold fold' ne' blank' spells =>
    obtain ⟨b, gap, rfl⟩ := List.exists_cons_of_ne_nil ne
    rw [List.forall_mem_cons] at blank
    obtain ⟨z, first, solid⟩ := spells.solid.first
    have kept : text.dropWhile isBlank = text := by
      obtain ⟨r, rfl⟩ := List.head?_eq_some_iff.1 first
      rw [List.dropWhile_cons, solid]
      rfl
    refine ⟨text, ?_, spells⟩
    rw [List.cons_append, afterAs?_eq blank.1 blank.2 fold fold' ne' blank', kept]

theorem Labels.label? (h : Labels (some name) cs) : Clause.label? cs = some name := by
  obtain ⟨text, introduced, spells⟩ := h.afterAs?
  have read : readName Text.isWordChar (text ++ []) = some (name, []) :=
    readName_append (fun _ => not_isWordChar_of_isNameQuote) spells nofun
  rw [List.append_nil] at read
  unfold Clause.label?
  rw [introduced]
  dsimp only
  rw [read]

variable {label : Option (List Char)} {front back : List Char}

theorem Labels.read_append (h : Labels label back) (spelled : w.SpelledBy front) :
    ColumnText.read (front ++ back) = some (w, back) := by
  refine ColumnText.read_append spelled fun c head => stops_of_isBlank ?_
  cases label with
  | none =>
    cases h
    cases head
  | some name =>
    obtain ⟨_, introduced, _⟩ := h.afterAs?
    obtain ⟨_, _, _, blank⟩ := afterAs?_append introduced
    exact blank c head

theorem Labels.isLabelledColumn (h : Labels label back) (spelled : w.SpelledBy front) :
    Clause.isLabelledColumn (front ++ back) := by
  unfold Clause.isLabelledColumn
  rw [h.read_append spelled]
  cases label with
  | none =>
    cases h
    rfl
  | some name => simp [h.label?]

theorem Labels.cutAtAs (h : Labels label back) : ∃ behind, Clause.cutAtAs back = ([], behind) ∧
    (behind.map fun l => unquoted (Text.trim l)) = label := by
  cases label with
  | none =>
    cases h
    exact ⟨none, rfl, rfl⟩
  | some name =>
    obtain ⟨text, introduced, spells⟩ := h.afterAs?
    refine ⟨some text, ?_, ?_⟩
    · cases back with
      | nil => cases introduced
      | cons c back =>
        rw [Clause.cutAtAs.eq_def]
        dsimp only
        rw [introduced]
    · rw [Option.map_some, spells.solid.trim_eq, unquoted_of_spells spells]

theorem divides_of_isNameQuote (h : isNameQuote m) : Divides m := by
  rcases isNameQuote_iff.1 h with rfl | rfl <;> exact ⟨by decide, by decide⟩

theorem Spells.unbroken (h : Spells Text.isWordChar name text) : ∀ c ∈ text, isBlank c = false :=
  h.chars (fun c mem => not_isBlank_of_isWordChar (h.within (fun _ => id) c mem))
    fun _ => not_isBlank_of_isNameQuote

/-- Where the name of its table does not show AS, a column is not cut. -/
theorem ColumnText.SpelledBy.cutAtAs_append (spelled : w.SpelledBy front)
    (plain : ∀ table ∈ w.table, ¬ HasAs table.toList) (r : List Char) :
    Clause.cutAtAs (front ++ r) = (front ++ (Clause.cutAtAs r).1, (Clause.cutAtAs r).2) := by
  cases spelled with
  | bare column => exact cutAtAs_append_of_solid column.unbroken r
  | @qualified owner name table back qualifier column =>
    have solid : ∀ c ∈ '.' :: back, isBlank c = false := by
      rw [List.forall_mem_cons]
      exact ⟨by decide, column.unbroken⟩
    have behind := cutAtAs_append_of_solid solid r
    cases qualifier with
    | bare ne word =>
      have all : ∀ c ∈ owner ++ '.' :: back, isBlank c = false := List.forall_mem_append.2
        ⟨fun c mem => not_isBlank_of_isWordChar (word c mem), solid⟩
      exact cutAtAs_append_of_solid all r
    | @quoted mark quote ne within =>
      have divides := divides_of_isNameQuote quote
      have none : ¬ HasAs owner := by simpa using plain _ rfl
      have inner := cutAtAs_append_of_not_hasAs divides none ('.' :: back ++ r)
      rw [behind] at inner
      have outer := cutAtAs_append_of_solid (List.forall_mem_singleton.2 divides.solid)
        (owner ++ mark :: ('.' :: back ++ r))
      rw [inner] at outer
      simpa using outer

theorem splitLabel_of_labels (spelled : w.SpelledBy front) (labels : Labels label back)
    (plain : ∀ table ∈ w.table, ¬ HasAs table.toList) :
    splitLabel (front ++ back) = (front, label) := by
  obtain ⟨behind, cut, eq⟩ := labels.cutAtAs
  have named : label.filter (fun l => !l.isEmpty) = label := by
    cases labels with
    | bare => rfl
    | labelled _ _ _ _ _ _ spells => simp [spells.ne_nil]
  unfold splitLabel
  rw [spelled.cutAtAs_append plain, cut]
  dsimp only
  rw [List.append_nil, spelled.solid.trim_eq, eq, named]

theorem not_spelledBy_of_hasAs (spelled : w.SpelledBy front)
    (has : ∃ table ∈ w.table, HasAs table.toList) (r : List Char) (w' : ColumnText) :
    ¬ w'.SpelledBy (splitLabel (front ++ r)).1 := by
  obtain ⟨table, named, as⟩ := has
  cases spelled with
  | bare column => cases named
  | @qualified owner _ _ back qualifier column =>
    cases named
    rw [String.toList_ofList] at as
    cases qualifier with
    | bare ne word =>
      obtain ⟨before, b, _, _, _, after, rfl, blank, _⟩ := as
      have letter := word b (by simp)
      rw [not_isBlank_of_isWordChar letter] at blank
      cases blank
    | @quoted mark quote ne within =>
      have solid := not_isBlank_of_isNameQuote quote
      -- What is left of the column is the opening mark with a part of the name behind it.
      obtain ⟨pre, within', eq⟩ : ∃ pre, (∀ c ∈ pre, isEntityChar c) ∧
          (Clause.cutAtAs (mark :: (owner ++ [mark]) ++ '.' :: back ++ r)).1 = mark :: pre := by
        have cut := cutAtAs_append_of_solid (List.forall_mem_singleton.2 solid)
          (owner ++ (mark :: '.' :: back ++ r))
        have inner := as.cutAtAs_prefix (mark :: '.' :: back ++ r)
        refine ⟨_, fun c mem => within c (inner.subset mem), ?_⟩
        simpa using congrArg Prod.fst cut
      have starts : ∀ c ∈ (mark :: pre).head?, isBlank c = false := by
        rintro _ ⟨⟩
        exact solid
      obtain ⟨tail, whole, _⟩ := Text.blanks_behind_trim starts
      have expr : (splitLabel (mark :: (owner ++ [mark]) ++ '.' :: back ++ r)).1 =
          Text.trim (mark :: pre) := by
        rw [← eq]
        rfl
      rw [expr]
      intro spelled
      obtain ⟨z, first, _⟩ := spelled.solid.first
      obtain ⟨rest, trimmed⟩ := List.head?_eq_some_iff.1 first
      rw [trimmed] at whole spelled
      obtain ⟨rfl, rfl⟩ := List.cons.inj whole
      exact ColumnText.not_spelledBy_of_unclosed quote
        (fun c mem => within' c (List.mem_append_left tail mem)) spelled

end ScopedQuery.Clause
