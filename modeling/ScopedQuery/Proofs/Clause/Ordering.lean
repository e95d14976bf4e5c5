import ScopedQuery.Proofs.Clause.Listing
import ScopedQuery.Proofs.Outcome
import ScopedQuery.Proofs.Text.Words
import ScopedQuery.Sql.Encoding

set_option autoImplicit false

/-!
Orderings of what can be grouped by. An ordering is cut at blanks before its items are read, also at
those inside of quotations, so that of the items that can be grouped by the columns of a table with
a space in its name cannot be ordered by.
-/

namespace ScopedQuery.Clause

open Text (Solid Uncut isBlank lowerAscii)

variable {cs e : List Char} {item : Item}

/-! ### The texts of items -/

theorem Item.spelled_of_parse? (h : parse? cs = some item) :
    (Text.isDigits cs ∧ ∃ place, item = .position place) ∨
      ∃ w : ColumnText, item = .column w ∧ w.SpelledBy cs := by
  unfold parse? at h
  split at h
  · next digits =>
    obtain ⟨place, _, rfl⟩ := Option.map_eq_some_iff.1 h
    exact .inl ⟨digits, place, rfl⟩
  · obtain ⟨w, read, rfl⟩ := Option.map_eq_some_iff.1 h
    exact .inr ⟨w, rfl, ColumnText.parse?_eq_some.1 read⟩

theorem Item.solid_of_parse? (h : parse? cs = some item) : Solid cs := by
  rcases spelled_of_parse? h with ⟨digits, _⟩ | ⟨w, _, spelled⟩
  · have word := IsWord.of_isDigits digits
    exact (Spells.bare word.1 word.2 : Spells Text.isWordChar cs cs).solid
  · exact spelled.solid

theorem Item.uncut_of_parse? (h : parse? cs = some item) : Uncut isComma cs := by
  rcases spelled_of_parse? h with ⟨digits, _⟩ | ⟨w, _, spelled⟩
  · exact uncut_of_forall (by decide) (IsWord.of_isDigits digits).2
  · exact spelled.uncut not_isComma_of_isNameChar

theorem Item.comma_not_mem_of_parse? (h : parse? cs = some item) : ',' ∉ cs := by
  rcases spelled_of_parse? h with ⟨digits, _⟩ | ⟨w, _, spelled⟩
  · exact fun mem => absurd ((IsWord.of_isDigits digits).2 ',' mem) (by decide)
  · refine fun mem => spelled.chars (p := (· ≠ ',')) ?_ ?_ ?_ (by decide) ',' mem rfl
    · rintro table named c inside rfl
      exact absurd (spelled.isEntityChar_table table named _ inside) (by decide)
    · rintro c letter rfl
      exact absurd letter (by decide)
    · rintro c quote rfl
      exact absurd quote (by decide)

/-! ### Spaces in items -/

def Item.Spaced : Item → Prop
  | column w => ∃ table ∈ w.table, ' ' ∈ table.toList
  | position _ => False

instance : DecidablePred Item.Spaced
  | .column w => inferInstanceAs (Decidable (∃ table ∈ w.table, ' ' ∈ table.toList))
  | .position _ => inferInstanceAs (Decidable False)

theorem not_isBlank_of_isEntityChar {c : Char} (h : isEntityChar c) (other : c ≠ ' ') :
    isBlank c = false := by
  unfold isEntityChar at h
  simp only [Bool.or_eq_true, beq_iff_eq] at h
  rcases h with (word | space) | rfl
  · exact not_isBlank_of_isWordChar word
  · exact absurd space other
  · decide

theorem Item.unbroken_of_parse? (h : parse? cs = some item) (plain : ¬ item.Spaced) :
    ∀ c ∈ cs, isBlank c = false := by
  rcases spelled_of_parse? h with ⟨digits, _⟩ | ⟨w, rfl, spelled⟩
  · exact fun c mem => not_isBlank_of_isWordChar ((IsWord.of_isDigits digits).2 c mem)
  · refine spelled.chars ?_ (fun c => not_isBlank_of_isWordChar)
      (fun c => not_isBlank_of_isNameQuote) (by decide)
    intro table named c mem
    refine not_isBlank_of_isEntityChar (spelled.isEntityChar_table table named c mem) ?_
    rintro rfl
    exact plain ⟨table, named, mem⟩

theorem Item.parse?_of_unclosed {mark : Char} (quote : isNameQuote mark)
    (inside : ∀ c ∈ cs, isEntityChar c) : parse? (mark :: cs) = none := by
  refine Option.eq_none_iff_forall_ne_some.2 fun item read => ?_
  rcases spelled_of_parse? read with ⟨digits, _⟩ | ⟨w, _, spelled⟩
  · have word := (IsWord.of_isDigits digits).2 mark List.mem_cons_self
    rw [not_isWordChar_of_isNameQuote quote] at word
    cases word
  · exact ColumnText.not_spelledBy_of_unclosed quote inside spelled

/-- The first word of an item with a space in it is a mark without its partner. -/
theorem Item.words_of_spaced (h : parse? cs = some item) (spaced : item.Spaced)
    (more : List Char) : ∃ first second others,
      Text.words (cs ++ more) = first :: second :: others ∧ parse? first = none := by
  rcases spelled_of_parse? h with ⟨_, _, rfl⟩ | ⟨w, rfl, spelled⟩
  · exact spaced.elim
  obtain ⟨table, named, space⟩ := spaced
  cases spelled with
  | bare _ => cases named
  | @qualified owner name front back qualifier column =>
    cases named
    rw [String.toList_ofList] at space
    cases qualifier with
    | bare _ word => exact absurd (word ' ' space) (by decide)
    | @quoted mark quote ne within =>
      -- The quoted name up to its first space is the first word, and has no closing mark.
      obtain ⟨before, after, rfl, absent⟩ := List.eq_append_cons_of_mem space
      have entity : ∀ c ∈ before, isEntityChar c := fun c mem =>
        within c (List.mem_append_left _ mem)
      have solid : ∀ c ∈ mark :: before, isBlank c = false := by
        rw [List.forall_mem_cons]
        refine ⟨not_isBlank_of_isNameQuote quote, fun c mem => ?_⟩
        exact not_isBlank_of_isEntityChar (entity c mem) fun same => absent (same ▸ mem)
      obtain ⟨tail, whole⟩ : ∃ tail, mark :: (before ++ ' ' :: after ++ [mark]) ++ '.' :: back ++
          more = mark :: before ++ (' ' :: tail) ∧ mark ∈ tail :=
        ⟨after ++ [mark] ++ '.' :: back ++ more, by simp, by simp⟩
      have behind : Text.words (' ' :: tail) ≠ [] :=
        Text.words_ne_nil (List.mem_cons_of_mem ' ' whole.2) (not_isBlank_of_isNameQuote quote)
      obtain ⟨second, others, eq⟩ := List.exists_cons_of_ne_nil behind
      refine ⟨mark :: before, second, others, ?_, parse?_of_unclosed quote entity⟩
      rw [whole.1, Text.words_append (List.cons_ne_nil _ _) solid rfl, eq]

/-! ### Entries -/

/-- A direction as it stands behind an item: blanks, and the direction in any case of letters. -/
structure Suffix where
  gap : List Char
  word : List Char
  direction : Sql.Direction
  gap_ne : gap ≠ []
  gap_blank : ∀ c ∈ gap, isBlank c
  spells : lowerAscii word = direction.name.toList

def Suffix.chars (s : Suffix) : List Char := s.gap ++ s.word

theorem not_isUpper_of_isDigit {c : Char} (h : c.isDigit) : c.isUpper = false := by
  rw [Bool.eq_false_iff]
  intro upper
  unfold Char.isUpper at upper
  unfold Char.isDigit at h
  simp only [Bool.and_eq_true, decide_eq_true_eq] at h upper
  exact absurd (UInt32.le_trans upper.1 h.2) (by decide)

theorem isWordChar_of_toLower {c : Char} (h : Text.isWordChar c.toLower) : Text.isWordChar c := by
  cases upper : c.isUpper
  · rwa [toLower_of_not_isUpper upper] at h
  · exact isWordChar_of_isUpper upper

theorem Suffix.toLower_mem (s : Suffix) {c : Char} (mem : c ∈ s.word) :
    c.toLower ∈ s.direction.name.toList := by
  rw [← s.spells]
  exact List.mem_map_of_mem mem

theorem Suffix.isWord_word (s : Suffix) : IsWord s.word := by
  refine ⟨fun empty => ?_, fun c mem => isWordChar_of_toLower ?_⟩
  · have spelled := s.spells
    rw [empty] at spelled
    cases direction : s.direction <;> rw [direction] at spelled <;> cases spelled
  · have letters : s.direction.name.toList.all Text.isWordChar := by
      cases s.direction <;> decide
    exact List.all_eq_true.1 letters _ (s.toLower_mem mem)

theorem Suffix.direction?_word (s : Suffix) : direction? s.word = some s.direction := by
  unfold direction? Text.equalAscii
  rw [s.spells]
  cases s.direction <;> rfl

theorem Suffix.parse?_word (s : Suffix) :
    Item.parse? s.word = some (.column ⟨none, String.ofList s.word⟩) := by
  have word := s.isWord_word
  have digits : Text.isDigits s.word = false := by
    rw [Bool.eq_false_iff]
    intro digits
    -- Digits stay as they are in lower case, and no direction has one.
    obtain ⟨x, r, eq⟩ := List.exists_cons_of_ne_nil word.1
    have mem : x ∈ s.word := eq ▸ List.mem_cons_self
    have digit : x.isDigit := List.all_eq_true.1 (Bool.and_eq_true_iff.1 digits).2 x mem
    have letters : s.direction.name.toList.any Char.isDigit = false := by
      cases s.direction <;> decide
    have small : x.isUpper = false := not_isUpper_of_isDigit digit
    have lower := List.any_eq_false.1 letters _ (s.toLower_mem mem)
    rw [toLower_of_not_isUpper small] at lower
    exact absurd digit lower
  have read := ColumnText.parse?_eq_some.2 (.bare (.bare word.1 word.2))
  unfold Item.parse?
  rw [digits, if_neg Bool.false_ne_true, read]
  rfl

theorem parseOrderItem_of_parse? (read : Item.parse? e = some item) (plain : ¬ item.Spaced) :
    parseOrderItem e = .ok ⟨item, .desc⟩ := by
  have solid := Item.unbroken_of_parse? read plain
  have ne : e ≠ [] := by
    rintro rfl
    cases read
  unfold parseOrderItem
  rw [Text.words_of_solid ne solid]
  dsimp only
  rw [read]
  rfl

theorem parseOrderItem_suffix (read : Item.parse? e = some item) (plain : ¬ item.Spaced)
    {gap : List Char} (blank : ∀ c ∈ gap, isBlank c) (s : Suffix) :
    parseOrderItem (e ++ (gap ++ s.chars)) = .ok ⟨item, s.direction⟩ := by
  have solid := Item.unbroken_of_parse? read plain
  have ne : e ≠ [] := by
    rintro rfl
    cases read
  have word := s.isWord_word
  have between : ∀ c ∈ gap ++ s.gap, isBlank c := List.forall_mem_append.2 ⟨blank, s.gap_blank⟩
  have words : Text.words (e ++ (gap ++ s.chars)) = [e, s.word] := by
    rw [Suffix.chars, ← List.append_assoc gap, Text.words_append ne solid,
      Text.words_of_blanks between,
      Text.words_of_solid word.1 fun c mem => not_isBlank_of_isWordChar (word.2 c mem)]
    obtain ⟨x, r, eq⟩ := List.exists_cons_of_ne_nil
      (List.append_ne_nil_of_right_ne_nil gap s.gap_ne)
    rw [eq] at between ⊢
    exact between x List.mem_cons_self
  unfold parseOrderItem
  rw [words]
  dsimp only
  rw [read, s.direction?_word]
  rfl

theorem parseOrderItem_of_spaced (read : Item.parse? e = some item) (spaced : item.Spaced)
    (more : List Char) : ∃ text, parseOrderItem (e ++ more) = .error (.invalidOrderBy text) := by
  obtain ⟨first, second, others, words, unread⟩ := Item.words_of_spaced read spaced more
  unfold parseOrderItem
  rw [words]
  cases others with
  | nil =>
    dsimp only
    rw [unread]
    exact ⟨_, rfl⟩
  | cons third others => exact ⟨_, rfl⟩

/-! ### Lists of declarations -/

def endsInComma (cs : List Char) : Bool := (Text.trimRight cs).getLast? == some ','

structure Declaration where
  text : String
  item : Item
  suffix : Option Suffix
  groups : parseGroupBy text = .ok [item]

namespace Declaration

def chars (d : Declaration) : List Char :=
  d.text.toList ++ (d.suffix.map Suffix.chars).getD []

/-- What a declaration orders by: its item, descending where no direction is given. Behind a comma
there is no item left for a direction, which is a column by itself. -/
def ordering (d : Declaration) : List OrderItem :=
  match d.suffix with
  | none => [⟨d.item, .desc⟩]
  | some s =>
    if endsInComma d.text.toList then
      [⟨d.item, .desc⟩, ⟨.column ⟨none, String.ofList s.word⟩, .desc⟩]
    else [⟨d.item, s.direction⟩]

def joined (ds : List Declaration) : String :=
  String.ofList ([','].intercalate (ds.map chars))

end Declaration

def filled (parts : List (List Char)) : List (List Char) :=
  (parts.map Text.trim).filter fun e => !e.isEmpty

section Parts

variable {a b p : List Char} {ps qs : List (List Char)} {s : Suffix}

theorem filled_append : filled (ps ++ qs) = filled ps ++ filled qs := by
  rw [filled, List.map_append, List.filter_append]
  rfl

theorem filled_of_blank (blank : ∀ p ∈ ps, ∀ c ∈ p, isBlank c) : filled ps = [] := by
  refine List.filter_eq_nil_iff.2 fun e mem => ?_
  obtain ⟨p, there, rfl⟩ := List.mem_map.1 mem
  simp [Text.trim_eq_nil_of_blank (blank p there)]

theorem filled_cons (h : Solid (Text.trim p)) : filled (p :: ps) = Text.trim p :: filled ps := by
  obtain ⟨x, first, _⟩ := h.first
  obtain ⟨r, eq⟩ := List.head?_eq_some_iff.1 first
  simp [filled, eq]

theorem uncut_of_blank (blank : ∀ c ∈ p, isBlank c) : Uncut isComma p :=
  uncut_of_forall (by decide) blank

theorem uncut_of_trim (h : Uncut isComma (Text.trim p)) : Uncut isComma p := by
  obtain ⟨front, back, whole, leading, trailing⟩ := Text.blanks_around_trim p
  rw [whole]
  exact (uncut_of_blank leading).append (h.append (uncut_of_blank trailing))

theorem Suffix.uncut (s : Suffix) : Uncut isComma s.chars :=
  (uncut_of_blank s.gap_blank).append (uncut_of_forall (by decide) s.isWord_word.2)

theorem Suffix.solid_word (s : Suffix) : Solid s.word :=
  (Spells.bare s.isWord_word.1 s.isWord_word.2 : Spells Text.isWordChar s.word s.word).solid

theorem trim_suffix (solid : Solid (Text.trim p)) (s : Suffix) :
    ∃ gap, (∀ c ∈ gap, isBlank c) ∧
      Text.trim (p ++ s.chars) = Text.trim p ++ (gap ++ s.chars) := by
  obtain ⟨front, back, whole, leading, trailing⟩ := Text.blanks_around_trim p
  refine ⟨back, trailing, ?_⟩
  have directed : Solid (Text.trim p ++ (back ++ s.gap ++ s.word)) :=
    solid.around s.solid_word (back ++ s.gap)
  have trimmed := directed.trim_around leading Text.blank_nil
  rw [List.append_nil] at trimmed
  conv_lhs => rw [whole]
  simpa [Suffix.chars] using trimmed

theorem trim_blank_suffix (blank : ∀ c ∈ p, isBlank c) (s : Suffix) :
    Text.trim (p ++ s.chars) = s.word := by
  have leading : ∀ c ∈ p ++ s.gap, isBlank c := List.forall_mem_append.2 ⟨blank, s.gap_blank⟩
  have trimmed := s.solid_word.trim_around leading Text.blank_nil
  simpa [Suffix.chars] using trimmed

theorem intercalate_concat (sep : List Char) (ps : List (List Char)) (a b : List Char) :
    sep.intercalate (ps ++ [a ++ b]) = sep.intercalate (ps ++ [a]) ++ b := by
  by_cases none : ps = []
  · simp [none]
  · rw [Text.intercalate_append none (List.cons_ne_nil _ _),
      Text.intercalate_append none (List.cons_ne_nil _ _)]
    simp

end Parts

namespace Declaration

/-! ### The parts of a declaration -/

/-- How the text of a declaration comes apart: one part has the item, the others are blank. -/
structure Parted (d : Declaration) (before : List (List Char)) (p : List Char)
    (after : List (List Char)) : Prop where
  whole : [','].intercalate (before ++ p :: after) = d.text.toList
  read : Item.parse? (Text.trim p) = some d.item
  leading : ∀ q ∈ before, ∀ c ∈ q, isBlank c
  trailing : ∀ q ∈ after, ∀ c ∈ q, isBlank c

theorem exists_parted (d : Declaration) : ∃ before p after, d.Parted before p after := by
  have read := Outcome.mapM_eq_ok.1 d.groups
  obtain ⟨e, rest, first, none, eq⟩ := List.forall₂_cons_right_iff.1 read
  obtain rfl := List.forall₂_nil_right_iff.1 none
  have parsed : Item.parse? e = some d.item := by
    split at first
    · next found =>
      cases first
      exact found
    · cases first
  -- Of all parts between commas one is left without its blanks: the one that is read.
  obtain ⟨front, back, parts, leading, _, trailing⟩ := List.filter_eq_cons_iff.1 eq
  obtain ⟨before, others, split, rfl, same⟩ := List.map_eq_append_iff.1 parts
  obtain ⟨p, after, rfl, rfl, rfl⟩ := List.map_eq_cons_iff.1 same
  have blank {qs : List (List Char)}
      (empty : ∀ e ∈ qs.map Text.trim, ¬ (!e.isEmpty) = true) : ∀ q ∈ qs, ∀ c ∈ q, isBlank c :=
    fun q mem => Text.blank_of_trim_eq_nil <| by simpa using empty _ (List.mem_map_of_mem mem)
  refine ⟨before, p, after, ?_, parsed, blank leading, blank (List.filter_eq_nil_iff.1 trailing)⟩
  rw [← split]
  exact Text.intercalate_partsFrom ',' .top _

def Reads (d : Declaration) (result : Result (List OrderItem)) : Prop :=
  (d.item.Spaced → ∃ text, result = .error (.invalidOrderBy text)) ∧
    (¬ d.item.Spaced → result = .ok d.ordering)

theorem reads_cons {d : Declaration} {es : List (List Char)} {first : OrderItem}
    {others : List OrderItem}
    (spaced : d.item.Spaced → ∃ text, parseOrderItem e = .error (.invalidOrderBy text))
    (plain : ¬ d.item.Spaced → parseOrderItem e = .ok first)
    (rest : es.mapM parseOrderItem = .ok others) (ordering : d.ordering = first :: others) :
    d.Reads ((e :: es).mapM parseOrderItem) := by
  constructor
  · intro broken
    obtain ⟨text, refused⟩ := spaced broken
    refine ⟨text, ?_⟩
    rw [List.mapM_cons, refused]
    rfl
  · intro whole
    rw [List.mapM_cons, plain whole, rest, ordering]
    rfl

structure MadeOf (d : Declaration) (ps : List (List Char)) : Prop where
  ne : ps ≠ []
  whole : [','].intercalate ps = d.chars
  uncut : ∀ p ∈ ps, Uncut isComma p
  reads : d.Reads ((filled ps).mapM parseOrderItem)

section Parted

variable {d : Declaration} {before after : List (List Char)} {p z : List Char} {s : Suffix}

theorem Parted.uncut (h : d.Parted before p after) : Uncut isComma p ∧
    (∀ q ∈ before, Uncut isComma q) ∧ ∀ q ∈ after, Uncut isComma q :=
  ⟨uncut_of_trim (Item.uncut_of_parse? h.read), fun q mem => uncut_of_blank (h.leading q mem),
    fun q mem => uncut_of_blank (h.trailing q mem)⟩

theorem Parted.filled_eq (h : d.Parted before p after) (ps : List (List Char)) :
    filled (before ++ p :: ps) = Text.trim p :: filled ps := by
  rw [filled_append, filled_of_blank h.leading, List.nil_append,
    filled_cons (Item.solid_of_parse? h.read)]

theorem Parted.refused (h : d.Parted before p after) (spaced : d.item.Spaced) :
    ∃ text, parseOrderItem (Text.trim p) = .error (.invalidOrderBy text) := by
  simpa using parseOrderItem_of_spaced h.read spaced []

theorem Parted.chars_eq (h : d.Parted before p after) (suffix : d.suffix = some s) :
    d.chars = [','].intercalate (before ++ p :: after) ++ s.chars := by
  rw [h.whole, chars, suffix]
  rfl

theorem Parted.madeOf_bare (h : d.Parted before p after) (bare : d.suffix = none) :
    d.MadeOf (before ++ p :: after) where
  ne := by simp
  whole := by
    rw [h.whole, chars, bare]
    exact (List.append_nil _).symm
  uncut := by
    obtain ⟨item, front, back⟩ := h.uncut
    rw [List.forall_mem_append, List.forall_mem_cons]
    exact ⟨front, item, back⟩
  reads := by
    rw [h.filled_eq, filled_of_blank h.trailing]
    exact reads_cons h.refused (parseOrderItem_of_parse? h.read) rfl (by rw [ordering, bare]; rfl)

theorem Parted.not_endsInComma (h : d.Parted before p []) :
    endsInComma d.text.toList = false := by
  obtain ⟨leading, back, parted, _, blank⟩ := Text.blanks_around_trim p
  obtain ⟨x, last, solid⟩ := (Item.solid_of_parse? h.read).last
  obtain ⟨init, eq⟩ := List.getLast?_eq_some_iff.1 last
  obtain ⟨front, whole⟩ : ∃ front, d.text.toList = front ++ p := by
    rw [← h.whole]
    by_cases none : before = []
    · exact ⟨[], by simp [none]⟩
    · exact ⟨_, by rw [Text.intercalate_append none (List.cons_ne_nil _ _),
        List.intercalate_singleton, ← List.append_assoc]⟩
  have text : d.text.toList = front ++ leading ++ init ++ x :: back := by
    rw [whole, parted, eq]
    simp
  have other : x ≠ ',' := by
    rintro rfl
    exact Item.comma_not_mem_of_parse? h.read (List.mem_of_getLast? last)
  rw [endsInComma, text, Text.trimRight_append solid blank, List.getLast?_concat]
  simpa using other

theorem Parted.madeOf_directed (h : d.Parted before p []) (suffix : d.suffix = some s) :
    d.MadeOf (before ++ [p ++ s.chars]) where
  ne := by simp
  whole := by rw [intercalate_concat, h.chars_eq suffix]
  uncut := by
    obtain ⟨item, front, _⟩ := h.uncut
    rw [List.forall_mem_append, List.forall_mem_singleton]
    exact ⟨front, item.append s.uncut⟩
  reads := by
    have solid := Item.solid_of_parse? h.read
    obtain ⟨gap, between, trimmed⟩ := trim_suffix solid s
    have still : Solid (Text.trim (p ++ s.chars)) := by
      rw [trimmed, Suffix.chars, ← List.append_assoc gap]
      exact solid.around s.solid_word _
    rw [filled_append, filled_of_blank h.leading, List.nil_append, filled_cons still, trimmed]
    refine reads_cons (fun spaced => parseOrderItem_of_spaced h.read spaced _)
      (fun plain => parseOrderItem_suffix h.read plain between s) rfl ?_
    rw [ordering, suffix]
    dsimp only
    rw [h.not_endsInComma]
    rfl

theorem Parted.madeOf_apart (h : d.Parted before p (after ++ [z])) (suffix : d.suffix = some s) :
    d.MadeOf (before ++ p :: after ++ [z ++ s.chars]) where
  ne := by simp
  whole := by rw [intercalate_concat, h.chars_eq suffix, List.append_assoc, List.cons_append]
  uncut := by
    obtain ⟨item, front, back⟩ := h.uncut
    rw [List.forall_mem_append, List.forall_mem_singleton] at back
    rw [List.forall_mem_append, List.forall_mem_append, List.forall_mem_cons,
      List.forall_mem_singleton]
    exact ⟨⟨front, item, back.1⟩, back.2.append s.uncut⟩
  reads := by
    have blank := List.forall_mem_append.1 h.trailing
    have behind := List.forall_mem_singleton.1 blank.2
    have trimmed := trim_blank_suffix behind s
    have comma : endsInComma d.text.toList := by
      rw [← h.whole, ← List.cons_append, ← List.append_assoc,
        Text.intercalate_append (by simp) (List.cons_ne_nil _ _), List.intercalate_singleton,
        endsInComma, List.singleton_append, Text.trimRight_append (by decide) behind,
        List.getLast?_concat]
      rfl
    -- Behind the comma the direction is an entry by itself, and is taken for a column.
    have named : [s.word].mapM parseOrderItem =
        .ok [⟨.column ⟨none, String.ofList s.word⟩, .desc⟩] := by
      rw [List.mapM_cons, parseOrderItem_of_parse? s.parse?_word (by rintro ⟨_, ⟨⟩, _⟩)]
      rfl
    have word : filled [z ++ s.chars] = [s.word] := by
      rw [filled_cons (by rw [trimmed]; exact s.solid_word), trimmed]
      rfl
    rw [List.append_assoc, List.cons_append, h.filled_eq, filled_append, filled_of_blank blank.1,
      List.nil_append, word]
    refine reads_cons h.refused (parseOrderItem_of_parse? h.read) named ?_
    rw [ordering, suffix]
    exact if_pos comma

end Parted

theorem exists_madeOf (d : Declaration) : ∃ ps, d.MadeOf ps := by
  obtain ⟨before, p, after, parted⟩ := d.exists_parted
  cases suffix : d.suffix with
  | none => exact ⟨_, parted.madeOf_bare suffix⟩
  | some s =>
    rcases List.eq_nil_or_concat' after with rfl | ⟨after, z, rfl⟩
    · exact ⟨_, parted.madeOf_directed suffix⟩
    · exact ⟨_, parted.madeOf_apart suffix⟩

/-! ### Orderings -/

theorem reads_flatten {ds : List Declaration} {pss : List (List (List Char))}
    (made : List.Forall₂ MadeOf ds pss) :
    ((∃ d ∈ ds, d.item.Spaced) →
      ∃ text, (filled pss.flatten).mapM parseOrderItem = .error (.invalidOrderBy text)) ∧
    ((∀ d ∈ ds, ¬ d.item.Spaced) →
      (filled pss.flatten).mapM parseOrderItem = .ok (ds.flatMap ordering)) := by
  induction made with
  | nil => exact ⟨nofun, fun _ => rfl⟩
  | @cons d ps ds pss first _ ih =>
    rw [List.flatten_cons, filled_append, List.mapM_append, List.forall_mem_cons]
    constructor
    · intro spaced
      -- The first declaration that is refused decides.
      by_cases broken : d.item.Spaced
      · obtain ⟨text, refused⟩ := first.reads.1 broken
        rw [refused]
        exact ⟨text, rfl⟩
      · obtain ⟨text, refused⟩ := ih.1 (by simpa [broken] using spaced)
        rw [first.reads.2 broken, refused]
        exact ⟨text, rfl⟩
    · rintro ⟨whole, others⟩
      rw [first.reads.2 whole, ih.2 others, List.flatMap_cons]
      rfl

theorem joined_eq {ds : List Declaration} {pss : List (List (List Char))}
    (made : List.Forall₂ MadeOf ds pss) :
    (joined ds).toList = [','].intercalate pss.flatten := by
  have same : ds.map chars = pss.map [','].intercalate := by
    induction made with
    | nil => rfl
    | cons first _ ih => rw [List.map_cons, List.map_cons, first.whole, ih]
  have ne : ∀ ps ∈ pss, ps ≠ [] := by
    intro ps mem
    obtain ⟨d, _, there⟩ := Outcome.exists_left made mem
    exact there.ne
  rw [joined, String.toList_ofList, same, Text.intercalate_flatten ne]

/-- A list of declarations orders by what they order by, one after the other, unless one of them
is a column of a table with a space in its name; such a list is refused. -/
theorem parseOrderBy_joined (ds : List Declaration) (other : joined ds ≠ keepDefaultOrdering) :
    ((∃ d ∈ ds, d.item.Spaced) → ∃ text, parseOrderBy (joined ds) = .error (.invalidOrderBy text)) ∧
      ((∀ d ∈ ds, ¬ d.item.Spaced) → parseOrderBy (joined ds) = .ok (ds.flatMap ordering)) := by
  obtain ⟨pss, made⟩ := Outcome.exists_forall₂ fun d (_ : d ∈ ds) => d.exists_madeOf
  have uncut : ∀ p ∈ pss.flatten, Uncut isComma p := by
    intro p mem
    obtain ⟨ps, there, inside⟩ := List.mem_flatten.1 mem
    obtain ⟨d, _, madeOf⟩ := Outcome.exists_left made there
    exact madeOf.uncut p inside
  have read : parseOrderBy (joined ds) = (filled pss.flatten).mapM parseOrderItem := by
    rw [parseOrderBy, if_neg (by simpa using other), joined_eq made, entries_intercalate uncut]
    rfl
  rw [read]
  exact reads_flatten made

def dueTasks : List Declaration :=
  [⟨"`tabTask`.due", .column ⟨some "tabTask", "due"⟩,
      some ⟨[' '], "Asc".toList, .asc, by decide, Text.blank_space, by decide⟩, rfl⟩,
    ⟨"2", .position 2, none, rfl⟩,
    ⟨"name,", .column ⟨none, "name"⟩,
      some ⟨[' '], "DESC".toList, .desc, by decide, Text.blank_space, by decide⟩, rfl⟩]

theorem parseOrderBy_joined_dueTasks :
    joined dueTasks = "`tabTask`.due Asc,2,name, DESC" ∧
      parseOrderBy (joined dueTasks) = .ok [⟨.column ⟨some "tabTask", "due"⟩, .asc⟩,
        ⟨.position 2, .desc⟩, ⟨.column ⟨none, "name"⟩, .desc⟩, ⟨.column ⟨none, "DESC"⟩, .desc⟩] :=
  ⟨rfl, (parseOrderBy_joined dueTasks (by decide)).2 (by decide)⟩

/-- A column that can be grouped by and not be ordered by. -/
theorem parseOrderBy_spaced :
    parseGroupBy "`tabTask Item`.`qty`" = .ok [.column ⟨some "tabTask Item", "qty"⟩] ∧
      parseOrderBy "`tabTask Item`.`qty`" = .error (.invalidOrderBy "`tabTask") :=
  ⟨rfl, rfl⟩

end Declaration

end ScopedQuery.Clause
