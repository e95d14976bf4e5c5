import ScopedQuery.Proofs.Lexical.Reading

set_option autoImplicit false

namespace ScopedQuery.Sql

/-- The wildcards of patterns. A backslash in front of one is kept, for the pattern to read. -/
def isWildcard (c : Char) : Bool := c == '%' || c == '_'

def escapeValue (c : Char) : List Char :=
  if isWildcard c then [Text.backslash, c]
  else if c == '0' then ['\x00']
  else if c == 'b' then ['\x08']
  else if c == 'n' then ['\n']
  else if c == 'r' then ['\r']
  else if c == 't' then ['\t']
  else if c == 'Z' then ['\x1a']
  else [c]

namespace Dialect

/-- What a quotation says, read from behind its opening mark, and the text behind the closing one. -/
def quotation? (d : Dialect) (mark : Char) : List Char → Option (List Char × List Char)
  | [] => none
  | [c] => if c == mark then some ([], []) else none
  | c :: e :: r =>
    if c == mark then
      if e == mark then (d.quotation? mark r).map (Prod.map (mark :: ·) id) else some ([], e :: r)
    else if d.escapesInside mark c then
      (d.quotation? mark r).map (Prod.map (escapeValue e ++ ·) id)
    else (d.quotation? mark (e :: r)).map (Prod.map (c :: ·) id)

def literal? (d : Dialect) : List Char → Option (List Char × List Char)
  | [] => none
  | c :: r => if c == Text.singleQuote then d.quotation? Text.singleQuote r else none

variable {d : Dialect} {mark c e : Char} {cs v w r rest : List Char}

section Steps

theorem quotation?_mark (d : Dialect) (mark : Char) (r : List Char) :
    d.quotation? mark (mark :: mark :: r) =
      (d.quotation? mark r).map (Prod.map (mark :: ·) id) := by
  rw [quotation?, if_pos (beq_self_eq_true mark), if_pos (beq_self_eq_true mark)]

theorem quotation?_close (stop : rest.head? ≠ some mark) :
    d.quotation? mark (mark :: rest) = some ([], rest) := by
  cases rest with
  | nil => rw [quotation?, if_pos (beq_self_eq_true mark)]
  | cons x rest =>
    have ne : (x == mark) = false := by simpa using stop
    rw [quotation?, if_pos (beq_self_eq_true mark), ne]
    rfl

theorem quotation?_escape (escapes : d.escapesInside mark c) (e : Char) (r : List Char) :
    d.quotation? mark (c :: e :: r) =
      (d.quotation? mark r).map (Prod.map (escapeValue e ++ ·) id) := by
  have other : (c == mark) = false := by
    unfold escapesInside at escapes
    simp only [Bool.and_eq_true, beq_iff_eq] at escapes
    obtain ⟨⟨_, rfl⟩, rfl⟩ := escapes
    decide
  rw [quotation?, other, if_pos escapes]
  rfl

theorem quotation?_plain (ne : c ≠ mark) (plain : d.escapesInside mark c = false) (r : List Char) :
    d.quotation? mark (c :: r) = (d.quotation? mark r).map (Prod.map (c :: ·) id) := by
  cases r with
  | nil => simp [quotation?, ne]
  | cons e r => simp [quotation?, ne, plain]

end Steps

theorem escapesInside_iff :
    d.escapesInside mark c ↔ d = .mariadb ∧ mark = Text.singleQuote ∧ c = Text.backslash := by
  unfold escapesInside
  simp only [Bool.and_eq_true, beq_iff_eq, and_assoc]

theorem weight_escapeValue (c : Char) :
    (escapeValue c).length + (escapeValue c).count Text.singleQuote ≤ 2 := by
  unfold escapeValue
  split_ifs with wildcard
  · rcases (Bool.or_eq_true _ _).mp wildcard with h | h
    all_goals
      rw [beq_iff_eq.1 h]
      decide
  all_goals first | decide | exact Nat.add_le_add_left List.count_le_length 1

/-- Every character of a value takes its place in the text, and a mark takes two. -/
theorem weight_of_quotation? (h : d.quotation? mark cs = some (v, rest)) :
    v.length + v.count mark + 1 + rest.length ≤ cs.length := by
  fun_induction quotation? d mark cs generalizing v with
  | case1 | case3 => cases h
  | case2 | case5 =>
    cases h
    simp only [List.length_nil, List.count_nil, List.length_cons]
    omega
  | case4 c e r first second ih =>
    obtain ⟨⟨w, _⟩, found, eq⟩ := Option.map_eq_some_iff.1 h
    cases eq
    have weight := ih found
    simp only [List.length_cons, List.count_cons_self]
    omega
  | case6 c e r first escapes ih =>
    obtain ⟨⟨w, _⟩, found, eq⟩ := Option.map_eq_some_iff.1 h
    cases eq
    have weight := ih found
    have escape := weight_escapeValue e
    rw [← (escapesInside_iff.1 escapes).2.1] at escape
    simp only [List.length_cons, List.length_append, List.count_append, id] at weight ⊢
    omega
  | case7 c e r first plain ih =>
    obtain ⟨⟨w, _⟩, found, eq⟩ := Option.map_eq_some_iff.1 h
    cases eq
    have weight := ih found
    have ne : c ≠ mark := by simpa using first
    simp only [List.length_cons, List.count_cons_of_ne ne, id] at weight ⊢
    omega

theorem length_doubling (mark : Char) (cs : List Char) :
    (Text.doubling mark cs).length = cs.length + cs.count mark := by
  unfold Text.doubling
  induction cs with
  | nil => rfl
  | cons c cs ih =>
    rw [List.flatMap_cons, List.length_append, ih, List.length_cons, List.count_cons]
    split <;> simp only [List.length_cons, List.length_nil] <;> omega

/-- Whether a text is what a string literal says in which nothing but its apostrophes is written
twice: every backslash that escapes stands in front of a wildcard, which keeps it. -/
def keeps (d : Dialect) : List Char → Bool
  | [] => true
  | c :: r => (!d.escapesInside Text.singleQuote c || r.head?.any isWildcard) && d.keeps r

def ReadsBack (d : Dialect) (rest v : List Char) : Prop :=
  d.quotation? Text.singleQuote
    (Text.doubling Text.singleQuote v ++ Text.singleQuote :: rest) = some (v, rest)

theorem map_eq_some_cons {o : Option (List Char × List Char)} :
    o.map (Prod.map (c :: ·) id) = some (c :: v, rest) ↔ o = some (v, rest) := by
  cases o with
  | none => exact ⟨nofun, nofun⟩
  | some p => simp [Prod.ext_iff]

theorem readsBack_cons (plain : d.escapesInside Text.singleQuote c = false) :
    d.ReadsBack rest (c :: v) ↔ d.ReadsBack rest v := by
  unfold ReadsBack
  by_cases quote : c = Text.singleQuote
  · have twice : Text.doubling Text.singleQuote (c :: v) =
        c :: c :: Text.doubling Text.singleQuote v := by
      rw [quote]
      rfl
    rw [twice, quote]
    exact (iff_of_eq (congrArg (· = _) (quotation?_mark d _ _))).trans map_eq_some_cons
  · have once : Text.doubling Text.singleQuote (c :: v) =
        c :: Text.doubling Text.singleQuote v := by
      simp [Text.doubling, quote]
    rw [once, List.cons_append, quotation?_plain quote plain]
    exact map_eq_some_cons

section Escape

variable (escapes : d.escapesInside Text.singleQuote c)

include escapes

/-- Only a wildcard keeps the backslash in front of it, and only a backslash stands for itself. -/
theorem quotation?_escape_ne (other : e ≠ Text.backslash) (plain : isWildcard e = false) :
    d.quotation? Text.singleQuote (c :: e :: r) ≠ some (c :: v, rest) := by
  intro h
  rw [quotation?_escape escapes] at h
  obtain ⟨⟨w, _⟩, _, eq⟩ := Option.map_eq_some_iff.1 h
  obtain ⟨x, value, ne⟩ : ∃ x, escapeValue e = [x] ∧ x ≠ Text.backslash := by
    unfold escapeValue
    rw [plain, if_neg Bool.false_ne_true]
    split_ifs
    all_goals first | exact ⟨_, rfl, by decide⟩ | exact ⟨e, rfl, other⟩
  rw [value] at eq
  cases eq
  exact ne (escapesInside_iff.1 escapes).2.2

theorem not_readsBack_escape : ¬ d.ReadsBack rest [c] := by
  obtain ⟨_, _, rfl⟩ := escapesInside_iff.1 escapes
  exact quotation?_escape_ne escapes (by decide) (by decide)

theorem readsBack_escape :
    d.ReadsBack rest (c :: e :: v) ↔ isWildcard e ∧ d.ReadsBack rest v := by
  obtain ⟨_, _, rfl⟩ := escapesInside_iff.1 escapes
  unfold ReadsBack
  by_cases quote : e = Text.singleQuote
  · subst quote
    refine iff_of_false (quotation?_escape_ne escapes (by decide) (by decide)) ?_
    exact fun h => absurd h.1 (by decide)
  have once : Text.doubling Text.singleQuote (Text.backslash :: e :: v) =
      Text.backslash :: e :: Text.doubling Text.singleQuote v := by
    have ne : (e == Text.singleQuote) = false := beq_eq_false_iff_ne.2 quote
    simp only [Text.doubling, List.flatMap_cons, ne]
    rfl
  rw [once, List.cons_append, List.cons_append]
  by_cases wildcard : isWildcard e
  · have value : escapeValue e = [Text.backslash, e] := if_pos wildcard
    rw [quotation?_escape escapes, value]
    cases d.quotation? Text.singleQuote
      (Text.doubling Text.singleQuote v ++ Text.singleQuote :: rest) with
    | none => exact ⟨nofun, nofun⟩
    | some p => simp [Prod.ext_iff, wildcard]
  refine iff_of_false ?_ fun h => wildcard h.1
  by_cases again : e = Text.backslash
  · -- A second backslash would be one that the text is too short for.
    subst again
    intro h
    rw [quotation?_escape escapes] at h
    obtain ⟨⟨w, _⟩, found, eq⟩ := Option.map_eq_some_iff.1 h
    cases eq
    have weight := weight_of_quotation? found
    rw [List.length_append, length_doubling, List.length_cons, List.length_cons,
      List.count_cons_of_ne (by decide), id] at weight
    omega
  · exact quotation?_escape_ne escapes again (by simpa using wildcard)

end Escape

theorem keeps_cons (plain : d.escapesInside Text.singleQuote c = false) :
    d.keeps (c :: v) = d.keeps v := by
  rw [keeps, plain]
  rfl

theorem keeps_escape (escapes : d.escapesInside Text.singleQuote c) :
    d.keeps (c :: e :: v) ↔ isWildcard e ∧ d.keeps v := by
  rw [keeps, escapes, Bool.and_eq_true]
  change isWildcard e ∧ d.keeps (e :: v) ↔ _
  refine and_congr_right fun wildcard => ?_
  have plain : d.escapesInside Text.singleQuote e = false := by
    rw [Bool.eq_false_iff]
    intro again
    rw [(escapesInside_iff.1 again).2.2] at wildcard
    exact absurd wildcard (by decide)
  rw [keeps_cons plain]

theorem keeps_iff : d.keeps cs ↔ (d = .mariadb → ∀ front back,
    cs = front ++ Text.backslash :: back → ∃ e ∈ back.head?, isWildcard e) := by
  induction cs with
  | nil => simp [keeps]
  | cons c cs ih =>
    rw [keeps, Bool.and_eq_true, ih, Bool.or_eq_true, Bool.not_eq_true', Option.any_eq_true]
    constructor
    · rintro ⟨here, others⟩ maria front back eq
      cases front with
      | nil =>
        obtain ⟨rfl, rfl⟩ := List.cons.inj eq
        refine here.resolve_left fun plain => ?_
        rw [escapesInside_iff.2 ⟨maria, rfl, rfl⟩] at plain
        cases plain
      | cons x front => exact others maria front back (List.cons.inj eq).2
    · intro every
      refine ⟨?_, fun maria front back eq => every maria (c :: front) back (by rw [eq]; rfl)⟩
      by_cases escapes : d.escapesInside Text.singleQuote c
      · obtain ⟨maria, _, rfl⟩ := escapesInside_iff.1 escapes
        exact .inr (every maria [] cs rfl)
      · exact .inl (by simpa using escapes)

-- The recursion is the reader's: an escaping backslash takes the character behind it along.
/-- The texts that are read back from between apostrophes, whatever follows, are those that keep
their backslashes. -/
theorem readsBack_iff (stop : rest.head? ≠ some Text.singleQuote) :
    ∀ v, d.ReadsBack rest v ↔ d.keeps v
  | [] => iff_of_true (quotation?_close stop) rfl
  | [c] => by
    by_cases escapes : d.escapesInside Text.singleQuote c
    · exact iff_of_false (not_readsBack_escape escapes) (by simp [keeps, escapes])
    · rw [Bool.not_eq_true] at escapes
      rw [readsBack_cons escapes, keeps_cons escapes]
      exact readsBack_iff stop []
  | c :: e :: v => by
    by_cases escapes : d.escapesInside Text.singleQuote c
    · rw [readsBack_escape escapes, keeps_escape escapes, readsBack_iff stop v]
    · rw [Bool.not_eq_true] at escapes
      rw [readsBack_cons escapes, keeps_cons escapes]
      exact readsBack_iff stop (e :: v)

end Dialect

end ScopedQuery.Sql
