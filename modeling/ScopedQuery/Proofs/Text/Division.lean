import ScopedQuery.Proofs.Text.TopLevel
import ScopedQuery.Proofs.Text.Words

set_option autoImplicit false

/-!
How a text comes apart at its top-level separators. The parts together are the whole text and cannot
be divided again, whatever is left open in it or closed once too often; a text that is well nested
by itself keeps its parts when more follows behind a separator. In bytes of UTF-8 the parts are
slices that begin and end between characters.
-/

namespace ScopedQuery.Text

/-! ### Well-nested texts -/

/-- Texts in which every quotation ends at its own mark and every parenthesis has its partner. -/
inductive WellNested : List Char → Prop
  | nil : WellNested []
  | plain {c : Char} {r : List Char} (unmarked : isMark c = false) (rest : WellNested r) :
    WellNested (c :: r)
  | quoted {q : Char} {inside r : List Char} (quote : isQuote q) (within : q ∉ inside)
    (rest : WellNested r) : WellNested (q :: (inside ++ q :: r))
  | nested {inside r : List Char} (within : WellNested inside) (rest : WellNested r) :
    WellNested ('(' :: (inside ++ ')' :: r))

section WellNested

variable {cs inside r : List Char} {c q : Char} {n : Nesting}

theorem Nesting.scan_of_not_mem {depth : Nat} (within : q ∉ inside) :
    Nesting.scan ⟨depth, some q⟩ inside = ⟨depth, some q⟩ := by
  induction inside with
  | nil => rfl
  | cons c inside ih =>
    rw [List.mem_cons, not_or] at within
    have other : (c == q) = false := beq_eq_false_iff_ne.2 (Ne.symm within.1)
    rw [scan_cons]
    simpa [step, other] using ih within.2

theorem WellNested.balanced (h : WellNested cs) : Balanced cs := by
  induction h with
  | nil => exact balanced_nil
  | plain unmarked _ ih =>
    exact (balanced_of_not_isMark (List.forall_mem_singleton.2 unmarked)).append ih
  | @quoted q inside r quote within _ ih =>
    have quotation := balanced_quoted quote inside
    rw [doubling_eq_self (q := q) fun x mem same => within (same ▸ mem)] at quotation
    simpa using quotation.append ih
  | nested _ _ ihw ihr => simpa using ihw.parenthesized.append ihr

theorem avoids_of_closingFrom (h : closingFrom n cs = none) : n.Avoids (· == ')') cs := by
  induction cs generalizing n with
  | nil => trivial
  | cons c cs ih =>
    rw [closingFrom] at h
    split at h
    · cases h
    · next passes => exact ⟨by simpa using passes, ih (Option.map_eq_none_iff.1 h)⟩

theorem exists_closing (h : Nesting.top.deeper.scan cs = .top) :
    ∃ inside rest, closing? cs = some (inside, rest) := by
  cases found : closing? cs with
  | some split => exact ⟨split.1, split.2, rfl⟩
  | none =>
    rw [Nesting.scan_deeper (avoids_of_closingFrom found)] at h
    cases congrArg Nesting.depth h

theorem Balanced.behind (front : Nesting.top.scan inside = .top) (h : Balanced (inside ++ r)) :
    Balanced r where
  inner := by
    have avoids := (Nesting.avoids_append.1 h.inner).2
    rwa [front] at avoids
  ends := by
    have ends := h.ends
    rwa [Nesting.scan_append, front] at ends

theorem scan_of_unmarked (unmarked : isMark c = false) : Nesting.top.scan [c] = .top :=
  Nesting.scan_of_not_isMark rfl (List.forall_mem_singleton.2 unmarked)

theorem Balanced.wellNested : ∀ {cs : List Char}, Balanced cs → WellNested cs
  | [], _ => .nil
  | c :: r, h => by
    by_cases quote : isQuote c
    · have inside := h.ends
      rw [Nesting.scan_cons, step_quote quote] at inside
      have closed : c ∈ r := by
        by_contra unclosed
        rw [Nesting.scan_of_not_mem unclosed] at inside
        cases inside
      obtain ⟨inner, rest, eq, first⟩ := List.eq_append_cons_of_mem closed
      have shorter : rest.length < r.length := by simp [eq]; omega
      have front : Nesting.top.scan (c :: (inner ++ [c])) = .top := by
        rw [Nesting.scan_cons, step_quote quote, Nesting.scan_append,
          Nesting.scan_of_not_mem first, Nesting.scan_cons, Nesting.scan_nil]
        simp [Nesting.step, Nesting.top]
      rw [eq] at h ⊢
      have behind : Balanced rest := Balanced.behind front (by simpa using h)
      exact .quoted quote first behind.wellNested
    by_cases opens : c = '('
    · subst opens
      have ends : Nesting.top.deeper.scan r = .top := h.ends
      obtain ⟨inner, rest, closed⟩ := exists_closing ends
      obtain ⟨within, eq⟩ := closing?_eq_some.1 closed
      have shorter : inner.length < r.length ∧ rest.length < r.length := by simp [eq]; omega
      rw [eq] at h ⊢
      have behind : Balanced rest := Balanced.behind within.parenthesized.ends (by simpa using h)
      exact .nested within.wellNested behind.wellNested
    · have closes : (c == ')') = false := h.inner.1 rfl
      have unmarked : isMark c = false := by simp [isMark, quote, opens, closes]
      have behind : Balanced r := Balanced.behind (scan_of_unmarked unmarked) h
      exact .plain unmarked behind.wellNested
termination_by cs => cs.length
decreasing_by all_goals simp only [List.length_cons]; omega

end WellNested

/-! ### Divisions -/

/-- A text divided into parts by a scan that starts from a given standing: none of them shows the
separator at its top level, and all but the last end at the top. -/
inductive Divided (sep : Char) : Nesting → List Char → List (List Char) → Prop
  | last {n : Nesting} {a : List Char} (avoids : n.Avoids (· == sep) a) : Divided sep n a [a]
  | more {n : Nesting} {a r : List Char} {ps : List (List Char)} (avoids : n.Avoids (· == sep) a)
    (ends : n.scan a = .top) (rest : Divided sep .top r ps) : Divided sep n (a ++ sep :: r) (a :: ps)

section Divided

variable {sep : Char} {n : Nesting} {cs r : List Char} {ps qs : List (List Char)}

theorem Divided.cons {c : Char} {p : List Char} (passes : n.isTop → (c == sep) = false)
    (h : Divided sep (n.step c) cs (p :: ps)) : Divided sep n (c :: cs) ((c :: p) :: ps) := by
  cases h with
  | last avoids => exact .last ⟨passes, avoids⟩
  | more avoids ends rest => exact @Divided.more sep n (c :: p) _ _ ⟨passes, avoids⟩ ends rest

theorem divided_partsFrom (separates : isMark sep = false) (n : Nesting) (cs : List Char) :
    Divided sep n cs (partsFrom sep n cs) := by
  induction cs generalizing n with
  | nil => exact .last trivial
  | cons c cs ih =>
    rw [partsFrom]
    split
    · next cut =>
      simp only [Bool.and_eq_true, beq_iff_eq] at cut
      obtain ⟨⟨top, rfl⟩, _⟩ := cut
      have rest := ih n
      rw [Nesting.eq_top top] at rest ⊢
      exact @Divided.more c _ [] _ _ trivial rfl rest
    · next whole =>
      have passes : n.isTop → (c == sep) = false := by
        intro top
        rw [beq_eq_false_iff_ne]
        rintro rfl
        simp [top, separates] at whole
      have rest := ih (n.step c)
      split
      · next parted =>
        rw [parted] at rest
        exact rest.cons passes
      · next none => exact absurd none (partsFrom_ne_nil _ _ _)

theorem Divided.partsFrom_eq (separates : isMark sep = false) (h : Divided sep n cs ps) :
    partsFrom sep n cs = ps := by
  induction h with
  | last avoids => exact partsFrom_of_avoids avoids
  | more avoids ends _ ih => rw [partsFrom_append separates avoids ends, ih]

theorem Divided.avoids (h : Divided sep .top cs ps) : ∀ p ∈ ps, Nesting.top.Avoids (· == sep) p := by
  generalize start : Nesting.top = n at h
  induction h with
  | last avoids =>
    subst start
    exact List.forall_mem_singleton.2 avoids
  | more avoids _ _ ih =>
    subst start
    exact List.forall_mem_cons.2 ⟨avoids, ih rfl⟩

theorem Divided.append (h : Divided sep n cs ps) (ends : n.scan cs = .top)
    (separates : isMark sep = false) (hr : Divided sep .top r qs) :
    Divided sep n (cs ++ sep :: r) (ps ++ qs) := by
  induction h with
  | last avoids => exact .more avoids ends hr
  | more avoids inner _ ih =>
    rw [Nesting.scan_append, inner, Nesting.scan_cons, Nesting.step_of_not_isMark rfl separates]
      at ends
    rw [List.append_assoc, List.cons_append]
    exact .more avoids inner (ih ends)

theorem Divided.balanced (separates : isMark sep = false) (h : Divided sep .top cs ps)
    (balanced : Balanced cs) : ∀ p ∈ ps, Balanced p := by
  generalize start : Nesting.top = n at h
  induction h with
  | last => exact List.forall_mem_singleton.2 balanced
  | more _ ends _ ih =>
    subst start
    have first := (Nesting.avoids_append.1 balanced.inner).1
    have behind := balanced.behind ends
    have rest := Balanced.behind (scan_of_unmarked separates) behind
    exact List.forall_mem_cons.2 ⟨⟨first, ends⟩, ih rest rfl⟩

end Divided

/-! ### Slices -/

def byteSize (cs : List Char) : Nat := (String.ofList cs).utf8ByteSize

theorem byteSize_append (a b : List Char) : byteSize (a ++ b) = byteSize a + byteSize b := by
  rw [byteSize, String.ofList_append, String.utf8ByteSize_append]
  rfl

theorem byteSize_singleton (c : Char) : byteSize [c] = c.utf8Size := by
  rw [byteSize, ← String.singleton_eq_ofList, String.utf8ByteSize_singleton]

/-- Whether a part of a text is what stands between two offsets, both of them between characters. -/
structure Span.Shows (text : String) (s : Span) (part : List Char) : Prop where
  start_valid : (String.Pos.Raw.mk s.start).IsValid text
  stop_valid : (String.Pos.Raw.mk s.stop).IsValid text
  bytes : text.toByteArray.extract s.start s.stop = (String.ofList part).toByteArray

section Slices

variable {sep : Char} {n : Nesting} {cs a : List Char} {ps : List (List Char)}

theorem shows_append (front part back : List Char) :
    Span.Shows (String.ofList (front ++ (part ++ back)))
      ⟨byteSize front, byteSize front + byteSize part⟩ part where
  start_valid := String.Pos.Raw.isValid_iff_exists_append.2
    ⟨String.ofList front, String.ofList (part ++ back), String.ofList_append, rfl⟩
  stop_valid := String.Pos.Raw.isValid_iff_exists_append.2
    ⟨String.ofList (front ++ part), String.ofList back,
      by rw [← String.ofList_append, List.append_assoc], by rw [← byteSize_append]; rfl⟩
  bytes := by
    rw [String.ofList_append, String.ofList_append, String.toByteArray_append,
      String.toByteArray_append]
    have size : byteSize front = (String.ofList front).toByteArray.size := rfl
    have behind (bytes : ByteArray) (j : Nat) :
        ((String.ofList front).toByteArray ++ bytes).extract (byteSize front + 0)
          (byteSize front + j) = bytes.extract 0 j :=
      ByteArray.extract_append_size_add' size
    exact (behind _ _).trans (ByteArray.extract_append_eq_left rfl)

theorem spansFrom_append (h : n.Avoids (· == sep) a) (start offset : Nat) (r : List Char) :
    spansFrom sep n start offset (a ++ r) =
      spansFrom sep (n.scan a) start (offset + byteSize a) r := by
  induction a generalizing n offset with
  | nil => rfl
  | cons c a ih =>
    have passes : (n.isTop && c == sep && !isMark c) = false := by
      cases top : n.isTop with
      | false => rfl
      | true => simp [h.1 top]
    have size : byteSize (c :: a) = c.utf8Size + byteSize a := by
      rw [← byteSize_singleton, ← byteSize_append]
      rfl
    rw [List.cons_append, spansFrom, passes, if_neg Bool.false_ne_true, ih h.2, size,
      Nat.add_assoc, Nesting.scan_cons]

theorem Divided.shows (separates : isMark sep = false) (h : Divided sep n cs ps)
    (front : List Char) : List.Forall₂ (Span.Shows (String.ofList (front ++ cs)))
      (spansFrom sep n (byteSize front) (byteSize front) cs) ps := by
  induction h generalizing front with
  | @last n a avoids =>
    have whole := spansFrom_append avoids (byteSize front) (byteSize front) []
    have slice := shows_append front a []
    rw [List.append_nil] at whole slice
    rw [whole]
    exact .cons slice .nil
  | @more n a r ps avoids ends _ ih =>
    have cut : (Nesting.top.isTop && sep == sep && !isMark sep) = true := by
      rw [separates, beq_self_eq_true]
      rfl
    have text : front ++ (a ++ sep :: r) = front ++ (a ++ [sep]) ++ r := by simp
    have next : byteSize front + byteSize a + sep.utf8Size = byteSize (front ++ (a ++ [sep])) := by
      rw [byteSize_append, byteSize_append, byteSize_singleton, Nat.add_assoc]
    rw [spansFrom_append avoids, ends, spansFrom, if_pos cut]
    refine .cons (shows_append front a (sep :: r)) ?_
    rw [next, text]
    exact ih (front ++ (a ++ [sep]))

end Slices

/-- Parts and separators make up the text, no part comes apart again, and the slices that are taken
lie between characters. Behind a well-nested text a separator divides as it would by itself. -/
theorem parts_lossless_final {sep : Char} (separates : isMark sep = false) (text : String) :
    [sep].intercalate (parts sep text.toList) = text.toList ∧
      (∀ p ∈ parts sep text.toList, parts sep p = [p]) ∧
      List.Forall₂ (Span.Shows text) (spans sep text) (parts sep text.toList) ∧
      (WellNested text.toList → (∀ p ∈ parts sep text.toList, WellNested p) ∧
        ∀ rest : List Char, parts sep (text.toList ++ sep :: rest) =
          parts sep text.toList ++ parts sep rest) := by
  have divided := divided_partsFrom separates .top text.toList
  refine ⟨intercalate_partsFrom sep .top text.toList, ?_, ?_, fun nested => ⟨?_, fun rest => ?_⟩⟩
  · exact fun p mem => partsFrom_of_avoids (divided.avoids p mem)
  · have slices := divided.shows separates []
    rwa [List.nil_append, String.ofList_toList] at slices
  · exact fun p mem => (divided.balanced separates nested.balanced p mem).wellNested
  · have behind := divided_partsFrom separates .top rest
    exact (divided.append nested.balanced.ends separates behind).partsFrom_eq separates

theorem parts_lossless_final_naive :
    let text := "naïve(a,'(,'),β"
    isMark ',' = false ∧ WellNested text.toList ∧
      parts ',' text.toList = ["naïve(a,'(,')".toList, "β".toList] ∧
      spans ',' text = [⟨0, 14⟩, ⟨15, 17⟩] ∧
      [','].intercalate (parts ',' text.toList) = text.toList ∧
      (∀ p ∈ parts ',' text.toList, parts ',' p = [p]) ∧
      List.Forall₂ (Span.Shows text) (spans ',' text) (parts ',' text.toList) ∧
      (∀ p ∈ parts ',' text.toList, WellNested p) ∧
      ∀ rest : List Char,
        parts ',' (text.toList ++ ',' :: rest) = parts ',' text.toList ++ parts ',' rest := by
  intro text
  have quotation : WellNested "'(,'".toList :=
    @WellNested.quoted singleQuote ['(', ','] [] rfl (by decide) .nil
  have arguments : WellNested "a,'(,'".toList := .plain rfl (.plain rfl quotation)
  have call : WellNested "(a,'(,'),β".toList :=
    @WellNested.nested "a,'(,'".toList ",β".toList arguments (.plain rfl (.plain rfl .nil))
  have nested : WellNested "naïve(a,'(,'),β".toList :=
    .plain rfl (.plain rfl (.plain rfl (.plain rfl (.plain rfl call))))
  obtain ⟨joined, final, slices, closed⟩ := parts_lossless_final (rfl : isMark ',' = false) text
  obtain ⟨within, behind⟩ := closed nested
  exact ⟨rfl, nested, by decide +kernel, by decide +kernel, joined, final, slices, within, behind⟩

end ScopedQuery.Text
