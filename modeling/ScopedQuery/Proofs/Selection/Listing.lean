import ScopedQuery.Proofs.Clause.Listing
import ScopedQuery.Proofs.Request.Memory
import ScopedQuery.Proofs.Selection.Referral

set_option autoImplicit false

namespace ScopedQuery

open Text (Uncut)

namespace Sql

variable {d : Dialect} {cs : List Char}

/-- Whether a text shows nothing that opens a comment on some dialect, not even in a quotation. -/
structure Uncommented (cs : List Char) : Prop where
  line : ¬ ['-', '-'] <:+: cs
  block : ¬ ['/', '*'] <:+: cs
  hash : '#' ∉ cs

instance (cs : List Char) : Decidable (Uncommented cs) :=
  decidable_of_iff (¬ ['-', '-'] <:+: cs ∧ ¬ ['/', '*'] <:+: cs ∧ '#' ∉ cs)
    ⟨fun ⟨line, block, hash⟩ => ⟨line, block, hash⟩, fun h => ⟨h.line, h.block, h.hash⟩⟩

theorem Uncommented.tail {c : Char} (h : Uncommented (c :: cs)) : Uncommented cs where
  line infix' := h.line (infix'.trans (List.suffix_cons c cs).isInfix)
  block infix' := h.block (infix'.trans (List.suffix_cons c cs).isInfix)
  hash mem := h.hash (List.mem_cons_of_mem c mem)

/-- Where nothing opens a comment all characters are kept, in quotations and outside of them. -/
theorem Uncommented.stripFrom_eq (h : Uncommented cs) (region : Region)
    (uncommented : region = .code ∨ ∃ mark, region = .quoted mark) :
    stripFrom d region cs = cs := by
  induction cs generalizing region with
  | nil => simp [stripFrom]
  | cons c r ih =>
    rcases uncommented with rfl | ⟨mark, rfl⟩
    · have hash : (c == '#') = false := by
        rw [beq_eq_false_iff_ne]
        rintro rfl
        exact h.hash List.mem_cons_self
      rw [stripFrom, hash]
      · split
        · rw [ih h.tail _ (.inr ⟨c, rfl⟩)]
        · exact congrArg (c :: ·) (ih h.tail _ (.inl rfl))
      · rintro rest rfl rfl
        exact h.block ⟨[], rest, rfl⟩
      · rintro rest rfl rfl
        exact h.line ⟨[], rest, rfl⟩
    · rw [stripFrom]
      refine congrArg (c :: ·) (ih h.tail _ ?_)
      split
      · exact .inl rfl
      · exact .inr ⟨mark, rfl⟩

theorem Uncommented.stripComments_eq (h : Uncommented cs) : stripComments d cs = cs :=
  h.stripFrom_eq .code (.inl rfl)

end Sql

namespace Clause

variable {cs : List Char}

theorem isCallShape_of_splitLabel {w : ColumnText} {expr : List Char} {label : Option (List Char)}
    (divided : splitLabel cs = (expr, label)) (spelled : w.SpelledBy expr) :
    isCallShape cs = false := by
  rw [Bool.eq_false_iff]
  intro call
  obtain ⟨name, r, word, whole, _⟩ := word_of_isCallShape call
  obtain ⟨front, tail, cut, leading, trailing⟩ := splitLabel_append divided
  have nothing : front = [] := by
    cases front with
    | nil => rfl
    | cons c front =>
      have blank := leading c List.mem_cons_self
      obtain ⟨x, name', rfl⟩ := List.exists_cons_of_ne_nil word.1
      rw [whole] at cut
      obtain ⟨rfl, _⟩ := List.cons.inj cut
      rw [not_isBlank_of_isWordChar (word.2 x List.mem_cons_self)] at blank
      cases blank
  have behind : ∀ c ∈ tail.head?, Text.isBlank c := by
    rcases trailing with blanks | introduced
    · exact fun c head => blanks c (List.mem_of_mem_head? head)
    · obtain ⟨l, found⟩ := Option.isSome_iff_exists.1 introduced
      obtain ⟨_, _, _, head⟩ := afterAs?_append found
      exact head
  -- The text is read as the column, and as the word in front of the parenthesis.
  have column : ColumnText.read cs = some (w, tail) := by
    rw [cut, nothing]
    exact ColumnText.read_append spelled fun c head => stops_of_isBlank (behind c head)
  have called : ColumnText.read cs = some (⟨none, String.ofList name⟩, '(' :: r) := by
    rw [whole]
    refine ColumnText.read_word word.1 word.2 ?_
    rintro _ ⟨⟩
    decide
  obtain ⟨_, rfl⟩ := Prod.mk.inj (Option.some.inj (column.symm.trans called))
  exact absurd (behind '(' rfl) (by decide)

end Clause

namespace Selection

open Outcome

variable {c : Catalog} {own : Sql.Table} {d : Sql.Dialect} {m : Memo}

/-! ### One entry -/

theorem plainColumn?_of_not_column {cs : List Char}
    (other : ∀ w : Clause.ColumnText, ¬ w.SpelledBy (Clause.splitLabel cs).1) :
    plainColumn? own cs = none := by
  have unread : Clause.ColumnText.parse? (Clause.splitLabel cs).1 = none :=
    Option.eq_none_iff_forall_ne_some.2 fun w read =>
      other w (Clause.ColumnText.parse?_eq_some.1 read)
  unfold plainColumn?
  dsimp only
  rw [unread]
  rfl

/-- What is read as something other than a call has a column in front of its label, or is a star or
a position. -/
theorem cases_of_parseText {text : String} {i : Item} (h : parseText c own d text = .ok i) :
    text.toList = ['*'] ∨ Text.isDigits text.toList ∨
      (∃ call, Function.CallText.parse? text.toList = some call) ∨
      ∃ (w : Clause.ColumnText) (expr : List Char) (label : Option (List Char)),
        Clause.splitLabel text.toList = (expr, label) ∧ w.SpelledBy expr := by
  unfold parseText at h
  dsimp only at h
  split at h
  · next star => exact .inl (by simpa using star)
  split at h
  · next digits => exact .inr (.inl digits)
  split at h
  · obtain ⟨f, read, _⟩ := map_eq_ok.1 h
    unfold Function.parseCall at read
    dsimp only at read
    split at read
    · next parsed =>
      obtain ⟨call, found, _⟩ := Option.bind_eq_some_iff.1 parsed
      exact .inr (.inr (.inl ⟨call, found⟩))
    · cases read
  obtain ⟨reference, read, h⟩ := bind_eq_ok.1 h
  refine .inr (.inr (.inr ?_))
  split at h
  · obtain ⟨_, expr, label, divided, _, leads⟩ := Reference.leads_of_parse read
    obtain ⟨w, spelled, _⟩ := leads.spelled
    exact ⟨w, expr, label, divided, spelled⟩
  split at h
  · next column plain =>
    obtain ⟨expr, label, divided⟩ : ∃ expr label, Clause.splitLabel text.toList = (expr, label) :=
      ⟨_, _, rfl⟩
    unfold plainColumn? at plain
    rw [divided] at plain
    obtain ⟨w, written, _⟩ := Option.bind_eq_some_iff.1 plain
    exact ⟨w, expr, label, divided, Clause.ColumnText.parse?_eq_some.1 written⟩
  · cases h

theorem uncut_of_parseText {text : String} {i : Item} (selectable : Clause.isSelectable text.toList)
    (h : parseText c own d text = .ok i) : Uncut Clause.isComma text.toList := by
  have solid := Clause.solid_of_isSelectable selectable
  have digits (h : Text.isDigits text.toList) : Uncut Clause.isComma text.toList :=
    Clause.uncut_of_forall (by decide) (Clause.IsWord.of_isDigits h).2
  rcases cases_of_parseText h with star | position | ⟨call, parsed⟩ | ⟨w, _, _, divided, spelled⟩
  · rw [star]
    exact Text.uncut_of_plain (List.forall_mem_singleton.2 (by decide))
  · exact digits position
  · have uncut := Function.CallText.uncut_of_parse? parsed
    rwa [solid.trim_eq] at uncut
  · unfold Clause.isSelectable at selectable
    rw [Clause.isCallShape_of_splitLabel divided spelled] at selectable
    simp only [Bool.or_eq_true, Bool.or_false] at selectable
    rcases selectable with (star | position) | column
    · rw [show text.toList = ['*'] by simpa using star]
      exact Text.uncut_of_plain (List.forall_mem_singleton.2 (by decide))
    · exact digits position
    · exact Clause.uncut_of_isLabelledColumn column

/-- Whether a text can be selected by itself, as an item. -/
def Reads (c : Catalog) (own : Sql.Table) (d : Sql.Dialect) (text : String) (i : Item) : Prop :=
  ∃ m : Memo, m.Sound ∧ (parseEntry c own d m (.text text)).1 = .ok (some i)

theorem Reads.parseEntry_eq {text : String} {i : Item} (h : Reads c own d text i)
    (sound : m.Sound) :
    (parseEntry c own d m (.text text)).1 = .ok (some i) := by
  obtain ⟨m', sound', read⟩ := h
  rw [(alike_parseEntry sound sound' own (.text text)).value, read]

/-- An entry without comments stands in a list as it is: it has no blanks at its ends, and no comma
cuts it. -/
theorem Reads.uncut {text : String} {i : Item} (h : Reads c own d text i)
    (uncommented : Sql.Uncommented text.toList) :
    Text.Solid text.toList ∧ Uncut Clause.isComma text.toList := by
  obtain ⟨m, sound, read⟩ := h
  have stages : (parseEntry c own d m (.text text)).1 =
      (m.sanitize d text).1.bind fun s => (parseText c own d s).map some := rfl
  rw [stages, sound.sanitize_eq] at read
  obtain ⟨sanitized, clean, read⟩ := bind_eq_ok.1 read
  unfold sanitize at clean
  split at clean
  case isFalse => cases clean
  next selectable =>
  have solid := Clause.solid_of_isSelectable selectable
  rw [uncommented.stripComments_eq, solid.trim_eq, String.ofList_toList] at clean
  cases clean
  obtain ⟨item, parsed, _⟩ := map_eq_ok.1 read
  exact ⟨solid, uncut_of_parseText selectable parsed⟩

/-- The ways to select one field: as the text of the whole selection, or as the only entry of a
list. -/
inductive Single (text : String) : Selection → Prop
  | text : Single text (.text text)
  | entry : Single text (.entries [.text text])

theorem Single.parse_eq {text : String} {selection : Selection} (h : Single text selection)
    (sound : m.Sound) (solid : Text.Solid text.toList) (uncut : Uncut Clause.isComma text.toList) :
    (selection.parse c own d m).1 =
      (sanitize d text).bind fun s => (parseText c own d s).map fun i => [i] := by
  have entries : selection.toEntries = [.text text] := by
    cases h with
    | entry => rfl
    | text =>
      obtain ⟨x, first, _⟩ := solid.first
      obtain ⟨r, eq⟩ := List.head?_eq_some_iff.1 first
      have filled : ∀ e ∈ [text.toList], (!e.isEmpty) = true :=
        List.forall_mem_singleton.2 (by simp [eq])
      have whole := Clause.entries_intercalate (List.forall_mem_singleton.2 uncut)
      rw [List.intercalate_singleton, List.map_singleton, solid.trim_eq,
        List.filter_eq_self.2 filled] at whole
      rw [toEntries, whole]
      exact congrArg (fun text => [Entry.text text]) String.ofList_toList
  have clean := sound.sanitize_eq d text
  rw [parse, entries, parseEntries, parseEntry]
  generalize m.sanitize d text = sanitized at clean ⊢
  obtain ⟨result, m'⟩ := sanitized
  obtain rfl : result = sanitize d text := clean
  cases sanitize d text with
  | error fault => rfl
  | ok s =>
    dsimp only [Except.bind]
    cases parseText c own d s <;> rfl

/-! ### Lists of entries -/

structure Spaced where
  before : List Char
  entry : String
  after : List Char
  blank_before : ∀ c ∈ before, Text.isBlank c
  blank_after : ∀ c ∈ after, Text.isBlank c

def Spaced.ofEntry (entry : String) : Spaced := ⟨[], entry, [], Text.blank_nil, Text.blank_nil⟩

def Spaced.chars (e : Spaced) : List Char := e.before ++ (e.entry.toList ++ e.after)

def joined (es : List Spaced) : Selection :=
  .text (String.ofList ([','].intercalate (es.map Spaced.chars)))

def separate (es : List Spaced) : Selection := .entries (es.map fun e => .text e.entry)

theorem Spaced.trim_chars (e : Spaced) (solid : Text.Solid e.entry.toList) :
    Text.trim e.chars = e.entry.toList :=
  solid.trim_around e.blank_before e.blank_after

theorem Spaced.uncut_chars (e : Spaced) (uncut : Uncut Clause.isComma e.entry.toList) :
    Uncut Clause.isComma e.chars := by
  have blank {cs : List Char} (all : ∀ c ∈ cs, Text.isBlank c) : Uncut Clause.isComma cs :=
    Clause.uncut_of_forall (by decide) all
  exact (blank e.blank_before).append (uncut.append (blank e.blank_after))

theorem toEntries_joined {es : List Spaced}
    (h : ∀ e ∈ es, Text.Solid e.entry.toList ∧ Uncut Clause.isComma e.entry.toList) :
    (joined es).toEntries = (separate es).toEntries := by
  have trimmed : (es.map Spaced.chars).map Text.trim = es.map fun e => e.entry.toList := by
    rw [List.map_map]
    exact List.map_congr_left fun e mem => e.trim_chars (h e mem).1
  have solid : ∀ cs ∈ es.map fun e => e.entry.toList, (!cs.isEmpty) = true := by
    intro cs mem
    obtain ⟨e, there, rfl⟩ := List.mem_map.1 mem
    obtain ⟨c, first, _⟩ := (h e there).1.first
    obtain ⟨r, eq⟩ := List.head?_eq_some_iff.1 first
    rw [eq]
    rfl
  have entries : Clause.entries ([','].intercalate (es.map Spaced.chars)) =
      es.map fun e => e.entry.toList := by
    rw [Clause.entries_intercalate, trimmed, List.filter_eq_self.2 solid]
    intro cs mem
    obtain ⟨e, there, rfl⟩ := List.mem_map.1 mem
    exact e.uncut_chars (h e there).2
  rw [joined, separate, toEntries, toEntries, String.toList_ofList, entries, List.map_map]
  exact List.map_congr_left fun e _ => congrArg Entry.text String.ofList_toList

theorem parseEntries_of_reads {es : List Spaced} {items : List Item} (sound : m.Sound)
    (each : List.Forall₂ (fun e i => Reads c own d e.entry i) es items) :
    ((separate es).parse c own d m).1 = .ok items := by
  change (parseEntries c own d (es.map fun e => .text e.entry) m).1 = _
  induction each generalizing m with
  | nil => rfl
  | @cons e i es items first _ ih =>
    have read := first.parseEntry_eq sound
    have kept := (alike_parseEntry (c := c) (d := d) sound sound own (.text e.entry)).left
    rw [List.map_cons, parseEntries]
    generalize parseEntry c own d m (.text e.entry) = p at read kept ⊢
    obtain ⟨result, m'⟩ := p
    obtain rfl : result = .ok (some i) := read
    exact map_eq_ok.2 ⟨items, ih kept, rfl⟩

/-- A text that lists entries with commas in between selects what the entries select one by one:
each of them is read, and the items come in their order. -/
theorem parse_joined {es : List Spaced} (sound : m.Sound)
    (uncommented : ∀ e ∈ es, Sql.Uncommented e.entry.toList)
    (accepted : ∀ e ∈ es, ∃ i, Reads c own d e.entry i) :
    ∃ items m', List.Forall₂ (fun e i => Reads c own d e.entry i) es items ∧
      (joined es).parse c own d m = (.ok items, m') ∧
      (separate es).parse c own d m = (.ok items, m') := by
  obtain ⟨items, each⟩ : ∃ items, List.Forall₂ (fun e i => Reads c own d e.entry i) es items :=
    exists_forall₂ accepted
  have same : (joined es).parse c own d m = (separate es).parse c own d m := by
    rw [parse, parse, toEntries_joined]
    intro e mem
    obtain ⟨i, read⟩ := accepted e mem
    exact read.uncut (uncommented e mem)
  have read : (separate es).parse c own d m = (.ok items, _) :=
    Prod.ext (parseEntries_of_reads sound each) rfl
  exact ⟨items, _, each, same.trans read, read⟩

def listedTasks : List Spaced :=
  [⟨[], "concat(subject, 'a,b') AS line", [' '], Text.blank_nil, Text.blank_space⟩,
    ⟨[' '], "name", [], Text.blank_space, Text.blank_nil⟩, .ofEntry "*"]

theorem parse_joined_listedTasks :
    let own := Sql.Table.ofEntity "Task"
    let line : Item := .call ⟨"CONCAT", [(own.column "subject").term, .text "a,b"], some "line"⟩
    joined listedTasks = .text "concat(subject, 'a,b') AS line , name,*" ∧
      ∃ m', (joined listedTasks).parse .empty own .mariadb (.empty 8) =
        (.ok [line, .plain (own.column "name"), .star own], m') := by
  intro own line
  have call : Function.parseCall own .mariadb "concat(subject, 'a,b') AS line" =
      .ok ⟨"CONCAT", [(own.column "subject").term, .text "a,b"], some "line"⟩ := by
    have column : Function.argument own .mariadb "subject".toList =
        some (own.column "subject").term := by
      rw [Function.argument]
      rfl
    have literal : Function.argument own .mariadb "'a,b'".toList = some (.text "a,b") := by
      rw [Function.argument]
      rfl
    have text : Function.CallText.parse? "concat(subject, 'a,b') AS line".toList =
        some ⟨"concat".toList, ["subject".toList, "'a,b'".toList], some "line".toList⟩ := rfl
    have args : Function.arguments own .mariadb ["subject".toList, "'a,b'".toList] =
        some [(own.column "subject").term, .text "a,b"] := by
      rw [Function.arguments, column, Function.arguments, literal, Function.arguments]
      rfl
    unfold Function.parseCall
    rw [text]
    dsimp only [Option.bind_eq_bind, Option.bind_some]
    unfold Function.callOf
    rw [if_neg (by decide), args]
    rfl
  have first : Reads .empty own .mariadb "concat(subject, 'a,b') AS line" line := by
    refine ⟨.empty 8, Memo.sound_empty 8, ?_⟩
    have clean : (parseEntry .empty own .mariadb (.empty 8)
        (.text "concat(subject, 'a,b') AS line")).1 =
        ((Function.parseCall own .mariadb "concat(subject, 'a,b') AS line").map .call).map some :=
      rfl
    rw [clean, call]
    rfl
  have second : Reads .empty own .mariadb "name" (.plain (own.column "name")) :=
    ⟨.empty 8, Memo.sound_empty 8, rfl⟩
  have third : Reads .empty own .mariadb "*" (.star own) := ⟨.empty 8, Memo.sound_empty 8, rfl⟩
  have each : List.Forall₂ (fun e i => Reads .empty own .mariadb e.entry i) listedTasks
      [line, .plain (own.column "name"), .star own] := .cons first (.cons second (.cons third .nil))
  obtain ⟨items, m', _, whole, apart⟩ := parse_joined (Memo.sound_empty 8)
    (by decide) fun e mem => (exists_right each mem).imp fun _ found => found.2
  have same := parseEntries_of_reads (Memo.sound_empty 8) each
  rw [apart] at same
  cases same
  exact ⟨rfl, m', whole⟩

end Selection

end ScopedQuery
