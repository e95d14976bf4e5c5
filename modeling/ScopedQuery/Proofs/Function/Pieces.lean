import ScopedQuery.Proofs.Operator.Reading

set_option autoImplicit false

namespace ScopedQuery.Function

open Sql Text

/-- What is read of the arguments of a call: the date of an extraction, and otherwise all of them. -/
def readArguments (name : List Char) (args : List (List Char)) : List (List Char) :=
  if isExtract name then args.filterMap fun a => (extraction? a).map Prod.snd else args

/-- Whether a text stands at a place in the text of an argument. A place is the list of the numbers
of the arguments and operands in which one has to go, from the outside in. -/
inductive PieceOf (piece : List Char) : List Nat → List Char → Prop
  | whole : PieceOf piece [] piece
  | argument {text a : List Char} {c : CallText} {i : Nat} {place : List Nat}
    (call : nestedCall? (trim text) = some c) (here : (readArguments c.name c.args)[i]? = some a)
    (inside : PieceOf piece place a) : PieceOf piece (i :: place) text
  | left {text : List Char} {o : Occurrence} {place : List Nat}
    (cut : splitAtOperator? (trim text) = some o) (inside : PieceOf piece place o.left) :
    PieceOf piece (0 :: place) text
  | right {text : List Char} {o : Occurrence} {place : List Nat}
    (cut : splitAtOperator? (trim text) = some o) (inside : PieceOf piece place o.right) :
    PieceOf piece (1 :: place) text

mutual

/-- Whether the text that stands at a place in an argument's text becomes the term `u` where the
argument becomes a term. -/
inductive Becomes (own : Table) (d : Dialect) (piece : List Char) (u : Term) :
    List Nat → List Char → Term → Prop
  | whole (read : argument own d piece = some u) : Becomes own d piece u [] piece u
  | call {text : List Char} {c : CallText} {f : FunctionCall} {place : List Nat}
    (call : nestedCall? (trim text) = some c)
    (inside : BecomesInCall own d piece u place c.name c.args f) : Becomes own d piece u place text f.term
  | left {text : List Char} {o : Occurrence} {op : BinaryOp} {left right : Term} {place : List Nat}
    (cut : splitAtOperator? (trim text) = some o)
    (token : BinaryOp.ofToken? (String.ofList o.token) = some op)
    (inside : Becomes own d piece u place o.left left) (other : argument own d o.right = some right) :
    Becomes own d piece u (0 :: place) text (.binary left op right)
  | right {text : List Char} {o : Occurrence} {op : BinaryOp} {left right : Term} {place : List Nat}
    (cut : splitAtOperator? (trim text) = some o)
    (token : BinaryOp.ofToken? (String.ofList o.token) = some op)
    (other : argument own d o.left = some left) (inside : Becomes own d piece u place o.right right) :
    Becomes own d piece u (1 :: place) text (.binary left op right)

inductive BecomesInCall (own : Table) (d : Dialect) (piece : List Char) (u : Term) :
    List Nat → List Char → List (List Char) → FunctionCall → Prop
  | date {name a word date : List Char} {part : DatePart} {t : Term} {place : List Nat}
    (extract : isExtract name) (read : extraction? a = some (word, date))
    (keyword : DatePart.ofKeyword? (String.ofList word) = some part)
    (inside : Becomes own d piece u place date t) :
    BecomesInCall own d piece u (0 :: place) name [a] ⟨"EXTRACT", [.datePart part, t], none⟩
  | argument {name a : List Char} {args : List (List Char)} {terms : List Term} {t : Term} {i : Nat}
    {place : List Nat} (other : isExtract name = false) (read : arguments own d args = some terms)
    (here : args[i]? = some a) (there : terms[i]? = some t) (inside : Becomes own d piece u place a t) :
    BecomesInCall own d piece u (i :: place) name args (Function.call (String.ofList name) terms d)

end

def PieceOfField (piece : List Char) : List Nat → String → Prop
  | [], _ => False
  | i :: place, text => ∃ c a, CallText.parse? text.toList = some c ∧
    (readArguments c.name c.args)[i]? = some a ∧ PieceOf piece place a

def BecomesInField (own : Table) (d : Dialect) (piece : List Char) (u : Term) (place : List Nat)
    (text : String) (f : FunctionCall) : Prop :=
  ∃ c made, CallText.parse? text.toList = some c ∧
    BecomesInCall own d piece u place c.name c.args made ∧
    f = { made with label := c.label.map String.ofList }

variable {own : Table} {d : Dialect} {text piece name a : List Char} {args : List (List Char)}
  {place : List Nat} {o : Occurrence} {c : CallText} {t u : Term} {f : FunctionCall}

theorem ne_of_nestedCall? {cs : List Char} (call : nestedCall? cs = some c) :
    cs ≠ [] ∧ cs ≠ ['*'] := by
  constructor <;> rintro rfl <;> cases call

theorem ne_of_splitAtOperator? {cs : List Char} (cut : splitAtOperator? cs = some o) :
    cs ≠ [] ∧ cs ≠ ['*'] := by
  constructor <;> rintro rfl <;> cases cut

theorem literal?_of_nestedCall? (call : nestedCall? (trim text) = some c) :
    literal? (trim text) = none := by
  obtain ⟨inside, rest, whole, word, _⟩ := CallText.parse?_eq_some.1 (nestedCall?_eq_some.1 call).1
  rw [← trim_trim, whole]
  exact literal?_call word _

theorem none_of_splitAtOperator? (cut : splitAtOperator? (trim text) = some o) :
    literal? (trim text) = none ∧ nestedCall? (trim text) = none := by
  obtain ⟨c, head, solid⟩ := (solid_trim (ne_of_splitAtOperator? cut).1).first
  obtain ⟨r, eq⟩ := List.head?_eq_some_iff.1 head
  have contra (apart : begins (operators 3) c = false) :
      ¬ Free isOperatorChar (trim text) := by
    intro free
    rw [eq] at cut free
    rw [splitAtOperator?_eq_none solid apart free] at cut
    cases cut
  constructor
  · refine Option.eq_none_iff_forall_ne_some.2 fun v read => contra ?_ (free_of_literal? read)
    obtain ⟨x, first, apart⟩ := head?_of_literal? read
    rw [head] at first
    cases first
    exact apart
  · refine Option.eq_none_iff_forall_ne_some.2 fun call read =>
      contra ?_ (free_of_nestedCall? (trim_trim text) read)
    obtain ⟨_, _, whole, word, _⟩ := CallText.parse?_eq_some.1 (nestedCall?_eq_some.1 read).1
    obtain ⟨x, name, named⟩ := List.exists_cons_of_ne_nil word.1
    rw [trim_trim, eq, named] at whole
    cases whole
    exact isOperatorChar_of_begins 3
      (not_isOperatorChar (by decide) (word.2 c (named ▸ List.mem_cons_self)))

theorem argument_of_nestedCall? (call : nestedCall? (trim text) = some c) :
    argument own d text = (callOf own d c.name c.args).map FunctionCall.term := by
  obtain ⟨ne, star⟩ := ne_of_nestedCall? call
  rw [argument_eq rfl ne star, literal?_of_nestedCall? call, call]
  rfl

theorem argument_of_splitAtOperator? (cut : splitAtOperator? (trim text) = some o) :
    argument own d text = some t ↔ ∃ op left right,
      BinaryOp.ofToken? (String.ofList o.token) = some op ∧ argument own d o.left = some left ∧
      argument own d o.right = some right ∧ t = .binary left op right := by
  obtain ⟨ne, star⟩ := ne_of_splitAtOperator? cut
  obtain ⟨literal, call⟩ := none_of_splitAtOperator? cut
  rw [argument_eq rfl ne star, literal, call, cut]
  simp only [Option.elim_none, Option.elim_some, column?_eq_none cut]
  cases BinaryOp.ofToken? (String.ofList o.token) <;> cases argument own d o.left <;>
    cases argument own d o.right <;> simp [eq_comm]

theorem callOf_extraction (extract : isExtract name) (read : callOf own d name args = some f) :
    ∃ a word date part t, args = [a] ∧ extraction? a = some (word, date) ∧
      DatePart.ofKeyword? (String.ofList word) = some part ∧ argument own d date = some t ∧
      f = ⟨"EXTRACT", [.datePart part, t], none⟩ := by
  unfold callOf at read
  rw [if_pos extract] at read
  split at read
  · next a =>
    split at read
    · next word date found =>
      split at read
      · next part t keyword date =>
        cases read
        exact ⟨a, word, _, part, t, rfl, found, keyword, date, rfl⟩
      · cases read
    · cases read
  · cases read

theorem callOf_plain (other : isExtract name = false) :
    callOf own d name args = (arguments own d args).map fun terms =>
      Function.call (String.ofList name) terms d := by
  unfold callOf
  rw [other, if_neg Bool.false_ne_true]

/-- Each argument of a call that is read has been read by itself, and stands at its place. -/
theorem arguments_getElem? {terms : List Term} {i : Nat} (read : arguments own d args = some terms)
    (here : args[i]? = some a) : ∃ t, terms[i]? = some t ∧ argument own d a = some t := by
  induction args generalizing terms i with
  | nil => cases here
  | cons b args ih =>
    rw [arguments] at read
    obtain ⟨t, first, read⟩ := Option.bind_eq_some_iff.1 read
    obtain ⟨rest, others, read⟩ := Option.bind_eq_some_iff.1 read
    cases read
    cases i with
    | zero =>
      cases here
      exact ⟨t, rfl, first⟩
    | succ i =>
      obtain ⟨u, there, found⟩ := ih others here
      exact ⟨u, there, found⟩

theorem exists_becomesInCall {i : Nat} (made : callOf own d name args = some f)
    (here : (readArguments name args)[i]? = some a)
    (inside : ∀ t, argument own d a = some t → ∃ u, Becomes own d piece u place a t) :
    ∃ u, BecomesInCall own d piece u (i :: place) name args f := by
  unfold readArguments at here
  by_cases extract : isExtract name
  · obtain ⟨arg, word, date, part, t, rfl, read, keyword, found, rfl⟩ :=
      callOf_extraction extract made
    have single : [date][i]? = some a := by simpa [extract, read] using here
    obtain ⟨rfl, rfl⟩ : i = 0 ∧ date = a := by simpa [List.getElem?_singleton] using single
    obtain ⟨u, becomes⟩ := inside t found
    exact ⟨u, .date extract read keyword becomes⟩
  · rw [Bool.not_eq_true] at extract
    rw [extract, if_neg Bool.false_ne_true] at here
    rw [callOf_plain extract] at made
    obtain ⟨terms, read, rfl⟩ := Option.map_eq_some_iff.1 made
    obtain ⟨t, there, found⟩ := arguments_getElem? read here
    obtain ⟨u, becomes⟩ := inside t found
    exact ⟨u, .argument extract read here there becomes⟩

theorem exists_becomes (inside : PieceOf piece place text) (read : argument own d text = some t) :
    ∃ u, Becomes own d piece u place text t := by
  induction inside generalizing t with
  | whole => exact ⟨t, .whole read⟩
  | argument call here _ ih =>
    rw [argument_of_nestedCall? call] at read
    obtain ⟨f, made, rfl⟩ := Option.map_eq_some_iff.1 read
    obtain ⟨u, becomes⟩ := exists_becomesInCall made here fun _ => ih
    exact ⟨u, .call call becomes⟩
  | left cut _ ih =>
    obtain ⟨op, left, right, token, hl, hr, rfl⟩ := (argument_of_splitAtOperator? cut).1 read
    obtain ⟨u, becomes⟩ := ih hl
    exact ⟨u, .left cut token becomes hr⟩
  | right cut _ ih =>
    obtain ⟨op, left, right, token, hl, hr, rfl⟩ := (argument_of_splitAtOperator? cut).1 read
    obtain ⟨u, becomes⟩ := ih hr
    exact ⟨u, .right cut token hl becomes⟩

mutual

theorem argument_of_becomes : ∀ {place : List Nat} {text : List Char} {t : Term},
    Becomes own d piece u place text t → argument own d piece = some u
  | _, _, _, .whole read => read
  | _, _, _, .call _ inside => argument_of_becomesInCall inside
  | _, _, _, .left _ _ inside _ => argument_of_becomes inside
  | _, _, _, .right _ _ _ inside => argument_of_becomes inside

theorem argument_of_becomesInCall : ∀ {place : List Nat} {name : List Char}
    {args : List (List Char)} {f : FunctionCall}, BecomesInCall own d piece u place name args f →
    argument own d piece = some u
  | _, _, _, _, .date _ _ _ inside => argument_of_becomes inside
  | _, _, _, _, .argument _ _ _ _ inside => argument_of_becomes inside

end

theorem parseCall_eq_ok {text : String} : parseCall own d text = .ok f ↔
    ∃ c made, CallText.parse? text.toList = some c ∧ callOf own d c.name c.args = some made ∧
      f = { made with label := c.label.map String.ofList } := by
  unfold parseCall
  dsimp only
  cases parsed : CallText.parse? text.toList with
  | none => simp
  | some c =>
    cases made : callOf own d c.name c.args with
    | none => simp [made]
    | some g => simp [made, eq_comm]

theorem parseCall_ok_or_error (own : Table) (d : Dialect) (text : String) :
    (∃ f, parseCall own d text = .ok f) ∨
      parseCall own d text = .error (.invalidSelectField text) := by
  unfold parseCall
  dsimp only
  split
  · exact .inl ⟨_, rfl⟩
  · exact .inr rfl

theorem exists_becomesInField {text : String} (inside : PieceOfField piece place text)
    (read : parseCall own d text = .ok f) : ∃ u, BecomesInField own d piece u place text f := by
  cases place with
  | nil => exact inside.elim
  | cons i place =>
    obtain ⟨c, a, parsed, here, inside⟩ := inside
    obtain ⟨c', made, parsed', called, rfl⟩ := parseCall_eq_ok.1 read
    obtain rfl : c = c' := Option.some.inj (parsed.symm.trans parsed')
    obtain ⟨u, becomes⟩ := exists_becomesInCall called here fun _ => exists_becomes inside
    exact ⟨u, c, made, parsed, becomes, rfl⟩

end ScopedQuery.Function
