import ScopedQuery.Proofs.Function.Pieces

set_option autoImplicit false

namespace ScopedQuery

namespace Decimal

structure Numeral where
  negative : Bool
  digits : List Char
  ne : digits ≠ []
  digit : ∀ c ∈ digits, c.isDigit

namespace Numeral

variable (n : Numeral)

def chars : List Char := signText n.negative ++ n.digits

def value : Int := if n.negative then -(natOfDigits n.digits : Int) else natOfDigits n.digits

def Fits : Prop := -(signedLimit : Int) ≤ n.value ∧ n.value < signedLimit

instance : Decidable n.Fits := inferInstanceAs (Decidable (_ ∧ _))

theorem integer?_chars : integer? n.chars = some n.value := by
  unfold chars value
  cases n.negative with
  | false => exact integer?_positive n.ne n.digit
  | true => exact integer?_negative n.ne n.digit

theorem signed?_value :
    signed? n.value = if n.Fits then some (Int64.ofInt n.value) else none := rfl

theorem word : Clause.IsWord n.digits :=
  ⟨n.ne, fun c mem => by simp [Text.isWordChar, Char.isAlphanum, n.digit c mem]⟩

theorem shaped : Function.Shaped 0 n.chars := Function.shaped_word n.negative n.word

theorem paren_not_mem : '(' ∉ n.chars := by
  intro mem
  rcases List.mem_append.1 mem with sign | digit
  · cases negative : n.negative <;> simp [signText, negative] at sign
  · exact absurd (n.digit _ digit) (by decide)

end Numeral

end Decimal

namespace Function

open Sql Text
open Decimal (Numeral)

variable {own : Table} {d : Dialect} {piece : List Char} {place : List Nat} {text : String}
  {n : Numeral}

theorem nestedCall?_numeral : nestedCall? n.chars = none := by
  refine Option.eq_none_iff_forall_ne_some.2 fun call read => n.paren_not_mem ?_
  obtain ⟨inside, rest, whole, _⟩ := CallText.parse?_eq_some.1 (nestedCall?_eq_some.1 read).1
  rw [n.shaped.solid.trim_eq] at whole
  rw [whole]
  simp

theorem splitAtOperator?_numeral : splitAtOperator? n.chars = none := by
  rw [splitAtOperator?_eq, List.findSome?_eq_none_iff]
  intro k level
  refine n.shaped.cutAt?_eq_none ?_
  simp only [List.mem_cons, List.not_mem_nil, or_false] at level
  omega

theorem column?_numeral : column? own n.chars =
    if n.negative then none else some (own.column (String.ofList n.digits)).term := by
  cases sign : n.negative with
  | false =>
    have spelled : Clause.ColumnText.SpelledBy ⟨none, String.ofList n.digits⟩ n.digits :=
      .bare (.bare n.ne n.word.2)
    have bare : n.chars = n.digits := by simp [Numeral.chars, sign, Decimal.signText]
    rw [bare, column?, Clause.ColumnText.parse?_eq_some.2 spelled]
    rfl
  | true =>
    have signed : n.chars = '-' :: n.digits := by simp [Numeral.chars, sign, Decimal.signText]
    refine Option.bind_eq_none_iff.2 fun written parsed => ?_
    obtain ⟨c, r, eq, lead⟩ := lead_of_spelledBy (Clause.ColumnText.parse?_eq_some.1 parsed)
    rw [signed] at eq
    cases eq
    exact absurd lead (by decide)

theorem argument_numeral (written : trim piece = n.chars) : argument own d piece =
    if n.Fits then some (.literal (.int (Int64.ofInt n.value)))
    else if n.negative then none else some (own.column (String.ofList n.digits)).term := by
  have star : n.chars ≠ ['*'] := by
    intro same
    have lead := n.integer?_chars
    rw [same] at lead
    cases lead
  rw [argument_eq written n.shaped.ne_nil star, literal?, n.integer?_chars, nestedCall?_numeral,
    splitAtOperator?_numeral, column?_numeral]
  dsimp only
  rw [n.signed?_value]
  by_cases fits : n.Fits
  · rw [if_pos fits, if_pos fits]
    rfl
  · rw [if_neg fits, if_neg fits]
    rfl

/-- What a numeral may become: the literal of its value, and where that is out of range the column
that its digits name, if it has no sign. -/
structure Means (own : Table) (n : Numeral) (u : Term) : Prop where
  number : n.Fits → ∃ i : Int64, i.toInt = n.value ∧ u = .literal (.int i)
  column : ¬ n.Fits → n.negative = false ∧ u = (own.column (String.ofList n.digits)).term

theorem means_of_argument {u : Term} (written : trim piece = n.chars)
    (read : argument own d piece = some u) : Means own n u := by
  rw [argument_numeral written] at read
  constructor
  · intro fits
    rw [if_pos fits] at read
    exact ⟨Int64.ofInt n.value, Int64.toInt_ofInt_of_le fits.1 fits.2, (Option.some.inj read).symm⟩
  · intro large
    rw [if_neg large] at read
    cases sign : n.negative with
    | false =>
      rw [sign] at read
      exact ⟨rfl, (Option.some.inj read).symm⟩
    | true =>
      rw [sign] at read
      cases read

/-- Every numeral among the arguments and operands of a call becomes the literal of its value,
unless 64 bits do not hold it: then a numeral with a sign refuses the call, and one without a sign
becomes the column with its digits for a name. -/
theorem numeral_of_field (own : Table) (d : Dialect) (n : Numeral)
    (inside : PieceOfField piece place text) (written : trim piece = n.chars) :
    (n.negative → ¬ n.Fits → parseCall own d text = .error (.invalidSelectField text)) ∧
      ∀ f, parseCall own d text = .ok f → (∃ u, BecomesInField own d piece u place text f) ∧
        ∀ u, BecomesInField own d piece u place text f → Means own n u := by
  have means {f : FunctionCall} {u : Term} (becomes : BecomesInField own d piece u place text f) :
      Means own n u := by
    obtain ⟨c, made, _, becomes, _⟩ := becomes
    exact means_of_argument written (argument_of_becomesInCall becomes)
  refine ⟨fun sign large => ?_, fun f read => ⟨exists_becomesInField inside read, fun u => means⟩⟩
  rcases parseCall_ok_or_error own d text with ⟨f, read⟩ | refused
  · obtain ⟨u, becomes⟩ := exists_becomesInField inside read
    rw [((means becomes).column large).1] at sign
    cases sign
  · exact refused

theorem numeral_of_field_least :
    let own : Table := ⟨"tabTask"⟩
    let least : Numeral := ⟨true, "9223372036854775808".toList, by decide, List.all_eq_true.1 rfl⟩
    let below : Numeral := ⟨true, "9223372036854775809".toList, by decide, List.all_eq_true.1 rfl⟩
    let text := "coalesce(sum(qty), abs( -9223372036854775808)) as total"
    let f : FunctionCall := ⟨"COALESCE", [.call "SUM" [(own.column "qty").term] none,
      .call "ABS" [.literal (.int Int64.minValue)] none], some "total"⟩
    PieceOfField least.chars [1, 0] text ∧ least.Fits ∧ parseCall own .postgres text = .ok f ∧
      BecomesInField own .postgres least.chars (.literal (.int Int64.minValue)) [1, 0] text f ∧
      PieceOfField below.chars [0] "abs(-9223372036854775809)" ∧ ¬ below.Fits ∧
      parseCall own .postgres "abs(-9223372036854775809)" =
        .error (.invalidSelectField "abs(-9223372036854775809)") := by
  intro own least below text f
  have outer : CallText.parse? text.toList = some ⟨"coalesce".toList,
      ["sum(qty)".toList, "abs( -9223372036854775808)".toList], some "total".toList⟩ := by
    decide +kernel
  have inner : nestedCall? (trim "abs( -9223372036854775808)".toList) =
      some ⟨"abs".toList, [least.chars], none⟩ := rfl
  have piece : PieceOfField least.chars [1, 0] text :=
    ⟨_, "abs( -9223372036854775808)".toList, outer, rfl, .argument inner rfl .whole⟩
  have trimmed : trim least.chars = least.chars := rfl
  have fits : least.Fits := by decide
  have number : argument own .postgres least.chars = some (.literal (.int Int64.minValue)) := by
    rw [argument_numeral trimmed, if_pos fits]
    rfl
  have abs : argument own .postgres "abs( -9223372036854775808)".toList =
      some (.call "ABS" [.literal (.int Int64.minValue)] none) := by
    rw [argument_of_nestedCall? inner, callOf_plain rfl, arguments, number, arguments]
    dsimp only
    rfl
  have column : argument own .postgres "qty".toList = some (own.column "qty").term := by
    have name : trim "qty".toList = "qty".toList := rfl
    rw [argument_eq name (by decide) (by decide)]
    rfl
  have call : nestedCall? (trim "sum(qty)".toList) =
      some ⟨"sum".toList, ["qty".toList], none⟩ := rfl
  have sum : argument own .postgres "sum(qty)".toList =
      some (.call "SUM" [(own.column "qty").term] none) := by
    rw [argument_of_nestedCall? call, callOf_plain rfl, arguments, column, arguments]
    rfl
  have read : parseCall own .postgres text = .ok f := by
    refine parseCall_eq_ok.2 ⟨_, { f with label := none }, outer, ?_, rfl⟩
    rw [callOf_plain rfl, arguments, sum, arguments, abs, arguments]
    rfl
  obtain ⟨⟨u, becomes⟩, means⟩ := (numeral_of_field own .postgres least piece trimmed).2 f read
  obtain ⟨i, value, rfl⟩ := (means u becomes).number fits
  obtain rfl : i = Int64.minValue := Int64.toInt_inj.1 value
  have single : CallText.parse? "abs(-9223372036854775809)".toList =
      some ⟨"abs".toList, [below.chars], none⟩ := rfl
  have argument : PieceOfField below.chars [0] "abs(-9223372036854775809)" :=
    ⟨_, below.chars, single, rfl, .whole⟩
  have large : ¬ below.Fits := by decide
  exact ⟨piece, fits, read, becomes, argument, large,
    (numeral_of_field own .postgres below argument rfl).1 rfl large⟩

/-- The first number that is too large without a sign is read as a column. -/
theorem numeral_becomes_column :
    let own : Table := ⟨"tabTask"⟩
    let number := "9223372036854775808".toList
    let column := (own.column "9223372036854775808").term
    let text := "abs(9223372036854775808)"
    let f : FunctionCall := ⟨"ABS", [column], none⟩
    PieceOfField number [0] text ∧ parseCall own .mariadb text = .ok f ∧
      BecomesInField own .mariadb number column [0] text f ∧
      ∀ i, ¬ BecomesInField own .mariadb number (.literal (.int i)) [0] text f := by
  intro own number column text f
  let n : Numeral := ⟨false, number, by decide, List.all_eq_true.1 rfl⟩
  have single : CallText.parse? "abs(9223372036854775808)".toList =
      some ⟨"abs".toList, [number], none⟩ := rfl
  have piece : PieceOfField number [0] text := ⟨_, number, single, rfl, .whole⟩
  have written : trim number = n.chars := rfl
  have large : ¬ n.Fits := by decide
  have named : argument own .mariadb number = some column := by
    rw [argument_numeral written, if_neg large]
    rfl
  have read : parseCall own .mariadb text = .ok f := by
    refine parseCall_eq_ok.2 ⟨_, f, single, ?_, rfl⟩
    rw [callOf_plain rfl, arguments, named, arguments]
    dsimp only
    rfl
  obtain ⟨⟨u, becomes⟩, means⟩ := (numeral_of_field own .mariadb n piece written).2 f read
  have only {u : Term} (becomes : BecomesInField own .mariadb number u [0] text f) : u = column :=
    ((means u becomes).column large).2
  obtain rfl := only becomes
  exact ⟨piece, read, becomes, fun i literal => absurd (only literal) nofun⟩

end Function

end ScopedQuery
