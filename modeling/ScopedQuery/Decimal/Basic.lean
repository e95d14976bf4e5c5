set_option autoImplicit false

namespace ScopedQuery.Decimal

def natOfDigits (cs : List Char) : Nat :=
  cs.foldl (fun n c => 10 * n + (c.toNat - '0'.toNat)) 0

def digits (n : Nat) : List Char := Nat.toDigits 10 n

def ofNat (n : Nat) : String := String.ofList (digits n)

def ofInt : Int → String
  | .ofNat n => ofNat n
  | .negSucc n => "-" ++ ofNat (n + 1)

def wordLimit : Nat := 18446744073709551616

def signedLimit : Nat := 9223372036854775808

def signed? (n : Int) : Option Int64 :=
  if -(signedLimit : Int) ≤ n ∧ n < signedLimit then some (Int64.ofInt n) else none

def unsignedOfDigits? (cs : List Char) : Option Nat :=
  let n := natOfDigits cs
  if n < wordLimit then some n else none

theorem toInt_signed? {n : Int} {i : Int64} (h : signed? n = some i) : i.toInt = n := by
  unfold signed? at h
  split at h
  · next range =>
    cases h
    exact Int64.toInt_ofInt_of_le range.1 range.2
  · cases h

theorem signed?_toInt (i : Int64) : signed? i.toInt = some i := by
  have low := i.minValue_le_toInt
  have high := i.toInt_lt
  unfold signed?
  rw [if_pos ⟨by simpa [signedLimit] using low, by simpa [signedLimit] using high⟩,
    Int64.ofInt_toInt]

end ScopedQuery.Decimal
