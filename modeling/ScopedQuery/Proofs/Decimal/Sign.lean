import Mathlib
import ScopedQuery.Decimal.Reading
import ScopedQuery.Decimal.Shortest

set_option autoImplicit false

namespace ScopedQuery.Decimal

open Float.Model (Format UnpackedFloat)
open Float.Model.UnpackedFloat (Sign Accuracy roundWithAccuracy packComponents)

def Unsigned : UnpackedFloat → Prop
  | .infinity s | .zero s | .finite s _ _ _ => s = .positive
  | .notANumber => True

theorem unsigned_round (f : Format) (m : Nat) (e : Int) (a : Accuracy) :
    Unsigned (roundWithAccuracy f .positive m e a) := by
  unfold roundWithAccuracy
  dsimp only
  split <;> rfl

theorem unsigned_mul (f : Format) {x y : UnpackedFloat} (hx : Unsigned x) (hy : Unsigned y) :
    Unsigned (UnpackedFloat.mul f x y) := by
  cases x <;> cases y <;> simp only [Unsigned] at hx hy <;> subst_vars <;>
    first | exact unsigned_round _ _ _ _ | exact rfl | trivial

theorem unsigned_div (f : Format) {x y : UnpackedFloat} (hx : Unsigned x) (hy : Unsigned y) :
    Unsigned (UnpackedFloat.div f x y) := by
  cases x <;> cases y <;> simp only [Unsigned] at hx hy <;> subst_vars <;>
    first | exact unsigned_round _ _ _ _ | exact rfl | trivial

theorem unsigned_ofNat (f : Format) (n : Nat) : Unsigned (UnpackedFloat.ofNat f n) := by
  unfold UnpackedFloat.ofNat UnpackedFloat.ofInt UnpackedFloat.normalize
  split
  · next negative =>
    rw [Int.compare_eq_lt] at negative
    omega
  · rfl
  · exact unsigned_round _ _ _ _

theorem unsigned_ofScientific (f : Format) (m : Nat) (e : Int) :
    Unsigned (UnpackedFloat.ofScientific f m e) := by
  unfold UnpackedFloat.ofScientific
  split_ifs
  · rfl
  · rfl
  · rfl
  · exact unsigned_mul _ rfl rfl
  · exact unsigned_div _ rfl rfl

theorem msb_packComponents (f : Format) (e : BitVec f.exponentBits)
    (m : BitVec f.mantissaBitsWithoutImplicit) :
    (packComponents f .positive e m).msb = false := by
  simp [packComponents, Sign.toBitVec, BitVec.msb_append]

theorem msb_pack (f : Format) {x : UnpackedFloat} (h : Unsigned x) :
    (UnpackedFloat.pack f x).msb = false := by
  cases x <;> simp only [Unsigned] at h <;> subst_vars
  · exact msb_packComponents _ _ _
  · exact msb_packComponents _ _ _
  · exact msb_packComponents _ _ _
  · unfold UnpackedFloat.pack
    dsimp only
    split_ifs <;> exact msb_packComponents _ _ _

theorem unsigned_unpack {b : BitVec Format.binary64.numBits} (h : b.msb = false) :
    Unsigned (UnpackedFloat.unpack .binary64 b) := by
  have sign : UnpackedFloat.unpackSign b = 0#1 := by
    ext i hi
    obtain rfl : i = 0 := by omega
    simpa [UnpackedFloat.unpackSign, BitVec.msb_eq_getLsbD_last] using h
  unfold UnpackedFloat.unpack
  rw [sign]
  dsimp only
  split_ifs <;> trivial

def Plus (x : Float) : Prop := x.toBits.toBitVec.msb = false

theorem plus_pack {u : UnpackedFloat} (h : Unsigned u) : Plus (.ofModel (.pack u)) := msb_pack _ h

theorem Plus.unsigned {x : Float} (h : Plus x) : Unsigned x.toModel.unpack := unsigned_unpack h

theorem plus_ofBits {b : UInt64} (h : b.toBitVec.msb = false) : Plus (.ofBits b) :=
  plus_pack (unsigned_unpack h)

theorem plus_power (e : Nat) (h : e < Float.exactlyRepresentablePowersOfTen.size) :
    Plus Float.exactlyRepresentablePowersOfTen[e] := by
  have all : ∀ x ∈ Float.exactlyRepresentablePowersOfTen.toList, Plus x := by
    unfold Float.exactlyRepresentablePowersOfTen
    repeat' refine List.forall_mem_cons.2 ⟨plus_ofBits (by decide), ?_⟩
    exact List.forall_mem_nil _
  exact all _ (Array.getElem_mem_toList h)

theorem plus_ofScientific (m : Nat) (negativeExponent : Bool) (e : Nat) :
    Plus (Float.ofScientific m negativeExponent e) := by
  unfold Float.ofScientific
  split
  · have whole : Plus m.toUInt64.toFloat := plus_pack (unsigned_ofNat _ _)
    dsimp only
    split
    · exact plus_pack (unsigned_div _ whole.unsigned (plus_power e _).unsigned)
    · exact plus_pack (unsigned_mul _ whole.unsigned (plus_power e _).unsigned)
  · exact plus_pack (unsigned_ofScientific _ _ _)

theorem ofBits_of_plus {x : Float} (h : Plus x) :
    Parts.ofBits x.toBits.toNat ≠ .infinite true ∧
      ∀ m e narrow, Parts.ofBits x.toBits.toNat ≠ .finite true m e narrow := by
  have small : 2 * x.toBits.toNat < 2 ^ 64 := BitVec.msb_eq_false_iff_two_mul_lt.1 h
  have clear : (x.toBits.toNat / signedLimit % 2 == 1) = false := by
    rw [Nat.div_eq_of_lt (by rw [signedLimit]; omega)]
    rfl
  unfold Parts.ofBits
  dsimp only
  rw [clear]
  split_ifs <;> simp

end ScopedQuery.Decimal
