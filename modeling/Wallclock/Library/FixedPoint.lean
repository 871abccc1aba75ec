import Mathlib.Tactic.Positivity
import Mathlib.Tactic.Ring

/-!
# Fixed-Point Numbers in Machine Words

A number with a binary fraction of fixed length, and the words it is computed
in.

`fixedPoint k n num den` is `n + num / den` in units of `2 ^ -k`, rounded
down. It is computed in two parts, the whole units shifted and the fraction
divided, and `fixedPoint_eq_div` says that this is one division: nothing is
lost between the two parts. Order and resolution are read off that division.

In a word of `w` bits such a number is known modulo `2 ^ w`. Shifting and
adding words is multiplying and adding the integers they stand for, so an
expression over words is `BitVec.ofInt` of the same expression over integers,
signed or not, and two of them are equal exactly if the integers agree modulo
`2 ^ w`.

## Main definitions

* `fixedPoint`: A number with a fraction of `k` bits, rounded down.

## Theorems

* `fixedPoint_eq_div`: It is one division.
* `fixedPoint_div`: Its upper part is the whole part.
* `fraction_lt`: Its fraction does not carry.
* `fixedPoint_mono`: It is monotone.
* `fixedPoint_lt`: Numbers that are one unit apart differ.
* `ofInt_eq_iff`: Words are equal if the integers agree.
* `ofInt_shiftLeft`, `shiftLeft_eq_ofInt`: A shift is a multiplication.
* `shiftLeft_eq_iff`: A shift forgets the upper bits.
* `toNat_ofInt_of_lt`: A word holds an integer in its range.
* `toNat_shiftLeft_of_lt`: A shift that loses no bits.
-/

namespace Word

/-- The number `n + num / den` in units of `2 ^ -k`, rounded down. -/
def fixedPoint (k : Nat) (n : Int) (num den : Nat) : Int :=
  2 ^ k * n + (2 ^ k * num / den : Nat)

section FixedPoint

variable {k num den num' : Nat} {n n' : Int}

theorem fixedPoint_eq_div (hden : 0 < den) :
    fixedPoint k n num den = 2 ^ k * (n * den + num) / den := by
  have hne : (den : Int) ≠ 0 := Int.natCast_ne_zero.mpr (Nat.pos_iff_ne_zero.mp hden)
  have hsplit : 2 ^ k * (n * den + num) = 2 ^ k * num + 2 ^ k * n * (den : Int) := by ring
  rw [hsplit, Int.add_mul_ediv_right _ _ hne, fixedPoint, Int.add_comm]
  norm_cast

/-- The fraction stays below one whole unit. -/
theorem fraction_lt (h : num < den) : 2 ^ k * num / den < 2 ^ k := by
  have hden : 0 < den := Nat.lt_of_le_of_lt (Nat.zero_le num) h
  exact (Nat.div_lt_iff_lt_mul hden).mpr (Nat.mul_lt_mul_of_pos_left h (Nat.two_pow_pos k))

/-- So the upper part is the whole part. -/
theorem fixedPoint_div (h : num < den) : fixedPoint k n num den / 2 ^ k = n := by
  have hlt := fraction_lt (k := k) h
  have hpos : (2 : Int) ^ k ≠ 0 := Int.ne_of_gt (by positivity)
  have hfrac : ((2 ^ k * num / den : Nat) : Int) / 2 ^ k = 0 :=
    Int.ediv_eq_zero_of_lt (Int.natCast_nonneg _) (by exact_mod_cast hlt)
  rw [fixedPoint, Int.add_comm, Int.mul_comm, Int.add_mul_ediv_right _ _ hpos, hfrac, Int.zero_add]

theorem fixedPoint_mono (hden : 0 < den) (h : n * den + num ≤ n' * den + num') :
    fixedPoint k n num den ≤ fixedPoint k n' num' den := by
  rw [fixedPoint_eq_div hden, fixedPoint_eq_div hden]
  refine Int.ediv_le_ediv (by omega) ?_
  exact Int.mul_le_mul_of_nonneg_left h (by positivity)

/-- Numbers that are at least one unit apart are told apart. -/
theorem fixedPoint_lt (hden : 0 < den)
    (h : (den : Int) ≤ 2 ^ k * ((n' * den + num') - (n * den + num))) :
    fixedPoint k n num den < fixedPoint k n' num' den := by
  have hpos : (0 : Int) < den := Int.natCast_pos.mpr hden
  rw [fixedPoint_eq_div hden, fixedPoint_eq_div hden, Int.lt_iff_add_one_le,
    Int.le_ediv_iff_mul_le hpos]
  have hfloor := Int.ediv_mul_le (2 ^ k * (n * den + num)) (Int.ne_of_gt hpos)
  rw [Int.mul_sub] at h
  rw [Int.add_mul, Int.one_mul]
  omega

end FixedPoint

section Words

variable {w k : Nat}

/-- Two words are equal if the integers agree modulo the range. -/
theorem ofInt_eq_iff {x y : Int} :
    BitVec.ofInt w x = BitVec.ofInt w y ↔ x % 2 ^ w = y % 2 ^ w := by
  have hpos : (2 : Int) ^ w ≠ 0 := Int.ne_of_gt (by positivity)
  have hcast : ((2 ^ w : Nat) : Int) = 2 ^ w := by norm_cast
  rw [← BitVec.toNat_inj, BitVec.toNat_ofInt, BitVec.toNat_ofInt, hcast]
  have hx := Int.emod_nonneg x hpos
  have hy := Int.emod_nonneg y hpos
  omega

/-- A shift multiplies the integer. -/
theorem ofInt_shiftLeft (x : Int) : BitVec.ofInt w x <<< k = BitVec.ofInt w (2 ^ k * x) := by
  rw [BitVec.shiftLeft_eq_mul_twoPow, Int.mul_comm, BitVec.ofInt_mul]
  congr 1
  apply BitVec.eq_of_toNat_eq
  rw [BitVec.toNat_twoPow, BitVec.toNat_ofInt]
  norm_cast

theorem shiftLeft_eq_ofInt (x : BitVec w) : x <<< k = BitVec.ofInt w (2 ^ k * x.toInt) := by
  rw [← ofInt_shiftLeft, BitVec.ofInt_toInt]

/-- A shift forgets the upper bits and nothing else. -/
theorem shiftLeft_eq_iff {x y : Int} :
    2 ^ k * x % 2 ^ (k + w) = 2 ^ k * y % 2 ^ (k + w) ↔ x % 2 ^ w = y % 2 ^ w := by
  have hpos : (0 : Int) < 2 ^ k := by positivity
  rw [pow_add, Int.mul_emod_mul_of_pos _ _ hpos, Int.mul_emod_mul_of_pos _ _ hpos]
  constructor
  · exact fun h => Int.eq_of_mul_eq_mul_left (Int.ne_of_gt hpos) h
  · exact fun h => by rw [h]

/-- A word holds an integer in its range. -/
theorem toNat_ofInt_of_lt {x : Int} (hlo : 0 ≤ x) (hhi : x < 2 ^ w) :
    ((BitVec.ofInt w x).toNat : Int) = x := by
  have hcast : ((2 ^ w : Nat) : Int) = 2 ^ w := by norm_cast
  rw [BitVec.toNat_ofInt, hcast, Int.emod_eq_of_lt hlo hhi, Int.toNat_of_nonneg hlo]

/-- A shift that loses no bits. -/
theorem toNat_shiftLeft_of_lt {x : BitVec w} (h : 2 ^ k * x.toNat < 2 ^ w) :
    (x <<< k).toNat = 2 ^ k * x.toNat := by
  rw [BitVec.toNat_shiftLeft, Nat.shiftLeft_eq, Nat.mul_comm, Nat.mod_eq_of_lt h]

end Words

end Word
