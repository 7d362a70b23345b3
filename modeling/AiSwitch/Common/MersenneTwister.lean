import Mathlib.Algebra.Group.Nat.Defs
import Mathlib.Data.Nat.Notation

/-!
# The Mersenne twister

`std::mt19937`: 624 words are made from a seed of 32 bits, and every further word from three earlier
ones. A distribution over `0, …, n - 1` takes the leading part of a word.
-/

namespace MersenneTwister

/-- The `n`-th word, after the `n` words that are there, the latest first. -/
def nextWord (seed : UInt32) (n : ℕ) (words : List UInt32) : UInt32 :=
  if n = 0 then seed
  else if n < 624 then
    let previous := words.headD 0
    (1812433253 : UInt32) * (previous ^^^ (previous >>> 30)) + UInt32.ofNat n
  else
    let y := (words.getD 623 0 &&& 0x80000000) ||| (words.getD 622 0 &&& 0x7fffffff)
    words.getD 226 0 ^^^ (y >>> 1) ^^^ (if y % 2 = 0 then 0 else 0x9908b0df)

/-- The first `n` words, the latest first. -/
def words (seed : UInt32) : ℕ → List UInt32
  | 0 => []
  | n + 1 =>
    let ws := words seed n
    nextWord seed n ws :: ws

def temper (y : UInt32) : UInt32 :=
  let y := y ^^^ (y >>> 11)
  let y := y ^^^ ((y <<< 7) &&& 0x9d2c5680)
  let y := y ^^^ ((y <<< 15) &&& 0xefc60000)
  y ^^^ (y >>> 18)

/-- The `i`-th number of a generator with the seed. -/
def mt19937 (seed : UInt32) (i : ℕ) : UInt32 := temper ((words seed (625 + i)).headD 0)

-- the first number for the default seed
example : mt19937 5489 0 = 3499211612 := by decide +kernel

/-- `uniform_int_distribution` as GNU's library computes it from one number of the generator, for an
`n` that divides `2 ^ 32`, so that no number is refused. -/
def uniformInt {n : ℕ} (hn : 0 < n) (u : UInt32) : Fin n :=
  ⟨n * u.toNat / 2 ^ 32, Nat.div_lt_of_lt_mul (by
    rw [Nat.mul_comm (2 ^ 32)]
    exact Nat.mul_lt_mul_of_pos_left u.toNat_lt hn)⟩

end MersenneTwister
