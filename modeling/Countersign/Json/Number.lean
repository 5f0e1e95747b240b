import Countersign.Binary64.Nearest

/-! The binary64 number that a number in a document is read as. Its digits are taken from the left
into a word, and those that no longer fit are left out; the word is then multiplied or divided by a
power of ten. Every step rounds once, so a number of few digits is read as the nearest binary64
number, and a longer one as that or as another one close to it. -/

namespace Countersign.Numeral

/-- The longest start of a number's digits that is a word, and how many digits it leaves out. -/
def startingWord (n : Nat) : Nat × Nat :=
  if n < UInt64.size then (n, 0)
  else
    let start := startingWord (n / 10)
    (start.1, start.2 + 1)
termination_by n
decreasing_by all_goals simp only [UInt64.size] at *; omega

/-- Takes digits behind those of a word as long as it stays below 2^64. The second part is how many
are taken. -/
def takeInto (word : Nat) : List Digit → Nat × Nat
  | [] => (word, 0)
  | d :: ds =>
    if 10 * word + d.val < UInt64.size then
      let more := takeInto (10 * word + d.val) ds
      (more.1, more.2 + 1)
    else (word, 0)

/-- The word of a written number and the power of ten that it is multiplied by. A digit of the whole
part that is left out counts for ten, and one of the fraction for nothing. -/
def wordAndScale (n : Numeral) : Nat × Int :=
  let (word, left) := startingWord n.whole
  let (word, taken) := takeInto word n.fraction
  (word, n.exponent.getD 0 + left - taken)

/-- The largest power of ten below infinity. -/
def topScale : Nat := 308

/-- A finite number multiplied by a power of ten, in one step as far as there is a binary64 number
for the power. What is larger becomes infinite and what is smaller is divided step by step. -/
def scaled (x : Binary64) (scale : Int) : Binary64 :=
  if scale.natAbs ≤ topScale then
    let power := Binary64.ofDecimal false 1 scale.natAbs
    if 0 ≤ scale then x.mul power else x.div power
  else if x.magnitude = 0 then x
  else if 0 ≤ scale then Binary64.signed x.negative Binary64.infinityBits
  else scaled (x.div (Binary64.ofDecimal false 1 topScale)) (scale + topScale)
termination_by scale.natAbs
decreasing_by
  simp only [topScale] at *
  omega

/-- The number as it is read in a document; one that is too large is infinite. -/
def toBinary64 (n : Numeral) : Binary64 :=
  let (word, scale) := n.wordAndScale
  scaled (Binary64.nearest n.negative word 1) scale

end Countersign.Numeral
