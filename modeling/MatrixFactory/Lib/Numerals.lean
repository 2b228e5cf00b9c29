/-
# Numerals

A numeral of a field rests on the fact that its number is at least two, and a numeral of
`Fin n` on the fact that `n` is not zero. Where these facts have names, definitions of
different modules refer to the same ones.
-/
import Mathlib.Data.Nat.Cast.Defs

namespace Numerals

scoped instance two : Nat.AtLeastTwo 2 := ⟨by decide⟩

scoped instance three : Nat.AtLeastTwo 3 := ⟨by decide⟩

scoped instance four : Nat.AtLeastTwo 4 := ⟨by decide⟩

scoped instance ten : Nat.AtLeastTwo 10 := ⟨by decide⟩

scoped instance fourteen : Nat.AtLeastTwo 14 := ⟨by decide⟩

scoped instance fifty : Nat.AtLeastTwo 50 := ⟨by decide⟩

scoped instance threeHundredFifty : Nat.AtLeastTwo 350 := ⟨by decide⟩

scoped instance fiveHundred : Nat.AtLeastTwo 500 := ⟨by decide⟩

scoped instance thousand : Nat.AtLeastTwo 1000 := ⟨by decide⟩

scoped instance twelveThousandFiveHundred : Nat.AtLeastTwo 12500 := ⟨by decide⟩

scoped instance four_neZero : @NeZero ℕ Zero.ofOfNat0 4 := ⟨by decide⟩

end Numerals
