import Abacus.Binary64.Basic

/-!
# Words of 64 bits

The exponent field follows the significand without its leading digit, so a magnitude is written as
`shift <<< 52 + significand`: the leading digit of a full significand carries into the field.
-/

namespace Abacus

namespace Magnitude

def toBits (m : Magnitude) : Nat := m.shift <<< 52 + m.significand

/-- The magnitude that a word without its sign stands for, none for infinity and NaN. -/
def ofBits? (word : Nat) : Option Magnitude :=
  let field := word >>> 52
  let fraction := word - field <<< 52
  if field = 0 then some (unshifted fraction (by omega))
  else if h : field ≤ 2046 then
    some ⟨1 <<< 52 + fraction, field - 1, by omega, by omega, .inr (by omega)⟩
  else none

theorem ofBits?_toBits (m : Magnitude) : ofBits? m.toBits = some m := by
  obtain ⟨s, e, hs, he, hf⟩ := m
  simp only [ofBits?, toBits, unshifted]
  by_cases h : s < 1 <<< 52
  · have he0 : e = 0 := by omega
    subst he0
    have hd : (0 <<< 52 + s) >>> 52 = 0 := by omega
    simp only [hd, if_true, Option.some.injEq, mk.injEq, and_true]
    omega
  · have hd : (e <<< 52 + s) >>> 52 = e + 1 := by omega
    simp only [hd, Nat.add_eq_zero_iff, Nat.one_ne_zero, and_false, if_false, Nat.add_sub_cancel,
      dif_pos (show e + 1 ≤ 2046 by omega), Option.some.injEq, mk.injEq, and_true]
    omega

end Magnitude

end Abacus
