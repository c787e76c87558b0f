/-!
# Reading figures

A figure is an unsigned 64-bit number in decimal, with an optional plus
sign before it.  `readFigure` goes through the digits from left to right
and stops at the first fault, so `tooLarge` is reported for a text whose
leading digits already overflow, whatever follows them.  The decimal text of a
figure is read back (`readFigure_toString`).
-/

namespace PooledRouting.Text

/-- Why a text is no figure. -/
inductive FigureFault where
  | empty
  | notDigit
  | tooLarge
  deriving DecidableEq, Repr

/-- The wording of the fault. -/
def FigureFault.message : FigureFault → String
  | empty => "cannot parse integer from empty string"
  | notDigit => "invalid digit found in string"
  | tooLarge => "number too large to fit in target type"

/-- The number of values that a figure can take. -/
def figureLimit : Nat := UInt64.size

/-- The value of one decimal digit. -/
def digitValue (c : Char) : Nat :=
  c.toNat - '0'.toNat

/-- The digits of `cs`, read on after a part worth `acc`. -/
def readDigits (acc : Nat) : List Char → Except FigureFault Nat
  | [] => .ok acc
  | c :: cs =>
    if c.isDigit then
      let next := acc * 10 + digitValue c
      if next < figureLimit then readDigits next cs else .error .tooLarge
    else .error .notDigit

/-- A sign by itself has no digits; a leading plus sign is otherwise
passed over. -/
def readFigure : List Char → Except FigureFault Nat
  | [] => .error .empty
  | ['+'] => .error .notDigit
  | '+' :: cs => readDigits 0 cs
  | cs => readDigits 0 cs

/-! ## Figures that were written -/

theorem le_ofDigitChars (cs : List Char) (acc : Nat) : acc ≤ Nat.ofDigitChars 10 cs acc := by
  induction cs generalizing acc with
  | nil => exact Nat.le_refl acc
  | cons c cs ih =>
    have hrest := ih (10 * acc + (c.toNat - '0'.toNat))
    simp only [Nat.ofDigitChars, List.foldl_cons] at hrest ⊢
    omega

/-- Digits are read as the number that they spell, if it fits.  No part of them
is too large then, since a number only grows as its digits are read. -/
theorem readDigits_eq {cs : List Char} {acc : Nat} (hdigits : ∀ c ∈ cs, c.isDigit = true)
    (hfits : Nat.ofDigitChars 10 cs acc < figureLimit) :
    readDigits acc cs = .ok (Nat.ofDigitChars 10 cs acc) := by
  induction cs generalizing acc with
  | nil => rfl
  | cons c cs ih =>
    obtain ⟨hc, hcs⟩ := List.forall_mem_cons.1 hdigits
    have hnext : Nat.ofDigitChars 10 (c :: cs) acc =
        Nat.ofDigitChars 10 cs (acc * 10 + digitValue c) := by
      simp [Nat.ofDigitChars, digitValue, Nat.mul_comm]
    have hgrows := le_ofDigitChars cs (acc * 10 + digitValue c)
    rw [hnext] at hfits ⊢
    rw [readDigits, if_pos hc]
    dsimp only
    rw [if_pos (Nat.lt_of_le_of_lt hgrows hfits), ih hcs hfits]

theorem readFigure_of_isDigit {cs : List Char} (hne : cs ≠ [])
    (hdigits : ∀ c ∈ cs, c.isDigit = true) : readFigure cs = readDigits 0 cs := by
  cases cs with
  | nil => exact absurd rfl hne
  | cons c cs =>
    have hplus : c ≠ '+' := by
      rintro rfl
      exact absurd (hdigits '+' List.mem_cons_self) (by decide)
    unfold readFigure
    split <;> simp_all

/-- A figure is read back from its decimal text. -/
theorem readFigure_toString {n : Nat} (hfits : n < figureLimit) :
    readFigure (toString n).toList = .ok n := by
  have hdigits : ∀ c ∈ Nat.toDigits 10 n, c.isDigit = true := fun c hc =>
    Nat.isDigit_of_mem_toDigits (by decide) (by decide) hc
  have hvalue : Nat.ofDigitChars 10 (Nat.toDigits 10 n) 0 = n := Nat.ofDigitChars_ten_toDigits
  rw [Nat.toString_eq_ofList_toDigits, String.toList_ofList,
    readFigure_of_isDigit Nat.toDigits_ne_nil hdigits, readDigits_eq hdigits (by rwa [hvalue]),
    hvalue]

end PooledRouting.Text
