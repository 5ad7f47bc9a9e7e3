/-
  Numerals, read digit by digit into a bounded number.

  A reader multiplies by the base and adds the next digit, and gives up as soon as a result does not
  fit: of a negative number it builds the negative, so that the least one can be read too.

    * `number base m cs`         — the digits' value behind those that make `m`, however large,
    * `accumulate lo hi …`       — the loop, which stays between `lo` and `hi`,
    * `fromStr lo hi base`       — a sign, if there is one, and then digits.

  Spec: the loop gives up exactly where the digits are none or their value does not fit
  (`accumulate_eq_some_iff`), so leading zeros are harmless; `fromStr_eq_some_iff` says the same of
  the whole text, and `number_toDigits` that a number's digits are read back.

  Crux: a value that has run out of the bounds never comes back, since each step takes it further
  from zero (`Fits.of_le`).
-/
import Mathlib.Data.List.TakeWhile
import Mathlib.Tactic.Common

namespace Numerals

/-! ## Digits -/

/-- The value of a digit: the letters, large or small, come behind the figures. -/
def toDigit (base : Nat) (c : Char) : Option Nat :=
  let n :=
    if '0' ≤ c ∧ c ≤ '9' then c.toNat - '0'.toNat
    else if 'a' ≤ c ∧ c ≤ 'z' then c.toNat - 'a'.toNat + 10
    else if 'A' ≤ c ∧ c ≤ 'Z' then c.toNat - 'A'.toNat + 10
    else base
  if n < base then some n else none

/-- The value of the digits, behind those that make `m`. -/
def number (base : Nat) : Nat → List Char → Option Nat
  | m, [] => some m
  | m, c :: cs =>
    match toDigit base c with
    | none => none
    | some d => number base (base * m + d) cs

theorem number_append (base m : Nat) (cs cs' : List Char) :
    number base m (cs ++ cs') = (number base m cs).bind fun n => number base n cs' := by
  induction cs generalizing m with
  | nil => rfl
  | cons c cs ih =>
    rw [List.cons_append, number, number]
    cases toDigit base c with
    | none => rfl
    | some d => exact ih _

/-- More digits make no smaller number. -/
theorem le_number {base m n : Nat} (hbase : 0 < base) {cs : List Char}
    (h : number base m cs = some n) : m ≤ n := by
  induction cs generalizing m with
  | nil =>
    rw [number, Option.some.injEq] at h
    omega
  | cons c cs ih =>
    rw [number] at h
    split at h
    · exact absurd h (by simp)
    · next d hd =>
      have hle : m ≤ base * m := Nat.le_mul_of_pos_left m hbase
      have hrest := ih h
      omega

theorem toDigit_digitChar : ∀ base ≤ 16, ∀ d < base, toDigit base d.digitChar = some d := by decide

/-- **A number is read back** from its digits. -/
theorem number_toDigits {base : Nat} (hone : 1 < base) (hbase : base ≤ 16) (n : Nat) :
    number base 0 (Nat.toDigits base n) = some n := by
  induction n using Nat.strong_induction_on with
  | _ n ih =>
    rw [Nat.toDigits_eq_if hone]
    split
    · next hlt =>
      rw [number, toDigit_digitChar base hbase n hlt]
      simp [number]
    · next hge =>
      have hless : n / base < n := Nat.div_lt_self (by omega) hone
      rw [number_append, ih (n / base) hless, Option.bind_some, number,
        toDigit_digitChar base hbase _ (Nat.mod_lt _ (by omega))]
      dsimp only
      rw [number, Nat.div_add_mod]

/-! ## The loop -/

/-- A number between the bounds. -/
def Fits (lo hi n : Int) : Prop := lo ≤ n ∧ n ≤ hi

instance (lo hi n : Int) : Decidable (Fits lo hi n) := inferInstanceAs (Decidable (_ ∧ _))

/-- A checked operation. -/
def checked (lo hi n : Int) : Option Int := if Fits lo hi n then some n else none

/-- The number of this value, or its negative. -/
def signed (neg : Bool) (m : Nat) : Int := if neg then -(m : Int) else m

/-- One digit after the other, behind those that make `v`. -/
def accumulate (lo hi : Int) (base : Nat) (neg : Bool) : Int → List Char → Option Int
  | v, [] => some v
  | v, c :: cs =>
    match checked lo hi (v * base), toDigit base c with
    | some v, some d =>
      match checked lo hi (v + signed neg d) with
      | some v => accumulate lo hi base neg v cs
      | none => none
    | _, _ => none

section Loop

variable {lo hi : Int} {base : Nat}

/-- Between a number that fits and zero everything fits. -/
theorem Fits.of_le (hlo : lo ≤ 0) (hhi : 0 ≤ hi) {neg : Bool} {m n : Nat} (hle : m ≤ n)
    (h : Fits lo hi (signed neg n)) : Fits lo hi (signed neg m) := by
  cases neg with
  | true =>
    have hbounds : lo ≤ -(n : Int) := h.1
    show lo ≤ -(m : Int) ∧ -(m : Int) ≤ hi
    omega
  | false =>
    have hbounds : (n : Int) ≤ hi := h.2
    show lo ≤ (m : Int) ∧ (m : Int) ≤ hi
    omega

theorem signed_mul (neg : Bool) (m n : Nat) : signed neg m * n = signed neg (n * m) := by
  cases neg with
  | true =>
    show -(m : Int) * n = -((n * m : Nat) : Int)
    rw [Int.neg_mul, Int.mul_comm, Int.natCast_mul]
  | false =>
    show (m : Int) * n = ((n * m : Nat) : Int)
    rw [Int.mul_comm, Int.natCast_mul]

theorem signed_add (neg : Bool) (m n : Nat) : signed neg m + signed neg n = signed neg (m + n) := by
  cases neg with
  | true =>
    show -(m : Int) + -(n : Int) = -((m + n : Nat) : Int)
    omega
  | false =>
    show (m : Int) + (n : Int) = ((m + n : Nat) : Int)
    omega

theorem checked_of_fits {n : Int} (h : Fits lo hi n) : checked lo hi n = some n := if_pos h

/-- **The loop is exact**: it yields what the digits say, where that fits. -/
theorem accumulate_eq_some_iff (hlo : lo ≤ 0) (hhi : 0 ≤ hi) (hbase : 0 < base) (neg : Bool)
    {m : Nat} (hfits : Fits lo hi (signed neg m)) (cs : List Char) (v : Int) :
    accumulate lo hi base neg (signed neg m) cs = some v ↔
      ∃ n, number base m cs = some n ∧ v = signed neg n ∧ Fits lo hi v := by
  induction cs generalizing m with
  | nil =>
    rw [accumulate, number, Option.some.injEq]
    constructor
    · rintro rfl
      exact ⟨m, rfl, rfl, hfits⟩
    · rintro ⟨n, hn, rfl, -⟩
      rw [Option.some.inj hn]
  | cons c cs ih =>
    rw [accumulate, number, signed_mul]
    cases hd : toDigit base c with
    | none =>
      constructor
      · intro h
        split at h
        · next heq => exact absurd heq (by simp)
        · exact absurd h (by simp)
      · rintro ⟨n, hn, -⟩
        exact absurd hn (by simp)
    | some d =>
      dsimp only
      by_cases hmul : Fits lo hi (signed neg (base * m))
      · rw [checked_of_fits hmul]
        dsimp only
        rw [signed_add]
        by_cases hadd : Fits lo hi (signed neg (base * m + d))
        · rw [checked_of_fits hadd]
          exact ih hadd
        · rw [checked, if_neg hadd]
          constructor
          · exact fun h => absurd h (by simp)
          · rintro ⟨n, hn, rfl, hv⟩
            exact absurd (hv.of_le hlo hhi (le_number hbase hn)) hadd
      · rw [checked, if_neg hmul]
        constructor
        · exact fun h => absurd h (by simp)
        · rintro ⟨n, hn, rfl, hv⟩
          -- what is too large after the product stays so
          have hle : base * m ≤ n := Nat.le_trans (Nat.le_add_right _ d) (le_number hbase hn)
          exact absurd (hv.of_le hlo hhi hle) hmul

end Loop

/-! ## Texts -/

/-- A number of a text: one sign may stand before the digits, `-` only where there are negative
    numbers, and there has to be a digit. -/
def fromStr (lo hi : Int) (base : Nat) : List Char → Option Int
  | [] => none
  | [c] => if c = '+' ∨ c = '-' then none else accumulate lo hi base false 0 [c]
  | c :: cs =>
    if c = '+' then accumulate lo hi base false 0 cs
    else if c = '-' ∧ lo < 0 then accumulate lo hi base true 0 cs
    else accumulate lo hi base false 0 (c :: cs)

/-- The text is a numeral of this sign and value. -/
inductive Numeral (base : Nat) : List Char → Bool → Nat → Prop where
  | plain {ds : List Char} {n : Nat} (hne : ds ≠ []) (hn : number base 0 ds = some n) :
    Numeral base ds false n
  | plus {ds : List Char} {n : Nat} (hne : ds ≠ []) (hn : number base 0 ds = some n) :
    Numeral base ('+' :: ds) false n
  | minus {ds : List Char} {n : Nat} (hne : ds ≠ []) (hn : number base 0 ds = some n) :
    Numeral base ('-' :: ds) true n

/-- Signs are no digits. -/
theorem toDigit_sign (base : Nat) : toDigit base '+' = none ∧ toDigit base '-' = none := by
  constructor <;> simp [toDigit]

theorem number_sign (base m : Nat) (cs : List Char) :
    number base m ('+' :: cs) = none ∧ number base m ('-' :: cs) = none := by
  rw [number, number, (toDigit_sign base).1, (toDigit_sign base).2]
  exact ⟨rfl, rfl⟩

section Texts

variable {lo hi : Int} {base : Nat}

theorem accumulate_zero (hlo : lo ≤ 0) (hhi : 0 ≤ hi) (hbase : 0 < base) (neg : Bool)
    (cs : List Char) (v : Int) : accumulate lo hi base neg 0 cs = some v ↔
      ∃ n, number base 0 cs = some n ∧ v = signed neg n ∧ Fits lo hi v := by
  have hzero : signed neg 0 = 0 := by cases neg <;> rfl
  have hfits : Fits lo hi (signed neg 0) := by rw [hzero]; exact ⟨hlo, hhi⟩
  have h := accumulate_eq_some_iff hlo hhi hbase neg hfits cs v
  rwa [hzero] at h

/-- **A text is read exactly where it is a numeral that fits**; a `-` needs negative numbers. -/
theorem fromStr_eq_some_iff (hlo : lo ≤ 0) (hhi : 0 ≤ hi) (hbase : 0 < base) (s : List Char)
    (v : Int) : fromStr lo hi base s = some v ↔
      ∃ neg n, Numeral base s neg n ∧ (neg = true → lo < 0) ∧ v = signed neg n ∧ Fits lo hi v := by
  have hplain : ∀ {cs : List Char}, cs ≠ [] → accumulate lo hi base false 0 cs = some v →
      ∃ neg n, Numeral base cs neg n ∧ (neg = true → lo < 0) ∧ v = signed neg n ∧ Fits lo hi v := by
    intro cs hne h
    obtain ⟨n, hn, hv⟩ := (accumulate_zero hlo hhi hbase false cs v).mp h
    exact ⟨false, n, .plain hne hn, by simp, hv⟩
  constructor
  · intro h
    unfold fromStr at h
    split at h
    · exact absurd h (by simp)
    · next c =>
      split at h
      · exact absurd h (by simp)
      · exact hplain (by simp) h
    · next c cs hcs =>
      split at h
      · next hplus =>
        obtain ⟨n, hn, hv⟩ := (accumulate_zero hlo hhi hbase false cs v).mp h
        exact ⟨false, n, hplus ▸ .plus hcs hn, by simp, hv⟩
      · split at h
        · next hminus =>
          obtain ⟨n, hn, hv⟩ := (accumulate_zero hlo hhi hbase true cs v).mp h
          exact ⟨true, n, hminus.1 ▸ .minus hcs hn, fun _ => hminus.2, hv⟩
        · exact hplain (by simp) h
  · rintro ⟨neg, n, hnumeral, hneg, hv⟩
    cases hnumeral with
    | plain hne hn =>
      have hacc := (accumulate_zero hlo hhi hbase false s v).mpr ⟨n, hn, hv⟩
      -- a numeral without a sign does not begin with one
      have hplus : ∀ cs, s ≠ '+' :: cs := fun cs heq => by
        rw [heq, (number_sign base 0 cs).1] at hn
        exact absurd hn (by simp)
      have hminus : ∀ cs, s ≠ '-' :: cs := fun cs heq => by
        rw [heq, (number_sign base 0 cs).2] at hn
        exact absurd hn (by simp)
      unfold fromStr
      split
      · exact absurd rfl hne
      · next c =>
        rw [if_neg]
        · exact hacc
        · rintro (rfl | rfl)
          · exact hplus [] rfl
          · exact hminus [] rfl
      · next c cs _ =>
        rw [if_neg fun hc => hplus cs (by rw [hc]), if_neg fun hc => hminus cs (by rw [hc.1])]
        exact hacc
    | @plus ds _ hne hn =>
      have hacc := (accumulate_zero hlo hhi hbase false ds v).mpr ⟨n, hn, hv⟩
      obtain ⟨d, ds', rfl⟩ := List.exists_cons_of_ne_nil hne
      rw [fromStr, if_pos rfl]
      · exact hacc
      · simp
    | @minus ds _ hne hn =>
      have hacc := (accumulate_zero hlo hhi hbase true ds v).mpr ⟨n, hn, hv⟩
      obtain ⟨d, ds', rfl⟩ := List.exists_cons_of_ne_nil hne
      rw [fromStr, if_neg (by decide), if_pos ⟨rfl, hneg rfl⟩]
      · exact hacc
      · simp

end Texts

end Numerals
