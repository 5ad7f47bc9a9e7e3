/-
  The ARMv7 architecture's own words for what an instruction does to the program counter.

  Arithmetic is `addWithCarry`, which all additions and subtractions are instances of, and the
  shifts by an amount, defined on the number a word stands for.  `aluWritePC` and `bxWritePC` are
  the writes to the program counter; `none` is "unpredictable".  `loadMultiple` is the loop of a
  load-multiple: a start address, and the registers of a list in ascending order, four bytes each.

  The lemmas relate them to the operations of `BitVec` (`addWithCarry_not`, `lsl_eq_shiftLeft`, ...)
  and to counting (`loadMultiple_last`).
-/
import Mathlib

namespace ArmArch

variable {w : Nat}

/-! ## Arithmetic -/

/-- `AddWithCarry`: the sum, modulo `2^w`. -/
def addWithCarry (x y : BitVec w) (carry : Bool) : BitVec w :=
  BitVec.ofNat w (x.toNat + y.toNat + carry.toNat)

theorem addWithCarry_eq (x y : BitVec w) (carry : Bool) :
    addWithCarry x y carry = x + y + BitVec.ofNat w carry.toNat := by
  rw [addWithCarry, BitVec.ofNat_add, BitVec.ofNat_add, BitVec.ofNat_toNat, BitVec.ofNat_toNat,
    BitVec.setWidth_eq, BitVec.setWidth_eq]

/-- Adding the complement subtracts, and borrows where there is no carry. -/
theorem addWithCarry_not (x y : BitVec w) (carry : Bool) :
    addWithCarry x (~~~y) carry = x - y - (1#w - BitVec.ofNat w carry.toNat) := by
  rw [addWithCarry_eq, BitVec.not_eq_neg_add]
  simp only [BitVec.sub_eq_add_neg, BitVec.neg_add, BitVec.neg_neg]
  ac_rfl

/-! ## Shifts -/

/-- `LSL`: times a power of two. -/
def lsl (x : BitVec w) (n : Nat) : BitVec w := BitVec.ofNat w (x.toNat * 2 ^ n)

/-- `LSR`: the unsigned number divided by a power of two. -/
def lsr (x : BitVec w) (n : Nat) : BitVec w := BitVec.ofNat w (x.toNat / 2 ^ n)

/-- `ASR`: the signed number divided by a power of two, rounded down. -/
def asr (x : BitVec w) (n : Nat) : BitVec w := BitVec.ofInt w (x.toInt / 2 ^ n)

/-- `ROR`: what the right shift drops comes in at the left. -/
def ror (x : BitVec w) (n : Nat) : BitVec w := lsr x (n % w) ||| lsl x (w - n % w)

/-- `RRX`: one place to the right, the carry comes in at the left. -/
def rrx (x : BitVec w) (carry : Bool) : BitVec w :=
  lsr x 1 ||| lsl (BitVec.ofNat w carry.toNat) (w - 1)

theorem lsl_eq_shiftLeft (x : BitVec w) (n : Nat) : lsl x n = x <<< n := by
  apply BitVec.eq_of_toNat_eq
  rw [lsl, BitVec.toNat_ofNat, BitVec.toNat_shiftLeft, Nat.shiftLeft_eq]

theorem lsr_eq_ushiftRight (x : BitVec w) (n : Nat) : lsr x n = x >>> n := by
  apply BitVec.eq_of_toNat_eq
  rw [lsr, BitVec.toNat_ofNat, BitVec.toNat_ushiftRight, Nat.shiftRight_eq_div_pow]
  exact Nat.mod_eq_of_lt (Nat.lt_of_le_of_lt (Nat.div_le_self _ _) x.isLt)

theorem asr_eq_sshiftRight (x : BitVec w) (n : Nat) : asr x n = x.sshiftRight n := by
  have hdiv : x.toInt / 2 ^ n = x.toInt >>> n := by
    rw [Int.shiftRight_eq_div_pow]
    norm_cast
  rw [asr, hdiv, ← BitVec.toInt_sshiftRight, BitVec.ofInt_toInt]

theorem ror_eq_rotateRight (x : BitVec w) (n : Nat) : ror x n = x.rotateRight n := by
  rw [ror, lsr_eq_ushiftRight, lsl_eq_shiftLeft, BitVec.rotateRight_def]

/-- From the width on, a logical shift leaves nothing. -/
theorem lsl_of_le (x : BitVec w) {n : Nat} (h : w ≤ n) : lsl x n = 0#w := by
  rw [lsl_eq_shiftLeft, BitVec.shiftLeft_eq_zero h]

theorem lsr_of_le (x : BitVec w) {n : Nat} (h : w ≤ n) : lsr x n = 0#w := by
  rw [lsr_eq_ushiftRight, BitVec.ushiftRight_eq_zero h]

/-- From the width on, an arithmetic shift leaves the sign. -/
theorem asr_of_le (x : BitVec w) {n : Nat} (h : w ≤ n) :
    asr x n = if x.msb then BitVec.allOnes w else 0#w := by
  rw [asr_eq_sshiftRight]
  apply BitVec.eq_of_getLsbD_eq
  intro i hi
  have hout : ¬ n + i < w := by omega
  rw [BitVec.getLsbD_sshiftRight]
  cases hmsb : x.msb
  · simp [hout, hi]
  · simp [hout, hi]

/-! ## Writes to the program counter -/

/-- `BXWritePC`: bit 0 selects the instruction set; a misaligned ARM address is unpredictable. -/
def bxWritePC (address : BitVec 32) : Option (BitVec 32 × Bool) :=
  if address &&& 1#32 ≠ 0#32 then some (address &&& ~~~1#32, true)
  else if address &&& 2#32 ≠ 0#32 then none
  else some (address, false)

/-- `ALUWritePC`: an interworking branch in ARM state, a branch within Thumb state. -/
def aluWritePC (thumb : Bool) (address : BitVec 32) : Option (BitVec 32 × Bool) :=
  if thumb then some (address &&& ~~~1#32, true) else bxWritePC address

/-- Clearing two bits clears one where the other is clear. -/
theorem and_not_three_eq_iff (x : BitVec 32) :
    x &&& ~~~3#32 = x &&& ~~~1#32 ↔ x &&& 2#32 = 0#32 := by
  have hsplit : x &&& ~~~1#32 = (x &&& ~~~3#32) ||| (x &&& 2#32) := by
    rw [← BitVec.and_or_distrib_left]
    rfl
  constructor
  · intro h
    calc x &&& 2#32 = x &&& ~~~1#32 &&& 2#32 := by rw [BitVec.and_assoc]; rfl
      _ = x &&& ~~~3#32 &&& 2#32 := by rw [h]
      _ = 0#32 := by rw [BitVec.and_assoc]; exact BitVec.and_zero
  · intro h
    rw [hsplit, h, BitVec.or_zero]

/-- Clearing a bit that is clear. -/
theorem and_not_of_and_eq_zero {x mask : BitVec w} (h : x &&& mask = 0#w) : x &&& ~~~mask = x := by
  have hall : x = (x &&& ~~~mask) ||| (x &&& mask) := by
    rw [← BitVec.and_or_distrib_left, BitVec.not_or_self, BitVec.and_allOnes]
  rw [h, BitVec.or_zero] at hall
  exact hall.symm

/-! ## Addresses -/

/-- `Align`: down to a multiple of 4. -/
def align4 (address : BitVec 32) : BitVec 32 := address &&& ~~~3#32

/-- The address of an entry of a table, by the size of its entries. -/
def tableEntry (size : Nat) (base index : BitVec 32) : BitVec 32 :=
  base + BitVec.ofNat 32 size * index

/-- Consecutive entries are adjacent. -/
theorem tableEntry_succ (size : Nat) (base index : BitVec 32) :
    tableEntry size base (index + 1#32) = tableEntry size base index + BitVec.ofNat 32 size := by
  rw [tableEntry, tableEntry, BitVec.mul_add, BitVec.mul_one, BitVec.add_assoc]

/-- A mask of low bits leaves nothing exactly in the multiples of a power of two. -/
theorem and_lowMask_eq_zero_iff (x : BitVec w) {k : Nat} (hk : k ≤ w) :
    x &&& BitVec.ofNat w (2 ^ k - 1) = 0#w ↔ x.toNat % 2 ^ k = 0 := by
  have hpow : 2 ^ k ≤ 2 ^ w := Nat.pow_le_pow_right (by omega) hk
  have hpos : 0 < 2 ^ k := Nat.two_pow_pos k
  rw [← BitVec.toNat_inj, BitVec.toNat_and, BitVec.toNat_ofNat, Nat.mod_eq_of_lt (by omega),
    Nat.and_two_pow_sub_one_eq_mod, BitVec.toNat_zero]

theorem and_three_eq_zero_iff (x : BitVec 32) : x &&& 3#32 = 0#32 ↔ x.toNat % 4 = 0 :=
  and_lowMask_eq_zero_iff x (k := 2) (by omega)

theorem and_one_eq_zero_iff (x : BitVec 32) : x &&& 1#32 = 0#32 ↔ x.toNat % 2 = 0 :=
  and_lowMask_eq_zero_iff x (k := 1) (by omega)

/-- Aligning leaves exactly the aligned addresses alone. -/
theorem align4_eq_iff (address : BitVec 32) : align4 address = address ↔ address &&& 3#32 = 0#32 := by
  constructor
  · intro h
    calc address &&& 3#32 = align4 address &&& 3#32 := by rw [h]
      _ = 0#32 := by
        rw [align4, BitVec.and_assoc]
        exact BitVec.and_zero
  · intro h
    exact and_not_of_and_eq_zero h

/-! ## Load multiple -/

/-- `BitCount`: the registers in a list. -/
def bitCount (list : BitVec w) : Nat := (List.range w).countP fun i => list.getLsbD i

/-- The loop of a load-multiple over the registers `is`: those in the list are loaded, each from the
    next word. -/
def loadLoop (list : BitVec w) : List Nat → BitVec 32 → List (Nat × BitVec 32)
  | [], _ => []
  | i :: is, address =>
    if list.getLsbD i then (i, address) :: loadLoop list is (address + 4#32)
    else loadLoop list is address

/-- The first address of a load-multiple: after or before the base, upwards or downwards. -/
def startAddress (increment before : Bool) (base : BitVec 32) (list : BitVec w) : BitVec 32 :=
  match increment, before with
  | true, false => base
  | true, true => base + 4#32
  | false, false => base - 4#32 * BitVec.ofNat 32 (bitCount list) + 4#32
  | false, true => base - 4#32 * BitVec.ofNat 32 (bitCount list)

/-- A load-multiple: its registers, in ascending order, with the address each is loaded from. -/
def loadMultiple (increment before : Bool) (base : BitVec 32) (list : BitVec w) :
    List (Nat × BitVec 32) :=
  loadLoop list (List.range w) (startAddress increment before base list)

/-- The loop in two parts: the second goes on behind the words of the first. -/
theorem loadLoop_append (list : BitVec w) (is js : List Nat) (address : BitVec 32) :
    loadLoop list (is ++ js) address =
      loadLoop list is address ++
        loadLoop list js (address + 4#32 * BitVec.ofNat 32 (is.countP fun i => list.getLsbD i)) := by
  induction is generalizing address with
  | nil => simp [loadLoop]
  | cons i is ih =>
    rw [List.cons_append, loadLoop, loadLoop, List.countP_cons]
    cases hbit : list.getLsbD i with
    | false => simpa using ih address
    | true =>
      have hnext : address + 4#32 * BitVec.ofNat 32 ((is.countP fun i => list.getLsbD i) + 1) =
          address + 4#32 + 4#32 * BitVec.ofNat 32 (is.countP fun i => list.getLsbD i) := by
        rw [BitVec.ofNat_add, BitVec.mul_add]
        ac_rfl
      simp only [if_true, List.cons_append, hnext, ih]

/-- A register the loop does not come to is not loaded. -/
theorem lookup_loadLoop_of_notMem (list : BitVec w) {i : Nat} {is : List Nat} (h : i ∉ is)
    (address : BitVec 32) : (loadLoop list is address).lookup i = none := by
  induction is generalizing address with
  | nil => rfl
  | cons j js ih =>
    obtain ⟨hne, hrest⟩ := not_or.mp (mt List.mem_cons.mpr h)
    rw [loadLoop]
    split
    · rw [List.lookup_cons, beq_false_of_ne hne]
      exact ih hrest _
    · exact ih hrest address

/-- **The last register** of a load-multiple lies behind all the others. -/
theorem loadMultiple_last (increment before : Bool) (base : BitVec 32) (list : BitVec (w + 1)) :
    (loadMultiple increment before base list).lookup w =
      if list.getLsbD w then
        some (startAddress increment before base list +
          4#32 * BitVec.ofNat 32 ((List.range w).countP fun i => list.getLsbD i))
      else none := by
  rw [loadMultiple, List.range_succ, loadLoop_append, List.lookup_append,
    lookup_loadLoop_of_notMem list List.not_mem_range_self, Option.none_or, loadLoop]
  split
  · rw [List.lookup_cons_self]
  · rfl

/-- The registers of a list, the last one apart. -/
theorem bitCount_succ (list : BitVec (w + 1)) (h : list.getLsbD w = true) :
    bitCount list = ((List.range w).countP fun i => list.getLsbD i) + 1 := by
  rw [bitCount, List.range_succ, List.countP_append, List.countP_singleton, if_pos h]

end ArmArch
