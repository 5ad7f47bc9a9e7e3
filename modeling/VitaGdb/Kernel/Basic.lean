/-
  The machine types of the module and the outcome of a Rust function.

  Addresses and words are `BitVec 32` (the target is a 32-bit ARM), so every `wrapping_*`, shift and
  mask of the source is the `BitVec` operation of the same meaning.  `SceUID` and the return codes
  are `i32`: the same 32 bits, read as signed where the source compares with zero (`BitVec.slt`).

  `Outcome` is what a call of a Rust function may end in.  `panic` is an `unwrap` of `None`/`Err`, a
  failed `assert!` or a reached `unreachable!()`; `err` is an `Err` handed to the caller.
-/
import VitaGdb.Lib.ByteMem
import VitaGdb.Lib.SlotTable

namespace VitaGdb

abbrev U8 := BitVec 8
abbrev U16 := BitVec 16
abbrev U32 := BitVec 32
abbrev I32 := BitVec 32

/-- Kernel object ids: processes, threads, event flags. -/
abbrev SceUID := BitVec 32

/-! The tables have 3, 4, 6 and 16 entries, an instruction 4 operands, a thread 13 registers besides
    the special ones. -/

instance neZeroThree : NeZero 3 := ⟨by decide⟩
instance neZeroFour : NeZero 4 := ⟨by decide⟩
instance neZeroSix : NeZero 6 := ⟨by decide⟩
instance neZeroThirteen : NeZero 13 := ⟨by decide⟩
instance neZeroSixteen : NeZero 16 := ⟨by decide⟩

/-- User memory of one process: the content of its mapped addresses. -/
abbrev UserMem := ByteMem.Mem 32 U8

/-- `SceError`: a negative return code and the call it came from. -/
structure SceError where
  code : I32
  func : String
  deriving DecidableEq, Repr

/-- The ways a Rust function can end. -/
inductive Outcome (ε α : Type) where
  | ok (a : α)
  | err (e : ε)
  | panic
  deriving DecidableEq, Repr

namespace Outcome

variable {ε α β : Type}

/-- The `?` operator: go on after `Ok`, end with anything else. -/
def bind : Outcome ε α → (α → Outcome ε β) → Outcome ε β
  | ok a, f => f a
  | err e, _ => err e
  | panic, _ => panic

instance : Monad (Outcome ε) where
  pure := ok
  bind := bind

@[simp] theorem pure_def (a : α) : (pure a : Outcome ε α) = ok a := rfl
@[simp] theorem ok_bind (a : α) (f : α → Outcome ε β) : (ok a >>= f) = f a := rfl
@[simp] theorem err_bind (e : ε) (f : α → Outcome ε β) : (err e >>= f) = err e := rfl
@[simp] theorem panic_bind (f : α → Outcome ε β) : (panic >>= f) = panic := rfl

/-- A bind that ends in `Ok` went through its first part. -/
theorem bind_ok {x : Outcome ε α} {f : α → Outcome ε β} {b : β} (h : (x >>= f) = ok b) :
    ∃ a, x = ok a ∧ f a = ok b := by
  cases x with
  | ok a => exact ⟨a, rfl, h⟩
  | err e => rw [err_bind] at h; exact absurd h (by simp)
  | panic => rw [panic_bind] at h; exact absurd h (by simp)

/-- A bind panics in its first part or in what follows it. -/
theorem bind_eq_panic_iff {x : Outcome ε α} {f : α → Outcome ε β} :
    (x >>= f) = panic ↔ x = panic ∨ ∃ a, x = ok a ∧ f a = panic := by
  cases x with
  | ok a => simp
  | err e => simp
  | panic => simp

/-- A bind of parts that are never `Err` is not. -/
theorem bind_ne_err {x : Outcome ε α} {f : α → Outcome ε β} (hx : ∀ e, x ≠ err e)
    (hf : ∀ a e, f a ≠ err e) (e : ε) : (x >>= f) ≠ err e := by
  cases x with
  | ok a => exact hf a e
  | err e' => exact absurd rfl (hx e')
  | panic => simp

end Outcome

end VitaGdb
