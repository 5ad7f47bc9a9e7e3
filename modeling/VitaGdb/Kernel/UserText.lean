/-
  Where `write_user_text` returns, and what it leaves there.

  The write makes four fallible calls, and each `?` returns where it stands: a failed copy before
  anything is done, a failure behind the copy with the text already changed and interrupts still
  suspended, a failed switch back with the other process's context in force besides.

  `writeExit` names the exit a write takes, from what is mapped and the codes of its calls alone;
  `afterWrite` is the kernel it leaves at each exit; `writeUserText_eq` says that these are what
  the code does.  The rest of the development reads failing writes off these two.
-/
import VitaGdb.Kernel.Calls

namespace VitaGdb

/-- The exits of `write_user_text`, by the call that fails. -/
inductive WriteExit where
  | unmapped
  | notCopied
  | noContext
  | notSwitched
  | notSwitchedBack
  | completed
  deriving DecidableEq, Repr

namespace WriteExit

/-- The copy was made: the text is changed. -/
def copied : WriteExit → Bool
  | .unmapped | .notCopied => false
  | .noContext | .notSwitched | .notSwitchedBack | .completed => true

/-- How many times interrupts are suspended more often than resumed. -/
def leaked : WriteExit → Nat
  | .unmapped | .notCopied | .completed => 0
  | .noContext | .notSwitched | .notSwitchedBack => 1

/-- How many calls the write makes before it returns. -/
def calls : WriteExit → Nat
  | .unmapped => 0
  | .notCopied => 1
  | .noContext => 2
  | .notSwitched => 3
  | .notSwitchedBack | .completed => 4

/-- Nothing is leaked where the copy fails, and where no call behind it does. -/
theorem leaked_eq_zero_iff (e : WriteExit) : e.leaked = 0 ↔ (e.copied = true → e = .completed) := by
  cases e <;> decide

end WriteExit

namespace Kernel

/-- The `n`-th call from now on returns a negative code. -/
def fails (k : Kernel) (n : Nat) : Bool := (k.ret (k.calls + n)).slt 0#32

/-- The kernel `n` calls later, with nothing else changed. -/
def atCall (k : Kernel) (n : Nat) : Kernel := { k with calls := k.calls + n }

@[simp] theorem atCall_mem (k : Kernel) (n : Nat) : (k.atCall n).mem = k.mem := rfl

theorem atCall_fails (k : Kernel) (n m : Nat) : (k.atCall n).fails m = k.fails (n + m) := by
  rw [fails, fails, ← Nat.add_assoc]
  rfl

theorem sceCall_fails {k : Kernel} (h : k.fails 0 = true) (func : String)
    (effect : Kernel → Kernel) :
    k.sceCall func effect = (.error ⟨k.ret k.calls, func⟩, k.atCall 1) :=
  if_pos h

theorem sceCall_goes {k : Kernel} (h : k.fails 0 = false) (func : String)
    (effect : Kernel → Kernel) :
    k.sceCall func effect = (.ok (k.ret k.calls), effect (k.atCall 1)) :=
  if_neg (by rw [Bool.not_eq_true]; exact h)

/-- The exit of a write of `len` bytes. -/
def writeExit (k : Kernel) (pid : SceUID) (dst : U32) (len : Nat) : WriteExit :=
  if (ByteMem.read (k.mem pid) dst len).isNone then .unmapped
  else if k.fails 0 then .notCopied
  else if k.fails 1 then .noContext
  else if k.fails 2 then .notSwitched
  else if k.fails 3 then .notSwitchedBack
  else .completed

/-- The kernel a write leaves at an exit. -/
def afterWrite (k : Kernel) (pid : SceUID) (dst : U32) (buf : List U8) : WriteExit → Kernel
  | .unmapped => k
  | .notCopied => { k with calls := k.calls + 1 }
  | .noContext => { k.wrote pid dst buf with calls := k.calls + 2, intr := k.intr + 1 }
  | .notSwitched => { k.wrote pid dst buf with calls := k.calls + 3, intr := k.intr + 1 }
  | .notSwitchedBack => { k.wrote pid dst buf with intr := k.intr + 1, context := pid }
  | .completed => k.wrote pid dst buf

variable {k : Kernel} {pid : SceUID} {dst : U32} {buf : List U8}

/-- The write is answered `Ok` at its last exit only. -/
def writeResult (k : Kernel) : WriteExit → Except SceError Unit
  | .unmapped => .error ⟨k.badAddr, "ksceKernelCopyToUserProcTextDomain"⟩
  | .notCopied => .error ⟨k.ret k.calls, "ksceKernelCopyToUserProcTextDomain"⟩
  | .noContext => .error ⟨k.ret (k.calls + 1), "ksceKernelProcessGetContext"⟩
  | .notSwitched => .error ⟨k.ret (k.calls + 2), "ksceKernelProcessSwitchContext"⟩
  | .notSwitchedBack => .error ⟨k.ret (k.calls + 3), "ksceKernelProcessSwitchContext"⟩
  | .completed => .ok ()

/-- **Every exit of `write_user_text`**: its answer and what it leaves. -/
theorem writeUserText_eq (k : Kernel) (pid : SceUID) (dst : U32) (buf : List U8) :
    k.writeUserText pid dst buf = (k.writeResult (k.writeExit pid dst buf.length),
      k.afterWrite pid dst buf (k.writeExit pid dst buf.length)) := by
  rw [writeUserText, ksceKernelCopyToUserProcTextDomain, writeExit]
  cases hmapped : ByteMem.read (k.mem pid) dst buf.length with
  | none => rfl
  | some bytes =>
    -- from here on the codes of the four calls decide, one after the other
    simp only [Option.isSome_some, Option.isNone_some, if_true, Bool.false_eq_true, if_false, fails,
      Nat.add_zero, ksceKernelCpuSuspendIntr, ksceKernelProcessSwitchContext, sceCall]
    by_cases h₀ : (k.ret k.calls).slt 0#32 = true
    · simp only [h₀, if_true]
      rfl
    by_cases h₁ : (k.ret (k.calls + 1)).slt 0#32 = true
    · simp only [h₀, h₁, Bool.false_eq_true, if_true, if_false]
      rfl
    by_cases h₂ : (k.ret (k.calls + 1 + 1)).slt 0#32 = true
    · simp only [h₀, h₁, h₂, Bool.false_eq_true, if_true, if_false, id]
      rfl
    by_cases h₃ : (k.ret (k.calls + 1 + 1 + 1)).slt 0#32 = true
    · simp only [h₀, h₁, h₂, h₃, Bool.false_eq_true, if_true, if_false, id]
      rfl
    · simp only [h₀, h₁, h₂, h₃, Bool.false_eq_true, if_false, id]
      rfl

/-- What is mapped, the codes and the number of calls made decide the exit. -/
theorem writeExit_congr {k' : Kernel} (hmem : k'.mem = k.mem) (hret : k'.ret = k.ret)
    (hcalls : k'.calls = k.calls) (pid : SceUID) (dst : U32) (len : Nat) :
    k'.writeExit pid dst len = k.writeExit pid dst len := by
  have hfails : ∀ n, k'.fails n = k.fails n := fun n => by rw [fails, fails, hret, hcalls]
  rw [writeExit, writeExit, hmem, hfails, hfails, hfails, hfails]

theorem writeResult_isOk (e : WriteExit) : (k.writeResult e).isOk = true ↔ e = .completed := by
  cases e <;> simp [writeResult, Except.isOk, Except.toBool]

/-! ## What is left at each exit -/

/-- The text is changed where the copy was made. -/
theorem afterWrite_mem (e : WriteExit) :
    (k.afterWrite pid dst buf e).mem =
      if e.copied then Function.update k.mem pid (ByteMem.write (k.mem pid) dst buf)
      else k.mem := by
  cases e <;> rfl

@[simp] theorem afterWrite_intr (e : WriteExit) :
    (k.afterWrite pid dst buf e).intr = k.intr + e.leaked := by
  cases e <;> rfl

/-- The context of the process stays in force where the switch back fails. -/
theorem afterWrite_context (e : WriteExit) :
    (k.afterWrite pid dst buf e).context = if e = .notSwitchedBack then pid else k.context := by
  cases e <;> rfl

theorem afterWrite_calls (e : WriteExit) :
    (k.afterWrite pid dst buf e).calls = k.calls + e.calls := by
  cases e <;> rfl

/-- The copy is made, and one of the three calls behind it fails. -/
def stopsBehindCopy (k : Kernel) : Bool := !k.fails 0 && (k.fails 1 || k.fails 2 || k.fails 3)

/-- On a mapped range the codes of the four calls decide where a write stops. -/
theorem writeExit_mapped {len : Nat} (hmapped : (ByteMem.read (k.mem pid) dst len).isSome) :
    ((k.writeExit pid dst len).copied = !k.fails 0) ∧
      (k.writeExit pid dst len = .completed ↔ k.fails 0 = false ∧ k.stopsBehindCopy = false) := by
  rw [writeExit, if_neg (by rw [Option.isNone_eq_false_iff.mpr hmapped]; simp), stopsBehindCopy]
  cases k.fails 0 <;> cases k.fails 1 <;> cases k.fails 2 <;> cases k.fails 3 <;> decide

theorem writeExit_unmapped {len : Nat} (h : ByteMem.read (k.mem pid) dst len = none) :
    k.writeExit pid dst len = .unmapped := by
  rw [writeExit, if_pos (by rw [h]; rfl)]

/-- A write stops behind its copy exactly where that leaks. -/
theorem writeExit_leaked_iff {len : Nat} :
    (k.writeExit pid dst len).leaked = 0 ↔
      ((ByteMem.read (k.mem pid) dst len).isSome → k.stopsBehindCopy = false) := by
  rw [WriteExit.leaked_eq_zero_iff]
  cases hread : ByteMem.read (k.mem pid) dst len with
  | none =>
    rw [writeExit_unmapped hread]
    simp [WriteExit.copied]
  | some bytes =>
    have hmapped : (ByteMem.read (k.mem pid) dst len).isSome := by rw [hread]; rfl
    obtain ⟨hcopied, hcompleted⟩ := writeExit_mapped hmapped
    rw [hcopied, hcompleted, stopsBehindCopy]
    cases k.fails 0 <;> simp

end Kernel

end VitaGdb
