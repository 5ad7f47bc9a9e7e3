/-
  Failing calls under a software breakpoint.

  `set_sw_breakpoint` takes a failed `write_user_text` to have written nothing: it releases the slot
  it claimed and leaves the text as it finds it.  Where the write stopped behind its copy, the trap
  is in the text and no slot knows what it replaced (`LeavesTrap`).

  `clear_sw_breakpoint` returns before it empties the slot where the write fails, but
  `restore_sw_slot` has taken the slot's entry by then.  A breakpoint whose bytes could not be
  written back is forgotten with its trap in the text (`Forgets`).
-/
import VitaGdb.Kernel.UserText
import VitaGdb.Gdb.SessionSpecs

namespace VitaGdb

open GdbSessionInner

variable {s : GdbSessionInner} {k : Kernel} {addr : U32} {kind : ArmBreakpointKind}

/-! ## Planting -/

/-- A call that answers false has changed neither the slots nor the text. -/
def AtomicOnFailure (s : GdbSessionInner) (k : Kernel) (addr : U32) (kind : ArmBreakpointKind) :
    Prop :=
  (s.setSwBreakpoint k addr kind).1 = false →
    (s.setSwBreakpoint k addr kind).2.1.swBreakpoints = s.swBreakpoints ∧
      (s.setSwBreakpoint k addr kind).2.2.mem = k.mem

/-- The call claims a slot, and the write of a trap that is not in the text already stops behind
    its copy. -/
def LeavesTrap (s : GdbSessionInner) (k : Kernel) (addr : U32) (kind : ArmBreakpointKind) : Prop :=
  k.stopsBehindCopy = true ∧ ∃ pid i orig, s.Claims k addr kind pid i orig ∧ orig ≠ patched kind

/-- A planting call by the exit of its write. -/
theorem GdbSessionInner.Claims.setSwBreakpoint_exit {pid : SceUID} {i : Fin 16} {orig : List U8}
    (h : s.Claims k addr kind pid i orig) :
    s.setSwBreakpoint k addr kind =
      if k.writeExit pid addr (patched kind).length = .completed then
        (true, s.withSlot i (some (SwBreakpoint.found addr orig kind)),
          k.wrote pid addr (patched kind))
      else (false, s, k.afterWrite pid addr (patched kind)
        (k.writeExit pid addr (patched kind).length)) := by
  rw [h.setSwBreakpoint_eq, Kernel.writeUserText_eq]
  cases k.writeExit pid addr (patched kind).length <;> rfl

/-- The text is as it was where the copy was not made, or had nothing to change. -/
theorem GdbSessionInner.Claims.afterWrite_mem_eq_iff {pid : SceUID} {i : Fin 16} {orig : List U8}
    (h : s.Claims k addr kind pid i orig) (e : WriteExit) :
    (k.afterWrite pid addr (patched kind) e).mem = k.mem ↔
      (e.copied = true → orig = patched kind) := by
  have hlen : (patched kind).length ≤ 2 ^ 32 := by cases kind <;> decide
  have hread : ByteMem.read (k.mem pid) addr (patched kind).length = some orig := by
    rw [patched_length]
    exact h.read
  rw [Kernel.afterWrite_mem, ← ByteMem.write_eq_self_iff hlen hread]
  cases e.copied with
  | false => exact ⟨fun _ hcopied => absurd hcopied (by simp), fun _ => rfl⟩
  | true =>
    rw [if_pos rfl]
    constructor
    · intro hmem _
      rw [← Function.update_self pid (ByteMem.write (k.mem pid) addr (patched kind)) k.mem, hmem]
    · intro hwrite
      rw [hwrite rfl, Function.update_eq_self]

/-- **A refused breakpoint** leaves slots and text as they were, unless the write of its trap stops
    behind the copy. -/
theorem setSwBreakpoint_atomic_iff (s : GdbSessionInner) (k : Kernel) (addr : U32)
    (kind : ArmBreakpointKind) :
    AtomicOnFailure s k addr kind ↔ ¬ LeavesTrap s k addr kind := by
  by_cases hc : ∃ pid i orig, s.Claims k addr kind pid i orig
  · obtain ⟨pid, i, orig, hc⟩ := hc
    obtain ⟨hcopied, hcompleted⟩ := Kernel.writeExit_mapped hc.mapped
    -- a claim is made for one text only
    have horig : LeavesTrap s k addr kind ↔ k.stopsBehindCopy = true ∧ orig ≠ patched kind := by
      refine and_congr_right fun _ => ⟨?_, fun hne => ⟨pid, i, orig, hc, hne⟩⟩
      rintro ⟨pid', i', orig', hc', hne⟩
      obtain rfl := Option.some.inj (hc.owned.symm.trans hc'.owned)
      obtain rfl := Option.some.inj (hc.read.symm.trans hc'.read)
      exact hne
    rw [horig, AtomicOnFailure, hc.setSwBreakpoint_exit]
    by_cases hdone : k.writeExit pid addr (patched kind).length = .completed
    · rw [if_pos hdone]
      refine ⟨fun _ hstops => ?_, fun _ hfalse => absurd hfalse (by simp)⟩
      exact absurd hstops.1 (by rw [(hcompleted.mp hdone).2]; simp)
    · rw [if_neg hdone]
      have hmem := hc.afterWrite_mem_eq_iff (k.writeExit pid addr (patched kind).length)
      dsimp only
      rw [hmem, hcopied, not_and_not_right]
      constructor
      · intro h hstops
        refine (h rfl).2 ?_
        rw [Kernel.stopsBehindCopy, Bool.and_eq_true] at hstops
        exact hstops.1
      · intro h _
        refine ⟨rfl, fun hcopy => h ?_⟩
        have hcopy : k.fails 0 = false := by simpa using hcopy
        cases hstops : k.stopsBehindCopy with
        | true => rfl
        | false => exact absurd (hcompleted.mpr ⟨hcopy, hstops⟩) hdone
  · refine ⟨fun _ hleaves => ?_, fun _ _ => ?_⟩
    · obtain ⟨-, pid, i, orig, hc', -⟩ := hleaves
      exact hc ⟨pid, i, orig, hc'⟩
    · rcases setSwBreakpoint_cases s k addr kind with ⟨r, heq, -⟩ | hc'
      · rw [heq]
        exact ⟨rfl, rfl⟩
      · exact absurd hc' hc

/-- Process 7 with a word of text, attached. -/
def wordAttached : GdbSessionInner :=
  { GdbSessionInner.uninit with pid := 7#32, evflag := some ⟨3#32⟩ }

/-- The word, on a kernel whose call of the given number fails. -/
def wordText (failing : Nat) : Kernel :=
  { Kernel.quiet fun _ => ByteMem.write (fun _ => none) 0x1000#32 [0x70#8, 0x47#8, 0x00#8, 0xBF#8]
    with ret := fun n => if n = failing then 0x80020001#32 else 0#32 }

/-- **A context that cannot be fetched** behind the copy: the trap is in the text, and no slot has
    the bytes it replaced. -/
theorem setSwBreakpoint_not_atomic :
    ¬ ∀ (s : GdbSessionInner) (k : Kernel) (addr : U32) (kind : ArmBreakpointKind),
      AtomicOnFailure s k addr kind := by
  intro hclaim
  have hmem := (hclaim wordAttached (wordText 1) 0x1000#32 .thumb16 (by decide)).2
  have hcell := congrFun (congrFun hmem 7#32) 0x1000#32
  exact absurd hcell (by decide)

/-! ## Removing -/

/-- A later removal whose calls succeed brings the saved bytes of the breakpoint back. -/
structure Restorable (s : GdbSessionInner) (k : Kernel) (b : SwBreakpoint) : Prop where
  clear : ∀ k', k'.NoFail → k'.mem = k.mem →
    ByteMem.read ((s.clearSwBreakpoint k' b.addr).2.2.mem s.pid) b.addr b.patchLen = some b.saved
  clearAll : ∀ k', k'.NoFail → k'.mem = k.mem →
    ByteMem.read ((s.clearAll k').2.mem s.pid) b.addr b.patchLen = some b.saved

/-- Where a call answers false and the trap of the address's slot is still in the text, the slot
    still holds its breakpoint, and a later removal can bring its bytes back. -/
def NotForgotten (s : GdbSessionInner) (k : Kernel) (addr : U32) : Prop :=
  ∀ pid i b, s.getPid = some pid →
    SlotTable.findSlot (fun b => b.addr = addr) s.swBreakpoints = some (i, b) →
    (s.clearSwBreakpoint k addr).1 = false →
    ByteMem.read ((s.clearSwBreakpoint k addr).2.2.mem pid) b.addr b.patchLen = some b.trap →
    (s.clearSwBreakpoint k addr).2.1.swBreakpoints i = some b ∧
      Restorable (s.clearSwBreakpoint k addr).2.1 (s.clearSwBreakpoint k addr).2.2 b

/-- The address has a slot, and the copy of its bytes fails with the trap in the text, or the write
    stops behind a copy that put the trap back. -/
def Forgets (s : GdbSessionInner) (k : Kernel) (addr : U32) : Prop :=
  ∃ pid i b, s.getPid = some pid ∧
    SlotTable.findSlot (fun b => b.addr = addr) s.swBreakpoints = some (i, b) ∧
    (k.fails 0 = true ∧ ByteMem.read (k.mem pid) b.addr b.patchLen = some b.trap ∨
      k.stopsBehindCopy = true ∧ (ByteMem.read (k.mem pid) b.addr b.patchLen).isSome ∧
        b.saved = b.trap)

/-- The text of a breakpoint's range after a write of its saved bytes. -/
theorem read_afterWrite (k : Kernel) (pid : SceUID) (b : SwBreakpoint) (e : WriteExit) :
    ByteMem.read ((k.afterWrite pid b.addr b.saved e).mem pid) b.addr b.patchLen =
      if e.copied then some b.saved else ByteMem.read (k.mem pid) b.addr b.patchLen := by
  rw [Kernel.afterWrite_mem]
  cases e.copied with
  | false => rfl
  | true =>
    have hlen : b.saved.length ≤ 2 ^ 32 := by
      rw [b.saved_length]
      exact b.patchLen_le
    have hread := ByteMem.read_write_same (k.mem pid) b.addr hlen
    rw [if_pos rfl, if_pos rfl, Function.update_self]
    rwa [b.saved_length] at hread

/-- **A breakpoint that could not be removed** is remembered exactly where its trap is gone: the
    slot is emptied on every path. -/
theorem clearSwBreakpoint_notForgotten_iff (s : GdbSessionInner) (k : Kernel) (addr : U32) :
    NotForgotten s k addr ↔ ¬ Forgets s k addr := by
  constructor
  · rintro h ⟨pid, i, b, hpid, hfind, hstops⟩
    have hkept := h pid i b hpid hfind
    rw [clearSwBreakpoint_found hpid hfind, Kernel.writeUserText_eq] at hkept
    dsimp only at hkept
    -- either way the write is answered with an error, and the trap shows after it
    have hmapped : (ByteMem.read (k.mem pid) b.addr b.saved.length).isSome := by
      rw [b.saved_length]
      rcases hstops with ⟨-, hshown⟩ | ⟨-, hmapped, -⟩
      · rw [hshown]
        rfl
      · exact hmapped
    obtain ⟨hcopied, hcompleted⟩ := Kernel.writeExit_mapped hmapped
    have hfalse : (k.writeResult (k.writeExit pid b.addr b.saved.length)).isOk = false := by
      rw [Bool.eq_false_iff, Ne, Kernel.writeResult_isOk, hcompleted]
      rcases hstops with ⟨hfails, -⟩ | ⟨hbehind, -, -⟩
      · rw [hfails]
        simp
      · rw [hbehind]
        simp
    have hshown : ByteMem.read ((k.afterWrite pid b.addr b.saved
        (k.writeExit pid b.addr b.saved.length)).mem pid) b.addr b.patchLen = some b.trap := by
      rw [read_afterWrite, hcopied]
      rcases hstops with ⟨hfails, hshown⟩ | ⟨hbehind, -, hsame⟩
      · rw [hfails]
        exact hshown
      · rw [Kernel.stopsBehindCopy, Bool.and_eq_true] at hbehind
        rw [if_pos hbehind.1, hsame]
    have hslot := (hkept hfalse hshown).1
    rw [withSlot_swBreakpoints, Function.update_self] at hslot
    exact absurd hslot (by simp)
  · intro h pid i b hpid hfind hfalse hshown
    rw [clearSwBreakpoint_found hpid hfind, Kernel.writeUserText_eq] at hfalse hshown
    dsimp only at hfalse hshown
    rw [read_afterWrite] at hshown
    refine absurd ⟨pid, i, b, hpid, hfind, ?_⟩ h
    cases hread : ByteMem.read (k.mem pid) b.addr b.saved.length with
    | none =>
      -- nothing is shown in a range that is not mapped
      rw [Kernel.writeExit_unmapped hread, if_neg (by simp [WriteExit.copied])] at hshown
      rw [b.saved_length, hshown] at hread
      exact absurd hread (by simp)
    | some bytes =>
      have hmapped : (ByteMem.read (k.mem pid) b.addr b.saved.length).isSome := by
        rw [hread]
        rfl
      obtain ⟨hcopied, hcompleted⟩ := Kernel.writeExit_mapped hmapped
      rw [hcopied] at hshown
      cases hfails : k.fails 0 with
      | true =>
        rw [hfails] at hshown
        exact .inl ⟨rfl, hshown⟩
      | false =>
        rw [hfails] at hshown
        refine .inr ⟨?_, by rwa [b.saved_length] at hmapped, Option.some.inj hshown⟩
        cases hstops : k.stopsBehindCopy with
        | true => rfl
        | false =>
          rw [(Kernel.writeResult_isOk _).mpr (hcompleted.mpr ⟨hfails, hstops⟩)] at hfalse
          exact absurd hfalse (by simp)

/-- The session with a breakpoint on the word, and the word's trap. -/
def wordPlanted : GdbSessionInner :=
  wordAttached.withSlot 0 (some (SwBreakpoint.found 0x1000#32 [0x70#8, 0x47#8] .thumb16))

def wordTrapped : Kernel where
  __ := wordText 0
  mem := fun _ => ByteMem.write (fun _ => none) 0x1000#32 [0x00#8, 0xBE#8, 0x00#8, 0xBF#8]

/-- **A copy that fails once** leaves the trap in the text, and the slot has lost its bytes. -/
theorem clearSwBreakpoint_forgets :
    ¬ ∀ (s : GdbSessionInner) (k : Kernel) (addr : U32), NotForgotten s k addr := by
  intro hclaim
  have hkept := hclaim wordPlanted wordTrapped 0x1000#32 7#32 0
    (SwBreakpoint.found 0x1000#32 [0x70#8, 0x47#8] .thumb16) rfl (by decide) (by decide) (by decide)
  exact absurd hkept.1 (by decide)

end VitaGdb
