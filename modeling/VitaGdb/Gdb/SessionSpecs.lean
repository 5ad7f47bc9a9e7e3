/-
  What the session operations can do, once for every caller.

  `setSwBreakpoint` either leaves everything as it was or claims one slot; `Claims` collects what
  the code has established when it claims it, and `setSwBreakpoint_cases` is the case distinction.
  `clearSwBreakpoint_cases` does the same for a removal: it either finds no slot or releases one,
  and the slot is released even where its bytes cannot be written back.

  The two `_noFail` lemmas are these cases on a kernel none of whose calls fails: a claim ends in a
  planted trap, a removal in the saved bytes written back.  What neither call touches is read off
  `withSlot`, the only way they change a session.
-/
import VitaGdb.Gdb.Sessions

namespace VitaGdb

/-! ## Traps -/

theorem patched_length (kind : ArmBreakpointKind) : (patched kind).length = patchLen kind := by
  cases kind <;> rfl

theorem patchLen_eq_two_or_four (kind : ArmBreakpointKind) :
    patchLen kind = 2 ∨ patchLen kind = 4 := by
  cases kind <;> decide

namespace SwBreakpoint

/-- The trap in the text while the breakpoint is planted; its length tells which one it is. -/
def trap (b : SwBreakpoint) : List U8 :=
  if b.patchLen = 2 then patched .thumb16 else patched .arm32

/-- The addresses the breakpoint patches. -/
def area (b : SwBreakpoint) : Set U32 := ByteMem.range b.addr b.patchLen

/-- The cells of the trap, by address. -/
def put (b : SwBreakpoint) (a : U32) : Option U8 := b.trap[(a - b.addr).toNat]?

/-- The saved cells, by address. -/
def savedAt (b : SwBreakpoint) (a : U32) : Option U8 := b.saved[(a - b.addr).toNat]?

@[simp] theorem found_addr (addr : U32) (bytes : List U8) (kind : ArmBreakpointKind) :
    (found addr bytes kind).addr = addr := rfl

@[simp] theorem found_patchLen (addr : U32) (bytes : List U8) (kind : ArmBreakpointKind) :
    (found addr bytes kind).patchLen = VitaGdb.patchLen kind := rfl

theorem found_trap (addr : U32) (bytes : List U8) (kind : ArmBreakpointKind) :
    (found addr bytes kind).trap = patched kind := by
  cases kind <;> rfl

/-- The slot saves exactly the bytes that were copied. -/
theorem found_saved {addr : U32} {bytes : List U8} {kind : ArmBreakpointKind}
    (h : bytes.length = VitaGdb.patchLen kind) : (found addr bytes kind).saved = bytes := by
  have hle : VitaGdb.patchLen kind ≤ 4 := by
    rcases patchLen_eq_two_or_four kind with h2 | h4 <;> omega
  show ((bytes ++ List.replicate 4 0#8).take 4).take (VitaGdb.patchLen kind) = bytes
  rw [List.take_take, Nat.min_eq_left hle, ← h, List.take_left]

theorem trap_length (b : SwBreakpoint) : b.trap.length = b.patchLen := by
  rcases b.patchLen_eq with h | h <;> simp [trap, h, patched]

theorem saved_length (b : SwBreakpoint) : b.saved.length = b.patchLen := by
  rw [saved, List.length_take, b.orig_length]
  rcases b.patchLen_eq with h | h <;> omega

theorem patchLen_le (b : SwBreakpoint) : b.patchLen ≤ 2 ^ 32 := by
  rcases b.patchLen_eq with h | h <;> omega

/-- The trap covers the area: every cell of it is a byte. -/
theorem put_isSome {b : SwBreakpoint} {a : U32} (h : a ∈ b.area) : (b.put a).isSome := by
  have hlt : (a - b.addr).toNat < b.trap.length := by rw [trap_length]; exact h
  rw [put, List.getElem?_eq_getElem hlt]
  rfl

end SwBreakpoint

namespace GdbSessionInner

variable {s : GdbSessionInner} {k : Kernel} {addr : U32} {kind : ArmBreakpointKind}

theorem getPid_eq_some {pid : SceUID} : s.getPid = some pid ↔ s.pid ≠ pidUnused ∧ s.pid = pid := by
  rw [getPid]
  split
  · next h => simp [h]
  · next h => simp [h]

theorem getPid_eq_none : s.getPid = none ↔ s.pid = pidUnused := by
  rw [getPid]
  split
  · next h => simp [h]
  · next h => simp [h]

/-- The session with one slot of its software breakpoints replaced. -/
def withSlot (s : GdbSessionInner) (i : Fin 16) (slot : Option SwBreakpoint) : GdbSessionInner :=
  { s with swBreakpoints := Function.update s.swBreakpoints i slot }

@[simp] theorem withSlot_swBreakpoints (i : Fin 16) (slot : Option SwBreakpoint) :
    (s.withSlot i slot).swBreakpoints = Function.update s.swBreakpoints i slot := rfl
@[simp] theorem withSlot_pid (i : Fin 16) (slot : Option SwBreakpoint) :
    (s.withSlot i slot).pid = s.pid := rfl
@[simp] theorem withSlot_evflag (i : Fin 16) (slot : Option SwBreakpoint) :
    (s.withSlot i slot).evflag = s.evflag := rfl
@[simp] theorem withSlot_step (i : Fin 16) (slot : Option SwBreakpoint) :
    (s.withSlot i slot).step = s.step := rfl
@[simp] theorem withSlot_stepResult (i : Fin 16) (slot : Option SwBreakpoint) :
    (s.withSlot i slot).stepResult = s.stepResult := rfl
@[simp] theorem withSlot_exceptions (i : Fin 16) (slot : Option SwBreakpoint) :
    (s.withSlot i slot).exceptions = s.exceptions := rfl

/-- What a session holds after a slot was released it held before, in another slot. -/
theorem withSlot_none_some {i j : Fin 16} {b : SwBreakpoint}
    (hb : (s.withSlot i none).swBreakpoints j = some b) : j ≠ i ∧ s.swBreakpoints j = some b := by
  rw [withSlot_swBreakpoints] at hb
  by_cases hj : j = i
  · rw [hj, Function.update_self] at hb
    exact absurd hb (by simp)
  · rw [Function.update_of_ne hj] at hb
    exact ⟨hj, hb⟩

/-- Two sessions that differ in the software breakpoints at most. -/
structure SwOnly (s s' : GdbSessionInner) : Prop where
  pid : s'.pid = s.pid
  evflag : s'.evflag = s.evflag
  step : s'.step = s.step
  stepResult : s'.stepResult = s.stepResult
  exited : s'.exited = s.exited
  exceptions : s'.exceptions = s.exceptions

theorem SwOnly.refl (s : GdbSessionInner) : s.SwOnly s := ⟨rfl, rfl, rfl, rfl, rfl, rfl⟩

theorem SwOnly.withSlot (s : GdbSessionInner) (i : Fin 16) (slot : Option SwBreakpoint) :
    s.SwOnly (s.withSlot i slot) := ⟨rfl, rfl, rfl, rfl, rfl, rfl⟩

/-! ## Planting -/

/-- A slot of the table holds a breakpoint at `addr`. -/
def HasSlot (s : GdbSessionInner) (addr : U32) : Prop :=
  ∃ i b, s.swBreakpoints i = some b ∧ b.addr = addr

/-- A call of `setSwBreakpoint` gets as far as claiming slot `i`, with `orig` read from the text. -/
structure Claims (s : GdbSessionInner) (k : Kernel) (addr : U32) (kind : ArmBreakpointKind)
    (pid : SceUID) (i : Fin 16) (orig : List U8) : Prop where
  owned : s.getPid = some pid
  notShared : isSharedAddress addr = false
  read : ByteMem.read (k.mem pid) addr (patchLen kind) = some orig
  fresh : ¬ s.HasSlot addr
  free : SlotTable.freeSlot s.swBreakpoints = some i

theorem not_hasSlot_iff :
    ¬ s.HasSlot addr ↔ SlotTable.findSlot (fun b => b.addr = addr) s.swBreakpoints = none := by
  rw [SlotTable.findSlot_none_iff]
  constructor
  · intro h i b hb
    exact decide_eq_false fun he => h ⟨i, b, hb, he⟩
  · rintro h ⟨i, b, hb, he⟩
    exact absurd he (of_decide_eq_false (h i b hb))

/-- The search decides. -/
instance (s : GdbSessionInner) (addr : U32) : Decidable (s.HasSlot addr) :=
  decidable_of_iff (¬ SlotTable.findSlot (fun b => b.addr = addr) s.swBreakpoints = none)
    (not_iff_comm.mp not_hasSlot_iff)

theorem Claims.slot_free {pid : SceUID} {i : Fin 16} {orig : List U8}
    (h : s.Claims k addr kind pid i orig) : s.swBreakpoints i = none :=
  SlotTable.freeSlot_some h.free

/-- From the claim on, the call is the write of the trap. -/
theorem Claims.setSwBreakpoint_eq {pid : SceUID} {i : Fin 16} {orig : List U8}
    (h : s.Claims k addr kind pid i orig) :
    s.setSwBreakpoint k addr kind =
      match k.writeUserText pid addr (patched kind) with
      | (.ok _, k) => (true, s.withSlot i (some (SwBreakpoint.found addr orig kind)), k)
      | (.error _, k) => (false, s, k) := by
  have hread : k.ksceKernelCopyFromUserProc pid addr (patchLen kind) = .ok orig := by
    rw [Kernel.ksceKernelCopyFromUserProc, h.read]
  -- releasing the claimed slot gives the table back: it was free
  have hback : Function.update (Function.update s.swBreakpoints i
      (some (SwBreakpoint.found addr orig kind))) i none = s.swBreakpoints := by
    rw [Function.update_idem, ← h.slot_free, Function.update_eq_self]
  rw [setSwBreakpoint, h.owned]
  simp only [h.notShared, Bool.false_eq_true, if_false, hread, not_hasSlot_iff.mp h.fresh, h.free,
    hback]
  rfl

/-- **What a call of `setSwBreakpoint` can do**: refuse, find the address already set, or claim. -/
theorem setSwBreakpoint_cases (s : GdbSessionInner) (k : Kernel) (addr : U32)
    (kind : ArmBreakpointKind) :
    (∃ r, s.setSwBreakpoint k addr kind = (r, s, k) ∧ (r = true → s.HasSlot addr)) ∨
    ∃ pid i orig, s.Claims k addr kind pid i orig := by
  cases hpid : s.getPid with
  | none => exact .inl ⟨false, by rw [setSwBreakpoint, hpid], by simp⟩
  | some pid =>
    cases hshared : isSharedAddress addr with
    | true => exact .inl ⟨false, by rw [setSwBreakpoint, hpid]; simp [hshared], by simp⟩
    | false =>
      cases hread : ByteMem.read (k.mem pid) addr (patchLen kind) with
      | none =>
        refine .inl ⟨false, ?_, by simp⟩
        rw [setSwBreakpoint, hpid]
        simp [hshared, Kernel.ksceKernelCopyFromUserProc, hread]
      | some orig =>
        by_cases hfresh : s.HasSlot addr
        · obtain ⟨⟨i, b⟩, hfound⟩ := Option.ne_none_iff_exists'.mp
            (fun h => not_hasSlot_iff.mpr h hfresh)
          refine .inl ⟨true, ?_, fun _ => hfresh⟩
          rw [setSwBreakpoint, hpid]
          simp [hshared, Kernel.ksceKernelCopyFromUserProc, hread, hfound]
        · cases hfree : SlotTable.freeSlot s.swBreakpoints with
          | none =>
            refine .inl ⟨false, ?_, by simp⟩
            rw [setSwBreakpoint, hpid]
            simp [hshared, Kernel.ksceKernelCopyFromUserProc, hread,
              not_hasSlot_iff.mp hfresh, hfree]
          | some i => exact .inr ⟨pid, i, orig, hpid, hshared, hread, hfresh, hfree⟩

theorem Claims.mapped {pid : SceUID} {i : Fin 16} {orig : List U8}
    (h : s.Claims k addr kind pid i orig) :
    (ByteMem.read (k.mem pid) addr (patched kind).length).isSome := by
  rw [patched_length, h.read]
  rfl

/-- With no failing call, a claim ends in a planted trap. -/
theorem Claims.setSwBreakpoint_noFail {pid : SceUID} {i : Fin 16} {orig : List U8}
    (h : s.Claims k addr kind pid i orig) (hk : k.NoFail) :
    s.setSwBreakpoint k addr kind =
      (true, s.withSlot i (some (SwBreakpoint.found addr orig kind)),
        k.wrote pid addr (patched kind)) := by
  rw [h.setSwBreakpoint_eq, Kernel.writeUserText_ok hk h.mapped]

/-- A call that plants fills one slot of the session and answers true; any other leaves the
    session as it is, and answers true for an address that has a slot. -/
theorem setSwBreakpoint_withSlot (s : GdbSessionInner) (k : Kernel) (addr : U32)
    (kind : ArmBreakpointKind) :
    ((s.setSwBreakpoint k addr kind).2.1 = s ∧
      ((s.setSwBreakpoint k addr kind).1 = true → s.HasSlot addr)) ∨
    ∃ pid i orig, s.Claims k addr kind pid i orig ∧ (s.setSwBreakpoint k addr kind).1 = true ∧
      (s.setSwBreakpoint k addr kind).2.1 =
        s.withSlot i (some (SwBreakpoint.found addr orig kind)) := by
  rcases setSwBreakpoint_cases s k addr kind with ⟨r, heq, hslot⟩ | ⟨pid, i, orig, hc⟩
  · exact .inl (by rw [heq]; exact ⟨rfl, hslot⟩)
  · rw [hc.setSwBreakpoint_eq]
    rcases k.writeUserText pid addr (patched kind) with ⟨res, k'⟩
    cases res with
    | error _ => exact .inl ⟨rfl, by simp⟩
    | ok _ => exact .inr ⟨pid, i, orig, hc, rfl, rfl⟩

theorem setSwBreakpoint_swOnly (s : GdbSessionInner) (k : Kernel) (addr : U32)
    (kind : ArmBreakpointKind) : s.SwOnly (s.setSwBreakpoint k addr kind).2.1 := by
  rcases setSwBreakpoint_withSlot s k addr kind with ⟨heq, -⟩ | ⟨pid, i, orig, -, -, heq⟩ <;>
    rw [heq]
  · exact .refl s
  · exact .withSlot s i _

/-- A part of the kernel that no call of `writeUserText` touches is as it was. -/
theorem setSwBreakpoint_proj {β : Type} (f : Kernel → β)
    (hcount : ∀ k n, f { k with calls := n } = f k)
    (hmem : ∀ k mem, f { k with mem := mem } = f k) (hintr : ∀ k n, f { k with intr := n } = f k)
    (hcontext : ∀ k pid, f { k with context := pid } = f k) (s : GdbSessionInner) (k : Kernel)
    (addr : U32) (kind : ArmBreakpointKind) : f (s.setSwBreakpoint k addr kind).2.2 = f k := by
  rcases setSwBreakpoint_cases s k addr kind with ⟨r, heq, -⟩ | ⟨pid, i, orig, hc⟩
  · rw [heq]
  · have hwrite := Kernel.writeUserText_proj f hcount hmem hintr hcontext k pid addr (patched kind)
    rw [hc.setSwBreakpoint_eq]
    rcases hw : k.writeUserText pid addr (patched kind) with ⟨res, k'⟩
    rw [hw] at hwrite
    cases res <;> exact hwrite

theorem setSwBreakpoint_keepsStatus (s : GdbSessionInner) (k : Kernel) (addr : U32)
    (kind : ArmBreakpointKind) : k.KeepsStatus (s.setSwBreakpoint k addr kind).2.2 where
  status := setSwBreakpoint_proj Kernel.status (fun _ _ => rfl) (fun _ _ => rfl) (fun _ _ => rfl)
    (fun _ _ => rfl) s k addr kind
  ret := setSwBreakpoint_proj Kernel.ret (fun _ _ => rfl) (fun _ _ => rfl) (fun _ _ => rfl)
    (fun _ _ => rfl) s k addr kind

/-! ## Removing -/

/-- The first slot of the address is released, and the answer is that of the write. -/
theorem clearSwBreakpoint_found {pid : SceUID} {i : Fin 16} {b : SwBreakpoint}
    (hpid : s.getPid = some pid)
    (hfind : SlotTable.findSlot (fun b => b.addr = addr) s.swBreakpoints = some (i, b)) :
    s.clearSwBreakpoint k addr =
      ((k.writeUserText pid b.addr b.saved).1.isOk, s.withSlot i none,
        (k.writeUserText pid b.addr b.saved).2) := by
  rw [clearSwBreakpoint, hpid]
  simp only [hfind, restoreSwSlot]
  rcases k.writeUserText pid b.addr b.saved with ⟨res, k'⟩
  cases res <;> rfl

/-- **What a call of `clearSwBreakpoint` can do**: find no slot, or release one; the answer is
    whether its bytes could be written back. -/
theorem clearSwBreakpoint_cases (s : GdbSessionInner) (k : Kernel) (addr : U32) :
    (s.clearSwBreakpoint k addr = (false, s, k) ∧ (s.getPid = none ∨ ¬ s.HasSlot addr)) ∨
    ∃ pid i b, s.getPid = some pid ∧ s.swBreakpoints i = some b ∧ b.addr = addr ∧
      s.clearSwBreakpoint k addr =
        ((k.writeUserText pid b.addr b.saved).1.isOk, s.withSlot i none,
          (k.writeUserText pid b.addr b.saved).2) := by
  cases hpid : s.getPid with
  | none => exact .inl ⟨by rw [clearSwBreakpoint, hpid], .inl rfl⟩
  | some pid =>
    cases hfind : SlotTable.findSlot (fun b => b.addr = addr) s.swBreakpoints with
    | none =>
      refine .inl ⟨?_, .inr (not_hasSlot_iff.mpr hfind)⟩
      rw [clearSwBreakpoint, hpid]
      simp only [hfind]
    | some ib =>
      obtain ⟨hb, haddr⟩ := SlotTable.findSlot_some hfind
      exact .inr ⟨pid, ib.1, ib.2, rfl, hb, of_decide_eq_true haddr,
        clearSwBreakpoint_found hpid hfind⟩

/-- Removing a breakpoint leaves the rest of the session alone. -/
theorem clearSwBreakpoint_withSlot (s : GdbSessionInner) (k : Kernel) (addr : U32) :
    (s.clearSwBreakpoint k addr).2.1 = s ∨
      ∃ i, (s.clearSwBreakpoint k addr).2.1 = s.withSlot i none := by
  rcases clearSwBreakpoint_cases s k addr with ⟨heq, -⟩ | ⟨pid, i, b, -, -, -, heq⟩
  · exact .inl (by rw [heq])
  · exact .inr ⟨i, by rw [heq]⟩

/-- A removing call keeps what is planted at other addresses. -/
theorem clearSwBreakpoint_keeps_slot {j : Fin 16} {b : SwBreakpoint}
    (hb : s.swBreakpoints j = some b) (hne : b.addr ≠ addr) :
    (s.clearSwBreakpoint k addr).2.1.swBreakpoints j = some b := by
  rcases clearSwBreakpoint_cases s k addr with ⟨heq, -⟩ | ⟨pid, i, b', -, hb', haddr, heq⟩ <;>
    rw [heq]
  · exact hb
  · have hj : j ≠ i := by
      rintro rfl
      rw [hb, Option.some.injEq] at hb'
      exact hne (by rw [hb', haddr])
    rw [withSlot_swBreakpoints, Function.update_of_ne hj]
    exact hb

theorem clearSwBreakpoint_swOnly (s : GdbSessionInner) (k : Kernel) (addr : U32) :
    s.SwOnly (s.clearSwBreakpoint k addr).2.1 := by
  rcases clearSwBreakpoint_withSlot s k addr with heq | ⟨i, heq⟩ <;> rw [heq]
  · exact .refl s
  · exact .withSlot s i none

theorem clearSwBreakpoint_keepsStatus (s : GdbSessionInner) (k : Kernel) (addr : U32) :
    k.KeepsStatus (s.clearSwBreakpoint k addr).2.2 := by
  rcases clearSwBreakpoint_cases s k addr with ⟨heq, -⟩ | ⟨pid, i, b, -, -, -, heq⟩ <;> rw [heq]
  · exact (Kernel.Keeps.refl k).keepsStatus
  · exact k.writeUserText_keepsStatus pid b.addr b.saved

/-- The ranges of all planted breakpoints are mapped, so that they can be written back. -/
def SlotsMapped (s : GdbSessionInner) (k : Kernel) : Prop :=
  ∀ i b, s.swBreakpoints i = some b → ∀ a, a ∈ b.area → (k.mem s.pid a).isSome

theorem SlotsMapped.read {i : Fin 16} {b : SwBreakpoint} (h : s.SlotsMapped k)
    (hb : s.swBreakpoints i = some b) :
    (ByteMem.read (k.mem s.pid) b.addr b.saved.length).isSome := by
  rw [b.saved_length]
  exact (ByteMem.read_isSome_iff b.patchLen_le).mpr (h i b hb)

/-- With no failing call, a removal finds no slot or releases one and writes its bytes back. -/
theorem clearSwBreakpoint_noFail (hk : k.NoFail) (hmapped : s.SlotsMapped k)
    (hpid : s.pid ≠ pidUnused) (addr : U32) :
    (s.clearSwBreakpoint k addr = (false, s, k) ∧ ¬ s.HasSlot addr) ∨
    ∃ i b, s.swBreakpoints i = some b ∧ b.addr = addr ∧
      s.clearSwBreakpoint k addr = (true, s.withSlot i none, k.wrote s.pid b.addr b.saved) := by
  rcases clearSwBreakpoint_cases s k addr with ⟨heq, hno⟩ | ⟨pid, i, b, hp, hb, haddr, heq⟩
  · refine .inl ⟨heq, hno.resolve_left fun hnone => hpid (getPid_eq_none.mp hnone)⟩
  · obtain ⟨-, rfl⟩ := getPid_eq_some.mp hp
    refine .inr ⟨i, b, hb, haddr, ?_⟩
    rw [heq, Kernel.writeUserText_ok hk (hmapped.read hb)]
    rfl

/-- The end of a session leaves no slot of a software breakpoint behind. -/
theorem clearAll_swBreakpoints (s : GdbSessionInner) (k : Kernel) :
    (s.clearAll k).1.swBreakpoints = SlotTable.empty := by
  show (SlotTable.drain (fun k _ b => (restoreSwSlot k s.pid (some b)).2.2) s.swBreakpoints _).1 = _
  exact (SlotTable.drain_invariant (fun _ _ => True) (fun _ _ _ _ _ _ => trivial) trivial).2

/-! ## Hardware breakpoints and watchpoints -/

/-- Two sessions that differ in the hardware tables at most. -/
def HwOnly (s s' : GdbSessionInner) : Prop :=
  ∃ bps wps, s' = { s with hwBreakpoints := bps, hwWatchpoints := wps }

theorem HwOnly.refl (s : GdbSessionInner) : s.HwOnly s := ⟨_, _, rfl⟩

theorem HwOnly.pid {s s' : GdbSessionInner} (h : s.HwOnly s') : s'.pid = s.pid := by
  obtain ⟨bps, wps, rfl⟩ := h
  rfl

theorem setHwBreakpoint_frame (s : GdbSessionInner) (k : Kernel) (addr : U32) :
    s.HwOnly (s.setHwBreakpoint k addr).2.1 ∧ k.Keeps (s.setHwBreakpoint k addr).2.2 := by
  have hsame : s.HwOnly s ∧ k.Keeps k := ⟨.refl s, .refl k⟩
  unfold setHwBreakpoint
  split
  · exact hsame
  · split
    · exact hsame
    · next pid _ =>
      split
      · exact hsame
      · split
        · exact hsame
        · next idx _ =>
          have hkeeps := k.sceKernelSetPHBP_keeps pid idx addr bpControl
          split
          · next h => exact ⟨.refl s, hkeeps.of_eq h⟩
          · next h => exact ⟨⟨_, _, rfl⟩, hkeeps.of_eq h⟩

theorem clearHwBreakpoint_frame (s : GdbSessionInner) (k : Kernel) (addr : U32) :
    s.HwOnly (s.clearHwBreakpoint k addr).2.1 ∧ k.Keeps (s.clearHwBreakpoint k addr).2.2 := by
  have hsame : s.HwOnly s ∧ k.Keeps k := ⟨.refl s, .refl k⟩
  unfold clearHwBreakpoint
  split
  · exact hsame
  · split
    · exact hsame
    · next pid _ =>
      split
      · exact hsame
      · next idx _ _ =>
        have hkeeps := k.sceKernelSetPHBP_keeps pid idx 0#32 0#32
        split
        · next h => exact ⟨.refl s, hkeeps.of_eq h⟩
        · next h => exact ⟨⟨_, _, rfl⟩, hkeeps.of_eq h⟩

theorem setHwWatchpoint_frame (s : GdbSessionInner) (k : Kernel) (addr len : U32)
    (kind : WatchKind) :
    s.HwOnly (s.setHwWatchpoint k addr len kind).2.1 ∧
      k.Keeps (s.setHwWatchpoint k addr len kind).2.2 := by
  have hsame : s.HwOnly s ∧ k.Keeps k := ⟨.refl s, .refl k⟩
  unfold setHwWatchpoint
  split
  · exact hsame
  · split
    · exact hsame
    · next pid _ =>
      split
      · next idx slot _ =>
        split
        · exact hsame
        · have hkeeps := k.sceKernelSetPHWP_keeps pid idx addr (wpControl kind)
          split
          · next h => exact ⟨.refl s, hkeeps.of_eq h⟩
          · next h => exact ⟨⟨_, _, rfl⟩, hkeeps.of_eq h⟩
      · split
        · exact hsame
        · next idx _ =>
          have hkeeps := k.sceKernelSetPHWP_keeps pid idx addr (wpControl kind)
          split
          · next h => exact ⟨.refl s, hkeeps.of_eq h⟩
          · next h => exact ⟨⟨_, _, rfl⟩, hkeeps.of_eq h⟩

theorem clearHwWatchpoint_frame (s : GdbSessionInner) (k : Kernel) (addr : U32) :
    s.HwOnly (s.clearHwWatchpoint k addr).2.1 ∧ k.Keeps (s.clearHwWatchpoint k addr).2.2 := by
  have hsame : s.HwOnly s ∧ k.Keeps k := ⟨.refl s, .refl k⟩
  unfold clearHwWatchpoint
  split
  · exact hsame
  · split
    · exact hsame
    · next pid _ =>
      split
      · exact hsame
      · next idx _ _ =>
        have hkeeps := k.sceKernelSetPHWP_keeps pid idx 0#32 0#32
        split
        · next h => exact ⟨.refl s, hkeeps.of_eq h⟩
        · next h => exact ⟨⟨_, _, rfl⟩, hkeeps.of_eq h⟩

/-! ## Completing a step -/

/-- What `stepFinished` leaves: the session after the removal, with the result stored. -/
theorem stepFinished_some {tid : SceUID} (hstep : s.step = some (tid, addr)) (k : Kernel) :
    (s.stepFinished k).2.1 =
      { (({ s with step := none } : GdbSessionInner).clearSwBreakpoint k addr).2.1 with
        stepResult := some tid } := by
  rw [stepFinished, hstep]
  dsimp only
  split <;> rfl

theorem stepFinished_none (hstep : s.step = none) (k : Kernel) :
    s.stepFinished k = (.ok (), s, k) := by
  rw [stepFinished, hstep]

/-- The kernel after `stepFinished`: after the removal, but for the event flag. -/
theorem stepFinished_kernel {tid : SceUID} (hstep : s.step = some (tid, addr)) (k : Kernel) :
    (({ s with step := none } : GdbSessionInner).clearSwBreakpoint k addr).2.2.Keeps
      (s.stepFinished k).2.2 := by
  rw [stepFinished, hstep]
  dsimp only
  split
  · exact Kernel.Keeps.refl _
  · next evflag _ => exact evflag.set_keeps _ evWakeWorker

theorem stepFinished_keepsStatus (s : GdbSessionInner) (k : Kernel) :
    k.KeepsStatus (s.stepFinished k).2.2 := by
  cases hstep : s.step with
  | none =>
    rw [stepFinished_none hstep]
    exact (Kernel.Keeps.refl k).keepsStatus
  | some step =>
    obtain ⟨tid, addr⟩ := step
    exact (clearSwBreakpoint_keepsStatus _ k addr).trans (stepFinished_kernel hstep k).keepsStatus

/-- The completion of a step is not queued: the ring stays. -/
theorem stepFinished_exceptions (s : GdbSessionInner) (k : Kernel) :
    (s.stepFinished k).2.1.exceptions = s.exceptions := by
  cases hstep : s.step with
  | none => rw [stepFinished_none hstep]
  | some step =>
    obtain ⟨tid, addr⟩ := step
    rw [stepFinished_some hstep]
    exact (clearSwBreakpoint_swOnly { s with step := none } k addr).exceptions

/-! ## Queuing events -/

/-- Queuing on an attached session appends, unless seven events are already pending. -/
theorem pushExcp_pending {evflag : EventFlagRef} (hflag : s.evflag = some evflag) (k : Kernel)
    (event : ExceptionEvent) :
    (s.pushExcp k event).1.exceptions.pending =
      if s.exceptions.pending.length + 1 < 8 then s.exceptions.pending ++ [event]
      else s.exceptions.pending := by
  rw [pushExcp, hflag]
  show (s.exceptions.push event).2.pending = _
  split
  · next hroom => exact s.exceptions.pending_push event hroom
  · next hfull => exact s.exceptions.pending_push_full event hfull

/-- Queuing changes the ring and the event flag only. -/
theorem pushExcp_frame (s : GdbSessionInner) (k : Kernel) (event : ExceptionEvent) :
    (∃ r, (s.pushExcp k event).1 = { s with exceptions := r }) ∧
      k.Keeps (s.pushExcp k event).2 := by
  rw [pushExcp]
  split
  · exact ⟨⟨s.exceptions, rfl⟩, Kernel.Keeps.refl k⟩
  · next evflag _ => exact ⟨⟨_, rfl⟩, evflag.set_keeps k evWakeWorker⟩

end GdbSessionInner

end VitaGdb
