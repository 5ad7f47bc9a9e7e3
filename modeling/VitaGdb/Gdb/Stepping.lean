/-
  Steps and the debugger's own breakpoints in one slot table.

  A step plants a trap with the call gdb plants breakpoints with, and its completion removes it
  with the call gdb removes breakpoints with; the table is keyed by the address only.  So a step
  can leave its trap behind, and it can take a breakpoint of gdb's away.

    * `NoOrphans` — every planted trap is gdb's or the recorded step's.  It fails exactly when a
      step is recorded over one whose trap is still planted and is not gdb's (`ReplacesCleanly`).
    * `UserBreakpointsKept` — every breakpoint of gdb's is planted and can be removed.  It fails
      when a step completes at an address of gdb's, and when a trap is planted over another
      (`CompletesApart`).

  Each is an invariant of the runs that meet its condition (`steps_no_orphans`,
  `steps_keep_breakpoints`), and fails on a run that does not.
-/
import VitaGdb.Gdb.SwPatches
import VitaGdb.Gdb.System

namespace VitaGdb

open GdbSessionInner
open ArmNextPc (InstDecoder)

/-! ## One trap for each address -/

/-- The slots have different addresses, and only a session with a process has any. -/
structure SlotsKeyed (s : GdbSessionInner) : Prop where
  keyed : SlotTable.KeyedBy SwBreakpoint.addr s.swBreakpoints
  owned : ∀ i b, s.swBreakpoints i = some b → s.pid ≠ pidUnused

variable {s : GdbSessionInner} {k : Kernel} {addr : U32} {kind : ArmBreakpointKind}

theorem SlotsKeyed.congr {s' : GdbSessionInner} (h : SlotsKeyed s) (hpid : s'.pid = s.pid)
    (hsw : s'.swBreakpoints = s.swBreakpoints) : SlotsKeyed s' := by
  refine ⟨?_, ?_⟩
  · rw [hsw]
    exact h.keyed
  · rw [hsw, hpid]
    exact h.owned

theorem SlotsKeyed.claim {pid : SceUID} {i : Fin 16} {orig : List U8} (h : SlotsKeyed s)
    (hc : s.Claims k addr kind pid i orig) :
    SlotsKeyed (s.withSlot i (some (SwBreakpoint.found addr orig kind))) where
  keyed := h.keyed.claim i _ fun j b hb haddr => hc.fresh ⟨j, b, hb, haddr⟩
  owned := fun _ _ _ => (getPid_eq_some.mp hc.owned).1

theorem SlotsKeyed.release (h : SlotsKeyed s) (i : Fin 16) : SlotsKeyed (s.withSlot i none) where
  keyed := h.keyed.release i
  owned := fun j b hb => h.owned j b (withSlot_none_some hb).2

theorem SlotsKeyed.set (h : SlotsKeyed s) (k : Kernel) (addr : U32) (kind : ArmBreakpointKind) :
    SlotsKeyed (s.setSwBreakpoint k addr kind).2.1 := by
  rcases setSwBreakpoint_withSlot s k addr kind with ⟨heq, -⟩ | ⟨pid, i, orig, hc, -, heq⟩ <;>
    rw [heq]
  · exact h
  · exact h.claim hc

theorem SlotsKeyed.clear (h : SlotsKeyed s) (k : Kernel) (addr : U32) :
    SlotsKeyed (s.clearSwBreakpoint k addr).2.1 := by
  rcases clearSwBreakpoint_withSlot s k addr with heq | ⟨i, heq⟩ <;> rw [heq]
  · exact h
  · exact h.release i

/-- What a planting call leaves planted was planted before, or is at its address. -/
theorem setSwBreakpoint_slots {j : Fin 16} {b : SwBreakpoint}
    (hb : (s.setSwBreakpoint k addr kind).2.1.swBreakpoints j = some b) :
    s.swBreakpoints j = some b ∨ b.addr = addr ∧ (s.setSwBreakpoint k addr kind).1 = true := by
  rcases setSwBreakpoint_withSlot s k addr kind with ⟨heq, -⟩ | ⟨pid, i, orig, -, htrue, heq⟩ <;>
    rw [heq] at hb
  · exact .inl hb
  · rw [withSlot_swBreakpoints] at hb
    by_cases hj : j = i
    · rw [hj, Function.update_self, Option.some.injEq] at hb
      exact .inr ⟨by rw [← hb, SwBreakpoint.found_addr], htrue⟩
    · rw [Function.update_of_ne hj] at hb
      exact .inl hb

/-- A planting call keeps what is planted. -/
theorem setSwBreakpoint_keeps_slot {j : Fin 16} {b : SwBreakpoint}
    (hb : s.swBreakpoints j = some b) :
    (s.setSwBreakpoint k addr kind).2.1.swBreakpoints j = some b := by
  rcases setSwBreakpoint_withSlot s k addr kind with ⟨heq, -⟩ | ⟨pid, i, orig, hc, -, heq⟩ <;>
    rw [heq]
  · exact hb
  · have hj : j ≠ i := by
      rintro rfl
      rw [hc.slot_free] at hb
      exact absurd hb (by simp)
    rw [withSlot_swBreakpoints, Function.update_of_ne hj]
    exact hb

/-- What a removing call leaves planted was planted before, and is not at its address. -/
theorem SlotsKeyed.clear_slots (h : SlotsKeyed s) {j : Fin 16} {b : SwBreakpoint}
    (hb : (s.clearSwBreakpoint k addr).2.1.swBreakpoints j = some b) :
    s.swBreakpoints j = some b ∧ b.addr ≠ addr := by
  rcases clearSwBreakpoint_cases s k addr with ⟨heq, hno⟩ | ⟨pid, i, b', -, hb', haddr, heq⟩ <;>
    rw [heq] at hb
  · refine ⟨hb, fun haddr => ?_⟩
    rcases hno with hnone | hno
    · exact h.owned j b hb (getPid_eq_none.mp hnone)
    · exact hno ⟨j, b, hb, haddr⟩
  · obtain ⟨hj, hold⟩ := withSlot_none_some hb
    exact ⟨hold, fun haddr' => hj (h.keyed j i b b' hold hb' (haddr'.trans haddr.symm))⟩

/-! ## No trap without an owner -/

/-- Every planted trap is at an address gdb has added or at that of the recorded step. -/
def NoOrphans (x : DebugState) : Prop :=
  ∀ i b, x.session.swBreakpoints i = some b →
    b.addr ∈ x.added ∨ ∃ tid, x.session.step = some (tid, b.addr)

theorem noOrphans_iff {x : DebugState} : NoOrphans x ↔
    ∀ i, ∀ b ∈ x.session.swBreakpoints i,
      b.addr ∈ x.added ∨ x.session.step.map Prod.snd = some b.addr := by
  simp [NoOrphans]

instance (x : DebugState) : Decidable (NoOrphans x) :=
  @decidable_of_iff _ _ noOrphans_iff.symm
    (@Nat.decidableForallFin 16 _ fun i => Option.decidableForallMem (x.session.swBreakpoints i))

/-- A turn that is about to plant a step finds no step recorded, or one whose address is gdb's, or
    the new one, or has no trap. -/
def ReplacesCleanly (decoder : InstDecoder) (x : DebugState) : DebugEvent → Prop
  | .thread => ∀ target ∈ x.planting decoder, ∀ old ∈ x.session.step,
      old.2 ∈ x.added ∨ old.2 = target.1 ∨ ¬ x.session.HasSlot old.2
  | _ => True

instance (decoder : InstDecoder) (x : DebugState) :
    (e : DebugEvent) → Decidable (ReplacesCleanly decoder x e)
  | .thread =>
    @Option.decidableForallMem _ _ (fun _ => Option.decidableForallMem x.session.step)
      (x.planting decoder)
  | .addSwBreakpoint .. | .removeSwBreakpoint .. | .hardware .. | .action .. | .resume | .run
  | .poll | .interrupt | .execute .. | .fault .. | .halt .. | .queue .. | .exit =>
    isTrue trivial

/-- What holds along a run: one trap for each address, and none without an owner. -/
structure Accounted (x : DebugState) : Prop where
  keyed : SlotsKeyed x.session
  owned : NoOrphans x

/-- One step. -/
theorem Accounted.step {decoder : InstDecoder} {x y : DebugState} {e : DebugEvent}
    (h : Accounted x) (hcond : ReplacesCleanly decoder x e) (hy : debugStep decoder x e = some y) :
    Accounted y := by
  cases debugStep_breakpoints hy with
  | undisturbed _ _ hsame =>
    refine ⟨h.keyed.congr hsame.pid hsame.swBreakpoints, fun i b hb => ?_⟩
    rw [hsame.swBreakpoints] at hb
    rw [hsame.added, hsame.step]
    exact h.owned i b hb
  | added addr kind =>
    refine ⟨h.keyed.set x.kernel addr kind, fun i b hb => ?_⟩
    dsimp only at hb ⊢
    rcases setSwBreakpoint_slots hb with hold | ⟨rfl, htrue⟩
    · rw [(setSwBreakpoint_swOnly x.session x.kernel addr kind).step]
      refine (h.owned i b hold).imp_left fun hmem => ?_
      split
      · exact Finset.mem_insert_of_mem hmem
      · exact hmem
    · rw [if_pos htrue]
      exact .inl (Finset.mem_insert_self _ _)
  | removed addr =>
    refine ⟨h.keyed.clear x.kernel addr, fun i b hb => ?_⟩
    obtain ⟨hold, hne⟩ := h.keyed.clear_slots hb
    dsimp only
    rw [(clearSwBreakpoint_swOnly x.session x.kernel addr).step]
    exact (h.owned i b hold).imp_left fun hmem => Finset.mem_erase_of_ne_of_mem hne hmem
  | planted pid tid todo addr thumb k₁ _ hworker hstep hpredict hkeeps₁ hsession _ hadded =>
    have hplanting := DebugState.planting_eq hworker hstep hpredict
    refine ⟨?_, fun i b hb => ?_⟩
    · rw [hsession]
      exact (h.keyed.set k₁ addr (stepKind thumb)).congr rfl rfl
    · rw [hsession] at hb ⊢
      rw [hadded]
      rcases setSwBreakpoint_slots hb with hold | ⟨rfl, -⟩
      · rcases h.owned i b hold with hmem | ⟨old, hrecorded⟩
        · exact .inl hmem
        · -- the trap of the step that is replaced
          rcases hcond (addr, thumb) hplanting (old, b.addr) hrecorded with hmem | hsame | hgone
          · exact .inl hmem
          · exact .inr ⟨tid, by rw [show b.addr = addr from hsame]; rfl⟩
          · exact absurd ⟨i, b, hold, rfl⟩ hgone
      · exact .inr ⟨tid, rfl⟩
  | completed n tid stepTid addr insn thumb _ _ hstep hsession _ hadded =>
    have hfinished := stepFinished_some hstep x.kernel
    have hkeyed : SlotsKeyed { x.session with step := none } := h.keyed.congr rfl rfl
    rw [hfinished] at hsession
    refine ⟨?_, fun i b hb => ?_⟩
    · rw [hsession]
      exact (hkeyed.clear x.kernel addr).congr rfl rfl
    · rw [hsession] at hb
      rw [hadded]
      obtain ⟨hold, hne⟩ := hkeyed.clear_slots hb
      rcases h.owned i b hold with hmem | ⟨old, hrecorded⟩
      · exact .inl hmem
      · rw [hstep, Option.some.injEq, Prod.mk.injEq] at hrecorded
        exact absurd hrecorded.2.symm hne

/-- **No orphaned step trap**: along every run of an attached session in which no step is recorded
    over one whose trap is still planted and not gdb's, every planted trap is gdb's or the
    recorded step's. -/
theorem steps_no_orphans (decoder : InstDecoder) (t : VitaTarget) (pid : SceUID)
    (evflag : EventFlagRef) (k : Kernel) (events : List DebugEvent)
    (hcond : LTS.Along (debugStep decoder) (ReplacesCleanly decoder) (attachedState t pid evflag k)
      events)
    (x : DebugState)
    (hrun : LTS.exec (debugStep decoder) (attachedState t pid evflag k) events = some x) :
    NoOrphans x := by
  have hstart : Accounted (attachedState t pid evflag k) := by
    refine ⟨⟨SlotTable.KeyedBy.empty _, ?_⟩, ?_⟩ <;> intro i b hb
    · exact absurd hb (by simp [attachedState, claimed, uninit])
    · exact absurd hb (by simp [attachedState, claimed, uninit])
  exact (LTS.exec_invariant (fun _ _ _ hx hc hy => Accounted.step hx hc hy) events hstart hcond
    hrun).owned

/-- Thread 9 steps, completes its step, and steps again. -/
def stepTwice : List DebugEvent :=
  stepThread 9#32 ++ raise .pabt 9#32 0x1004#32 ++ [.poll] ++ stepThread 9#32

theorem steps_no_orphans_twice :
    ∃ x, LTS.exec (debugStep straightLine) twoThreadsAttached stepTwice = some x ∧ NoOrphans x := by
  have hgoes : (LTS.exec (debugStep straightLine) twoThreadsAttached stepTwice).isSome := by
    decide +kernel
  obtain ⟨x, hx⟩ := Option.isSome_iff_exists.mp hgoes
  exact ⟨x, hx, steps_no_orphans straightLine (VitaTarget.new ⟨3#32⟩) 7#32 ⟨3#32⟩ twoThreads
    stepTwice (by decide +kernel) x hx⟩

/-- Thread 9 steps, thread 10 faults before the step is completed, and is stepped itself. -/
def stepCutShort : List DebugEvent :=
  stepThread 9#32 ++ raise .undefInstruction 10#32 0x2000#32 ++ [.poll] ++ stepThread 10#32

/-- **A step cut short by another thread's exception** and followed by a step of that thread leaves
    its trap behind. -/
theorem steps_orphan :
    ¬ ∀ (decoder : InstDecoder) (t : VitaTarget) (pid : SceUID) (evflag : EventFlagRef) (k : Kernel)
      (events : List DebugEvent) (x : DebugState), k.NoFail →
      LTS.exec (debugStep decoder) (attachedState t pid evflag k) events = some x →
        NoOrphans x := by
  intro hclaim
  have hall : ∀ x ∈ LTS.exec (debugStep straightLine) twoThreadsAttached stepCutShort,
      NoOrphans x := fun x hx =>
    hclaim straightLine (VitaTarget.new ⟨3#32⟩) 7#32 ⟨3#32⟩ twoThreads stepCutShort x
      twoThreads_noFail hx
  exact absurd hall (by decide +kernel)

/-! ## gdb's breakpoints stay -/

/-- Every breakpoint gdb has added has a slot, shows its trap in the text, and can be removed. -/
def UserBreakpointsKept (x : DebugState) : Prop :=
  ∀ addr ∈ x.added,
    (∃ i b, x.session.swBreakpoints i = some b ∧ b.addr = addr ∧
      ByteMem.read (x.kernel.mem x.session.pid) addr b.patchLen = some b.trap) ∧
    (x.session.clearSwBreakpoint x.kernel addr).1 = true

/-- Traps are planted apart from the planted ones, and no step completes at an address of gdb's. -/
def CompletesApart (decoder : InstDecoder) (x : DebugState) : DebugEvent → Prop
  | .addSwBreakpoint addr kind => PlantsApart (x.session, x.kernel) (.set addr kind)
  | .thread => ∀ target ∈ x.planting decoder,
      PlantsApart (x.session, x.kernel) (.set target.1 (stepKind target.2))
  | .queue n => ∀ done ∈ x.completing n, done.2.2 ∉ x.added
  | _ => True

/-- What holds along a run. -/
structure Stepping (pristine : UserMem) (x : DebugState) : Prop where
  noFail : x.kernel.NoFail
  keyed : SlotsKeyed x.session
  patched : SwPatched pristine x.session x.kernel
  slots : ∀ addr ∈ x.added, x.session.HasSlot addr

theorem Stepping.kept {pristine : UserMem} {x : DebugState} (h : Stepping pristine x) :
    UserBreakpointsKept x := by
  intro addr hmem
  obtain ⟨i, b, hb, rfl⟩ := h.slots addr hmem
  refine ⟨⟨i, b, hb, rfl, ?_⟩, ?_⟩
  · have hread : ByteMem.read (x.kernel.mem x.session.pid) b.addr b.trap.length = some b.trap := by
      refine ByteMem.read_of_cells (by rw [b.trap_length]; exact b.patchLen_le) fun a ha => ?_
      rw [b.trap_length] at ha
      exact h.patched.shown i b a hb ha
    rwa [b.trap_length] at hread
  · have hpid := h.keyed.owned i b hb
    rcases clearSwBreakpoint_noFail h.noFail h.patched.slotsMapped hpid b.addr with
      ⟨-, hno⟩ | ⟨j, b', -, -, heq⟩
    · exact absurd ⟨i, b, hb, rfl⟩ hno
    · rw [heq]

theorem Claims.congr_mem {k' : Kernel} {pid : SceUID} {i : Fin 16} {orig : List U8}
    (h : s.Claims k addr kind pid i orig) (hmem : k'.mem = k.mem) :
    s.Claims k' addr kind pid i orig :=
  ⟨h.owned, h.notShared, by rw [hmem]; exact h.read, h.fresh, h.free⟩

theorem PlantsApart.congr_mem {k' : Kernel} (h : PlantsApart (s, k) (.set addr kind))
    (hmem : k'.mem = k.mem) : PlantsApart (s, k') (.set addr kind) := by
  rintro ⟨pid, i, orig, hc⟩
  exact h ⟨pid, i, orig, Claims.congr_mem hc hmem.symm⟩

/-- A planting call keeps the slots gdb knows of. -/
theorem setSwBreakpoint_keeps_hasSlot {a : U32} (h : s.HasSlot a) (k : Kernel) (addr : U32)
    (kind : ArmBreakpointKind) :
    (s.setSwBreakpoint k addr kind).2.1.HasSlot a := by
  obtain ⟨i, b, hb, ha⟩ := h
  exact ⟨i, b, setSwBreakpoint_keeps_slot hb, ha⟩

/-- Where a planting call answers true, its address has a slot. -/
theorem setSwBreakpoint_true (h : (s.setSwBreakpoint k addr kind).1 = true) :
    (s.setSwBreakpoint k addr kind).2.1.HasSlot addr := by
  rcases setSwBreakpoint_withSlot s k addr kind with ⟨heq, hslot⟩ | ⟨pid, i, orig, -, -, heq⟩ <;>
    rw [heq]
  · exact hslot h
  · exact ⟨i, _, Function.update_self .., SwBreakpoint.found_addr ..⟩

theorem clearSwBreakpoint_keeps_hasSlot {a : U32} (h : s.HasSlot a) (hne : a ≠ addr) :
    (s.clearSwBreakpoint k addr).2.1.HasSlot a := by
  obtain ⟨i, b, hb, rfl⟩ := h
  exact ⟨i, b, clearSwBreakpoint_keeps_slot hb hne, rfl⟩

/-- One step. -/
theorem Stepping.step {pristine : UserMem} {decoder : InstDecoder} {x y : DebugState}
    {e : DebugEvent} (h : Stepping pristine x) (hcond : CompletesApart decoder x e)
    (hy : debugStep decoder x e = some y) : Stepping pristine y := by
  have hnoFail : ∀ {k : Kernel}, k.ret = x.kernel.ret → k.NoFail := fun hret n => by
    rw [hret]
    exact h.noFail n
  cases debugStep_breakpoints hy with
  | undisturbed _ _ hsame =>
    refine ⟨hnoFail hsame.kernel.ret, h.keyed.congr hsame.pid hsame.swBreakpoints,
      h.patched.congr hsame.pid hsame.swBreakpoints hsame.kernel.mem, fun addr hmem => ?_⟩
    rw [hsame.added] at hmem
    obtain ⟨i, b, hb, ha⟩ := h.slots addr hmem
    exact ⟨i, b, by rw [hsame.swBreakpoints]; exact hb, ha⟩
  | added addr kind =>
    refine ⟨hnoFail (setSwBreakpoint_keepsStatus x.session x.kernel addr kind).ret,
      h.keyed.set x.kernel addr kind, h.patched.set h.noFail hcond, fun a ha => ?_⟩
    dsimp only at ha ⊢
    split at ha
    · next htrue =>
      rcases Finset.mem_insert.mp ha with rfl | hmem
      · exact setSwBreakpoint_true htrue
      · exact setSwBreakpoint_keeps_hasSlot (h.slots a hmem) x.kernel addr kind
    · exact setSwBreakpoint_keeps_hasSlot (h.slots a ha) x.kernel addr kind
  | removed addr =>
    refine ⟨hnoFail (clearSwBreakpoint_keepsStatus x.session x.kernel addr).ret,
      h.keyed.clear x.kernel addr, h.patched.clear h.noFail addr, fun a ha => ?_⟩
    obtain ⟨hne, hmem⟩ := Finset.mem_erase.mp ha
    exact clearSwBreakpoint_keeps_hasSlot (h.slots a hmem) hne
  | planted pid tid todo addr thumb k₁ _ hworker hstep hpredict hkeeps₁ hsession hkernel hadded =>
    have hplanting := DebugState.planting_eq hworker hstep hpredict
    have hapart : PlantsApart (x.session, k₁) (.set addr (stepKind thumb)) :=
      PlantsApart.congr_mem (hcond (addr, thumb) hplanting) hkeeps₁.mem
    have hpatched : SwPatched pristine x.session k₁ := h.patched.congr rfl rfl hkeeps₁.mem
    refine ⟨?_, ?_, ?_, fun a ha => ?_⟩
    · refine hnoFail (hkernel.ret.trans ?_)
      rw [(setSwBreakpoint_keepsStatus x.session k₁ addr (stepKind thumb)).ret, hkeeps₁.ret]
    · rw [hsession]
      exact (h.keyed.set k₁ addr (stepKind thumb)).congr rfl rfl
    · rw [hsession]
      exact (hpatched.set (hnoFail hkeeps₁.ret) hapart).congr rfl rfl hkernel.mem
    · rw [hadded] at ha
      obtain ⟨i, b, hb, haddr⟩ :=
        setSwBreakpoint_keeps_hasSlot (h.slots a ha) k₁ addr (stepKind thumb)
      exact ⟨i, b, by rw [hsession]; exact hb, haddr⟩
  | completed n tid stepTid addr insn thumb _ hn hstep hsession hkernel hadded =>
    have hdone : addr ∉ x.added := hcond (tid, stepTid, addr) (DebugState.completing_eq hn hstep)
    have hfinished := stepFinished_some hstep x.kernel
    have hkeeps := stepFinished_kernel hstep x.kernel
    have hkeyed : SlotsKeyed { x.session with step := none } := h.keyed.congr rfl rfl
    have hpatched : SwPatched pristine { x.session with step := none } x.kernel :=
      h.patched.congr rfl rfl rfl
    rw [hfinished] at hsession
    refine ⟨?_, ?_, ?_, fun a ha => ?_⟩
    · rw [hkernel]
      exact hnoFail (stepFinished_keepsStatus x.session x.kernel).ret
    · rw [hsession]
      exact (hkeyed.clear x.kernel addr).congr rfl rfl
    · rw [hsession, hkernel]
      exact (hpatched.clear h.noFail addr).congr rfl rfl hkeeps.mem
    · rw [hadded] at ha
      have hne : a ≠ addr := fun heq => hdone (heq ▸ ha)
      have hslot : ({ x.session with step := none } : GdbSessionInner).HasSlot a := h.slots a ha
      obtain ⟨i, b, hb, haddr⟩ := clearSwBreakpoint_keeps_hasSlot (k := x.kernel) hslot hne
      exact ⟨i, b, by rw [hsession]; exact hb, haddr⟩

/-- **Single-stepping keeps the debugger's own breakpoints** along every run of an attached
    session, on a kernel none of whose calls fails, in which traps are planted apart and no step
    completes at an address of gdb's. -/
theorem steps_keep_breakpoints (decoder : InstDecoder) (t : VitaTarget) (pid : SceUID)
    (evflag : EventFlagRef) (k : Kernel) (hk : k.NoFail) (events : List DebugEvent)
    (hcond : LTS.Along (debugStep decoder) (CompletesApart decoder) (attachedState t pid evflag k)
      events)
    (x : DebugState)
    (hrun : LTS.exec (debugStep decoder) (attachedState t pid evflag k) events = some x) :
    UserBreakpointsKept x := by
  have hstart : Stepping (k.mem pid) (attachedState t pid evflag k) := by
    refine ⟨hk, ⟨SlotTable.KeyedBy.empty _, fun i b hb => ?_⟩,
      UndoTable.Patched.start (k.mem pid), fun addr hmem => ?_⟩
    · exact absurd hb (by simp [attachedState, claimed, uninit])
    · exact absurd hmem (Finset.notMem_empty addr)
  exact (LTS.exec_invariant (fun _ _ _ hx hc hy => Stepping.step hx hc hy) events hstart hcond
    hrun).kept

/-- `CompletesApart`, with the ranges compared by their addresses. -/
def OffsetsCompleteApart (decoder : InstDecoder) (x : DebugState) : DebugEvent → Prop
  | .addSwBreakpoint addr kind => OffsetsApart x.session addr kind
  | .thread => ∀ target ∈ x.planting decoder,
      OffsetsApart x.session target.1 (stepKind target.2)
  | .queue n => ∀ done ∈ x.completing n, done.2.2 ∉ x.added
  | _ => True

instance (decoder : InstDecoder) (x : DebugState) :
    (e : DebugEvent) → Decidable (OffsetsCompleteApart decoder x e)
  | .addSwBreakpoint addr kind => inferInstanceAs (Decidable (OffsetsApart x.session addr kind))
  | .thread => Option.decidableForallMem (x.planting decoder)
  | .queue n => Option.decidableForallMem (x.completing n)
  | .removeSwBreakpoint .. | .hardware .. | .action .. | .resume | .run | .poll | .interrupt
  | .execute .. | .fault .. | .halt .. | .exit =>
    isTrue trivial

theorem OffsetsCompleteApart.completesApart {decoder : InstDecoder} {x : DebugState}
    {e : DebugEvent} (h : OffsetsCompleteApart decoder x e) : CompletesApart decoder x e := by
  cases e with
  | addSwBreakpoint addr kind => exact plantsApart_of_offsets h
  | thread => exact fun target htarget => plantsApart_of_offsets (h target htarget)
  | queue n => exact h
  | _ => trivial

/-- gdb adds a breakpoint, and thread 9 steps to 0x1004. -/
def addAndStep (addr : U32) : List DebugEvent :=
  [.addSwBreakpoint addr .arm32] ++ stepThread 9#32 ++ raise .pabt 9#32 0x1004#32 ++ [.poll]

theorem steps_keep_breakpoints_elsewhere :
    ∃ x, LTS.exec (debugStep straightLine) twoThreadsAttached (addAndStep 0x3000#32) = some x ∧
      UserBreakpointsKept x := by
  have hgoes : (LTS.exec (debugStep straightLine) twoThreadsAttached
      (addAndStep 0x3000#32)).isSome := by decide +kernel
  have hapart : LTS.Along (debugStep straightLine) (OffsetsCompleteApart straightLine)
      twoThreadsAttached (addAndStep 0x3000#32) := by decide +kernel
  obtain ⟨x, hx⟩ := Option.isSome_iff_exists.mp hgoes
  exact ⟨x, hx, steps_keep_breakpoints straightLine (VitaTarget.new ⟨3#32⟩) 7#32 ⟨3#32⟩ twoThreads
    twoThreads_noFail (addAndStep 0x3000#32)
    (LTS.Along.mono (fun _ _ h => h.completesApart) _ hapart) x hx⟩

/-- **A step to one of gdb's breakpoints** takes the breakpoint away when it completes. -/
theorem steps_take_breakpoint :
    ¬ ∀ (decoder : InstDecoder) (t : VitaTarget) (pid : SceUID) (evflag : EventFlagRef) (k : Kernel)
      (events : List DebugEvent) (x : DebugState), k.NoFail →
      LTS.exec (debugStep decoder) (attachedState t pid evflag k) events = some x →
        UserBreakpointsKept x := by
  intro hclaim
  have hall : ∀ x ∈ LTS.exec (debugStep straightLine) twoThreadsAttached (addAndStep 0x1004#32),
      0x1004#32 ∈ x.added → x.session.HasSlot 0x1004#32 := by
    intro x hx hmem
    have hkept := hclaim straightLine (VitaTarget.new ⟨3#32⟩) 7#32 ⟨3#32⟩ twoThreads
      (addAndStep 0x1004#32) x twoThreads_noFail hx
    obtain ⟨⟨i, b, hb, haddr, -⟩, -⟩ := hkept 0x1004#32 hmem
    exact ⟨i, b, hb, haddr⟩
  exact absurd hall (by decide +kernel)

end VitaGdb
