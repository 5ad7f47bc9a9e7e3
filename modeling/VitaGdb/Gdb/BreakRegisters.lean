/-
  The hardware breakpoint table and the breakpoint registers.

  Both operations search the table by address before they call the kernel, and change the slot they
  found only after the call went through.  So each slot is the mirror of its register whatever
  calls fail (`BreaksAgree`), and an address has one slot at most.  `hwBreakpoints_agree` says so of
  every run, with what the answers promise.

  `setHwBreakpoint_cases` and `clearHwBreakpoint_cases` are what a call can do in any state of
  session and kernel.
-/
import VitaGdb.Lib.Runs
import VitaGdb.Gdb.SwPatches

namespace VitaGdb

open GdbSessionInner
open SlotTable (Mirrors)

/-! ## What a call can do -/

/-- The session with one slot of its hardware breakpoints replaced. -/
def GdbSessionInner.withBreak (s : GdbSessionInner) (i : Fin 6) (slot : Option HwBreakpoint) :
    GdbSessionInner := { s with hwBreakpoints := Function.update s.hwBreakpoints i slot }

/-- A slot of the table holds a hardware breakpoint at the address. -/
def GdbSessionInner.HasBreak (s : GdbSessionInner) (addr : U32) : Prop :=
  ∃ i bp, s.hwBreakpoints i = some bp ∧ bp.addr = addr

/-- How a session call ends in the register call it makes: with the error, or with its own change.
    -/
def registerAnswer (s s' : GdbSessionInner) :
    Except SceError I32 × Kernel → Outcome SceError Bool × GdbSessionInner × Kernel
  | (.error err, k) => (.err err, s, k)
  | (.ok _, k) => (.ok true, s', k)

variable {s : GdbSessionInner} {k : Kernel} {addr : U32}

theorem not_hasBreak_iff :
    ¬ s.HasBreak addr ↔ SlotTable.findSlot (fun bp => bp.addr = addr) s.hwBreakpoints = none := by
  rw [SlotTable.findSlot_none_iff]
  constructor
  · intro h i bp hbp
    exact decide_eq_false fun haddr => h ⟨i, bp, hbp, haddr⟩
  · rintro h ⟨i, bp, hbp, haddr⟩
    exact absurd haddr (of_decide_eq_false (h i bp hbp))

/-- **What `set_hw_breakpoint` can do** with debug enabled on a process: find the address, find no
    free slot, or set the register of the first free one. -/
theorem setHwBreakpoint_cases (hdebug : k.isDebugEnabled = true) {pid : SceUID}
    (hpid : s.getPid = some pid) (addr : U32) :
    (s.HasBreak addr ∧ s.setHwBreakpoint k addr = (.ok true, s, k)) ∨
    (¬ s.HasBreak addr ∧ (∀ i, s.hwBreakpoints i ≠ none) ∧
      s.setHwBreakpoint k addr = (.ok false, s, k)) ∨
    ∃ i, ¬ s.HasBreak addr ∧ s.hwBreakpoints i = none ∧
      SlotTable.freeSlot s.hwBreakpoints = some i ∧
      (((k.ret k.calls).slt 0#32 = true ∧ ∃ err,
        s.setHwBreakpoint k addr = (.err err, s, { k with calls := k.calls + 1 })) ∨
      ((k.ret k.calls).slt 0#32 = false ∧ s.setHwBreakpoint k addr =
        (.ok true, s.withBreak i (some ⟨addr⟩), k.withPHBP pid i (addr, bpControl)))) := by
  rcases hfind : SlotTable.findSlot (fun bp => bp.addr = addr) s.hwBreakpoints with _ | ⟨j, bp⟩
  · have hno := not_hasBreak_iff.mpr hfind
    rcases hfree : SlotTable.freeSlot s.hwBreakpoints with _ | i
    · refine .inr (.inl ⟨hno, fun i hi => ?_, ?_⟩)
      · have := List.find?_eq_none.mp hfree i (List.mem_finRange i)
        rw [hi] at this
        exact this rfl
      · rw [setHwBreakpoint, hdebug, hpid, hfind, hfree]
        rfl
    · refine .inr (.inr ⟨i, hno, SlotTable.freeSlot_some hfree, rfl, ?_⟩)
      have hset : s.setHwBreakpoint k addr =
          registerAnswer s (s.withBreak i (some ⟨addr⟩))
            (k.sceKernelSetPHBP pid i addr bpControl) := by
        rw [setHwBreakpoint, hdebug, hpid, hfind, hfree]
        rfl
      rcases k.sceKernelSetPHBP_cases pid i addr bpControl with
        ⟨hfails, err, hcall⟩ | ⟨hgoes, code, hcall⟩ <;> rw [hset, hcall]
      · exact .inl ⟨hfails, err, rfl⟩
      · exact .inr ⟨hgoes, rfl⟩
  · obtain ⟨hbp, haddr⟩ := SlotTable.findSlot_some hfind
    refine .inl ⟨⟨j, bp, hbp, of_decide_eq_true haddr⟩, ?_⟩
    rw [setHwBreakpoint, hdebug, hpid, hfind]
    rfl

/-- **What `clear_hw_breakpoint` can do** there: not find the address, or switch the register of its
    first slot off. -/
theorem clearHwBreakpoint_cases (hdebug : k.isDebugEnabled = true) {pid : SceUID}
    (hpid : s.getPid = some pid) (addr : U32) :
    (¬ s.HasBreak addr ∧ s.clearHwBreakpoint k addr = (.ok false, s, k)) ∨
    ∃ i bp, SlotTable.findSlot (fun bp => bp.addr = addr) s.hwBreakpoints = some (i, bp) ∧
      s.hwBreakpoints i = some bp ∧ bp.addr = addr ∧
      (((k.ret k.calls).slt 0#32 = true ∧ ∃ err,
        s.clearHwBreakpoint k addr = (.err err, s, { k with calls := k.calls + 1 })) ∨
      ((k.ret k.calls).slt 0#32 = false ∧ s.clearHwBreakpoint k addr =
        (.ok true, s.withBreak i none, k.withPHBP pid i (0#32, 0#32)))) := by
  rcases hfind : SlotTable.findSlot (fun bp => bp.addr = addr) s.hwBreakpoints with _ | ⟨i, bp⟩
  · refine .inl ⟨not_hasBreak_iff.mpr hfind, ?_⟩
    rw [clearHwBreakpoint, hdebug, hpid, hfind]
    rfl
  · obtain ⟨hbp, haddr⟩ := SlotTable.findSlot_some hfind
    have hclear : s.clearHwBreakpoint k addr =
        registerAnswer s (s.withBreak i none) (k.sceKernelSetPHBP pid i 0#32 0#32) := by
      rw [clearHwBreakpoint, hdebug, hpid, hfind]
      rfl
    refine .inr ⟨i, bp, hfind, hbp, of_decide_eq_true haddr, ?_⟩
    rcases k.sceKernelSetPHBP_cases pid i 0#32 0#32 with
      ⟨hfails, err, hcall⟩ | ⟨hgoes, code, hcall⟩ <;> rw [hclear, hcall]
    · exact .inl ⟨hfails, err, rfl⟩
    · exact .inr ⟨hgoes, rfl⟩

/-! ## Runs of breakpoint calls -/

inductive BreakCall where
  | set (addr : U32)
  | clear (addr : U32)

/-- The answer of a call, the session and the kernel. -/
def breakCall (x : GdbSessionInner × Kernel) :
    BreakCall → Outcome SceError Bool × GdbSessionInner × Kernel
  | .set addr => x.1.setHwBreakpoint x.2 addr
  | .clear addr => x.1.clearHwBreakpoint x.2 addr

def breakStep (x : GdbSessionInner × Kernel) (call : BreakCall) :
    Option (GdbSessionInner × Kernel) := some (breakCall x call).2

/-- What a register holds that is armed for an entry of the table. -/
def breakRegister (bp : HwBreakpoint) : U32 × U32 := (bp.addr, bpControl)

/-- Some breakpoint register is armed for the address. -/
def BreakArmed (x : GdbSessionInner × Kernel) (addr : U32) : Prop :=
  ∃ i, x.2.phbp x.1.pid i = breakRegister ⟨addr⟩

/-- A register is armed for an address exactly while its slot holds it, and no address has two
    slots. -/
structure BreaksAgree (x : GdbSessionInner × Kernel) : Prop where
  mirrors : Mirrors breakRegister (x.2.phbp x.1.pid) x.1.hwBreakpoints
  keyed : SlotTable.KeyedBy HwBreakpoint.addr x.1.hwBreakpoints

/-- What the answers of `set_hw_breakpoint` say. -/
structure SetTruthful (x : GdbSessionInner × Kernel) (addr : U32) : Prop where
  armed : (breakCall x (.set addr)).1 = .ok true ↔ BreakArmed (breakCall x (.set addr)).2 addr
  full : (breakCall x (.set addr)).1 = .ok false →
    ∀ i, ∃ bp, x.1.hwBreakpoints i = some bp ∧ bp.addr ≠ addr

/-- After a call table and registers agree, its answer is true, and an error has changed neither. -/
structure BreakOk (x : GdbSessionInner × Kernel) (call : BreakCall) : Prop where
  agree : BreaksAgree (breakCall x call).2
  truthful : ∀ addr, call = .set addr → SetTruthful x addr
  unchanged : ∀ err, (breakCall x call).1 = .err err →
    (breakCall x call).2.1.hwBreakpoints = x.1.hwBreakpoints ∧
      (breakCall x call).2.2.phbp = x.2.phbp

/-! ## One call -/

theorem breakRegister_injective : Function.Injective breakRegister := by
  rintro ⟨addr⟩ ⟨addr'⟩ h
  exact congrArg HwBreakpoint.mk (Prod.mk.inj h).1

theorem breakRegister_ne_off (bp : HwBreakpoint) : breakRegister bp ≠ (0#32, 0#32) := fun h =>
  absurd (show bpControl = 0#32 from congrArg Prod.snd h) (by decide)

/-- What is armed is in the table. -/
theorem BreaksAgree.armed_iff {x : GdbSessionInner × Kernel} (h : BreaksAgree x) :
    BreakArmed x addr ↔ x.1.HasBreak addr := by
  constructor
  · rintro ⟨i, hi⟩
    exact ⟨i, ⟨addr⟩, (h.mirrors i _).mp hi, rfl⟩
  · rintro ⟨i, bp, hbp, rfl⟩
    exact ⟨i, (h.mirrors i bp).mpr hbp⟩

theorem BreaksAgree.counted (h : BreaksAgree (s, k)) :
    BreaksAgree (s, { k with calls := k.calls + 1 }) :=
  ⟨h.mirrors, h.keyed⟩

theorem BreaksAgree.arm (h : BreaksAgree (s, k)) (hfresh : ¬ s.HasBreak addr) (i : Fin 6) :
    BreaksAgree (s.withBreak i (some ⟨addr⟩), k.withPHBP s.pid i (addr, bpControl)) where
  mirrors := by
    show Mirrors _ ((k.withPHBP s.pid i _).phbp s.pid) _
    rw [Kernel.withPHBP_phbp]
    exact h.mirrors.claim breakRegister_injective i ⟨addr⟩
  keyed := h.keyed.claim i ⟨addr⟩ fun j bp hbp haddr => hfresh ⟨j, bp, hbp, haddr⟩

theorem BreaksAgree.off (h : BreaksAgree (s, k)) (i : Fin 6) :
    BreaksAgree (s.withBreak i none, k.withPHBP s.pid i (0#32, 0#32)) where
  mirrors := by
    show Mirrors _ ((k.withPHBP s.pid i _).phbp s.pid) _
    rw [Kernel.withPHBP_phbp]
    exact h.mirrors.release breakRegister_ne_off i
  keyed := h.keyed.release i

/-- What holds along a run. -/
structure Breaking (x : GdbSessionInner × Kernel) : Prop where
  attached : x.1.pid ≠ pidUnused
  debug : x.2.isDebugEnabled = true
  agree : BreaksAgree x

theorem Breaking.getPid {x : GdbSessionInner × Kernel} (h : Breaking x) :
    x.1.getPid = some x.1.pid := getPid_eq_some.mpr ⟨h.attached, rfl⟩

/-- What is to be shown of a call, by its answer and what it leaves. -/
theorem BreakOk.set {x y : GdbSessionInner × Kernel} {res : Outcome SceError Bool}
    (hcall : breakCall x (.set addr) = (res, y)) (hagree : BreaksAgree y)
    (harmed : res = .ok true ↔ BreakArmed y addr)
    (hfull : res = .ok false → ∀ i, ∃ bp, x.1.hwBreakpoints i = some bp ∧ bp.addr ≠ addr)
    (herr : ∀ err, res = .err err → y.1.hwBreakpoints = x.1.hwBreakpoints ∧
      y.2.phbp = x.2.phbp) : BreakOk x (.set addr) where
  agree := by rwa [hcall]
  truthful := by
    intro a heq
    obtain rfl := BreakCall.set.inj heq
    exact ⟨by rwa [hcall], by rwa [hcall]⟩
  unchanged := by rwa [hcall]

theorem BreakOk.clear {x y : GdbSessionInner × Kernel} {res : Outcome SceError Bool}
    (hcall : breakCall x (.clear addr) = (res, y)) (hagree : BreaksAgree y)
    (herr : ∀ err, res = .err err → y.1.hwBreakpoints = x.1.hwBreakpoints ∧
      y.2.phbp = x.2.phbp) : BreakOk x (.clear addr) where
  agree := by rwa [hcall]
  truthful := fun _ heq => absurd heq (by simp)
  unchanged := by rwa [hcall]

/-- A call that sets. -/
theorem Breaking.set_ok (h : Breaking (s, k)) (addr : U32) :
    BreakOk (s, k) (.set addr) ∧ Breaking (breakCall (s, k) (.set addr)).2 := by
  have hagree : BreaksAgree (s, k) := h.agree
  rcases setHwBreakpoint_cases h.debug h.getPid addr with ⟨hhas, heq⟩ | ⟨hno, hfull, heq⟩ |
    ⟨i, hno, hi, -, ⟨-, err, heq⟩ | ⟨-, heq⟩⟩
  · -- the address has a slot already
    have hcall : breakCall (s, k) (.set addr) = (.ok true, s, k) := heq
    refine ⟨BreakOk.set hcall hagree ?_ ?_ ?_, hcall ▸ h⟩
    · exact iff_of_true rfl (hagree.armed_iff.mpr hhas)
    · simp
    · simp
  · -- every slot is taken by another address
    have hcall : breakCall (s, k) (.set addr) = (.ok false, s, k) := heq
    refine ⟨BreakOk.set hcall hagree ?_ (fun _ j => ?_) ?_, hcall ▸ h⟩
    · exact iff_of_false (by simp) fun harmed => hno (hagree.armed_iff.mp harmed)
    · obtain ⟨bp, hbp⟩ := Option.ne_none_iff_exists'.mp (hfull j)
      exact ⟨bp, hbp, fun haddr => hno ⟨j, bp, hbp, haddr⟩⟩
    · simp
  · -- the register call fails
    have hcall : breakCall (s, k) (.set addr) = (.err err, s, { k with calls := k.calls + 1 }) :=
      heq
    refine ⟨BreakOk.set hcall hagree.counted ?_ ?_ fun _ _ => ⟨rfl, rfl⟩, ?_⟩
    · exact iff_of_false (by simp) fun harmed => hno (hagree.counted.armed_iff.mp harmed)
    · simp
    · rw [hcall]
      exact ⟨h.attached, h.debug, hagree.counted⟩
  · -- the free slot and its register take the address
    have hcall : breakCall (s, k) (.set addr) =
        (.ok true, s.withBreak i (some ⟨addr⟩), k.withPHBP s.pid i (addr, bpControl)) := heq
    have hafter := hagree.arm hno i
    refine ⟨BreakOk.set hcall hafter ?_ ?_ ?_, ?_⟩
    · exact iff_of_true rfl (hafter.armed_iff.mpr ⟨i, ⟨addr⟩, Function.update_self .., rfl⟩)
    · simp
    · simp
    · rw [hcall]
      exact ⟨h.attached, h.debug, hafter⟩

/-- A call that clears. -/
theorem Breaking.clear_ok (h : Breaking (s, k)) (addr : U32) :
    BreakOk (s, k) (.clear addr) ∧ Breaking (breakCall (s, k) (.clear addr)).2 := by
  have hagree : BreaksAgree (s, k) := h.agree
  rcases clearHwBreakpoint_cases h.debug h.getPid addr with ⟨-, heq⟩ |
    ⟨i, bp, -, -, -, ⟨-, err, heq⟩ | ⟨-, heq⟩⟩
  · have hcall : breakCall (s, k) (.clear addr) = (.ok false, s, k) := heq
    exact ⟨BreakOk.clear hcall hagree (by simp), hcall ▸ h⟩
  · have hcall : breakCall (s, k) (.clear addr) = (.err err, s, { k with calls := k.calls + 1 }) :=
      heq
    refine ⟨BreakOk.clear hcall hagree.counted fun _ _ => ⟨rfl, rfl⟩, ?_⟩
    rw [hcall]
    exact ⟨h.attached, h.debug, hagree.counted⟩
  · have hcall : breakCall (s, k) (.clear addr) =
        (.ok true, s.withBreak i none, k.withPHBP s.pid i (0#32, 0#32)) := heq
    refine ⟨BreakOk.clear hcall (hagree.off i) (by simp), ?_⟩
    rw [hcall]
    exact ⟨h.attached, h.debug, hagree.off i⟩

/-- One call. -/
theorem Breaking.step {x : GdbSessionInner × Kernel} (h : Breaking x) (call : BreakCall) :
    BreakOk x call ∧ Breaking (breakCall x call).2 := by
  obtain ⟨s, k⟩ := x
  cases call with
  | set addr => exact h.set_ok addr
  | clear addr => exact h.clear_ok addr

/-! ## Runs -/

/-- **Breakpoint table and registers agree**: along every run of calls from an attached session
    without hardware breakpoints, with debug enabled and no register armed, whichever register
    calls fail. -/
theorem hwBreakpoints_agree (s : GdbSessionInner) (k : Kernel) (calls : List BreakCall)
    (hpid : s.pid ≠ pidUnused) (hdebug : k.isDebugEnabled = true)
    (hfresh : s.hwBreakpoints = SlotTable.empty)
    (hoff : ∀ i bp, k.phbp s.pid i ≠ breakRegister bp) :
    LTS.Along breakStep BreakOk (s, k) calls ∧
      ∀ x, LTS.exec breakStep (s, k) calls = some x → BreaksAgree x := by
  have hstart : Breaking (s, k) := by
    refine ⟨hpid, hdebug, ⟨fun i bp => ?_, ?_⟩⟩
    · dsimp only
      rw [hfresh]
      exact iff_of_false (hoff i bp) (by simp)
    · dsimp only
      rw [hfresh]
      exact SlotTable.KeyedBy.empty _
  have hstep : ∀ x call y, Breaking x → True → breakStep x call = some y → Breaking y := by
    intro x call y hx _ hy
    rw [← Option.some.inj hy]
    exact (hx.step call).2
  refine ⟨?_, fun x hx => ?_⟩
  · refine (LTS.Along.iff_of_invariant (c := fun _ _ => True) (fun x call hx => ?_) hstep calls
      hstart).mp (LTS.Along.of_forall (fun _ _ => trivial) calls)
    exact iff_of_true trivial (hx.step call).1
  · exact (LTS.exec_invariant hstep calls hstart (LTS.Along.of_forall (fun _ _ => trivial) calls)
      hx).agree

/-- Two breakpoints, one of them set twice and removed. -/
def twoBreakpoints : List BreakCall :=
  [.set 0x1000#32, .set 0x2000#32, .set 0x2000#32, .set 0x1000#32, .clear 0x1000#32]

/-- Every call goes through but the second. -/
def failingSecond : Kernel :=
  { Kernel.quiet countingText with ret := fun n => if n = 1 then 0x80020001#32 else 0#32 }

theorem hwBreakpoints_agree_two :
    LTS.Along breakStep BreakOk (freshSession, failingSecond) twoBreakpoints ∧
      ∀ x, LTS.exec breakStep (freshSession, failingSecond) twoBreakpoints = some x →
        BreaksAgree x :=
  hwBreakpoints_agree freshSession failingSecond twoBreakpoints (by decide) rfl rfl
    fun _ bp h => breakRegister_ne_off bp h.symm

end VitaGdb
