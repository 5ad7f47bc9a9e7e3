/-
  Planting against step completion: one worker, any number of handlers, one session.

  `setSwBreakpoint` and `stepFinished` are cut at their atomic steps.  The worker reads the bytes
  the trap will replace (`readOrig`), claims a slot under the lock (`claimSlot`), and writes the
  trap with the lock released (`writeTrap`).  A handler that has compared its address with the
  recorded step takes the step, then removes the breakpoint: a search, a write and a release in
  one locked section (`finishTaken`).  `setSwBreakpoint_eq_steps` and `stepFinished_eq_steps` say
  that the functions are these steps in a row; here the steps of the two sides come in any order.

  Between `readOrig` and `writeTrap` the worker relies on a text and a table it does not hold the
  lock of.  `ReleasesApart` says what that takes: no handler releases the slot of the address the
  worker is at.  Along every run that meets it `RaceOk` holds (`raceStep_ok`), and where the worker
  is idle that is `PlantedExactly` (`planting_interleaves`).  `planting_not_interleaves` is a run
  that does not: the trap of a step is read as the original bytes of the next breakpoint.
-/
import VitaGdb.Gdb.SwPatches

namespace VitaGdb

/-! ## The atomic steps -/

namespace GdbSessionInner

/-- `set_sw_breakpoint` up to the lock: the process, and the bytes the trap will replace. -/
def readOrig (s : GdbSessionInner) (k : Kernel) (addr : U32) (kind : ArmBreakpointKind) :
    Option (SceUID × List U8) :=
  match s.getPid with
  | none => none
  | some pid =>
    if isSharedAddress addr then none
    else
      match k.ksceKernelCopyFromUserProc pid addr (patchLen kind) with
      | .error _ => none
      | .ok orig => some (pid, orig)

/-- `set_sw_breakpoint` under the lock: its answer, or the slot it claims. -/
def claimSlot (s : GdbSessionInner) (addr : U32) (kind : ArmBreakpointKind) (orig : List U8) :
    Except Bool (Fin 16) × GdbSessionInner :=
  match SlotTable.findSlot (fun b => b.addr = addr) s.swBreakpoints with
  | some _ => (.error true, s)
  | none =>
    match SlotTable.freeSlot s.swBreakpoints with
    | none => (.error false, s)
    | some claimed => (.ok claimed, s.withSlot claimed (some (SwBreakpoint.found addr orig kind)))

/-- `set_sw_breakpoint` past the lock. -/
def writeTrap (s : GdbSessionInner) (k : Kernel) (pid : SceUID) (addr : U32)
    (kind : ArmBreakpointKind) (claimed : Fin 16) : Bool × GdbSessionInner × Kernel :=
  match k.writeUserText pid addr (patched kind) with
  | (.ok _, k) => (true, s, k)
  | (.error _, k) => (false, s.withSlot claimed none, k)

/-- `step_finished` once it has taken the recorded step. -/
def finishTaken (s : GdbSessionInner) (k : Kernel) (stepTid : SceUID) (stepAddr : U32) :
    Outcome SceError Unit × GdbSessionInner × Kernel :=
  let (_, s, k) := clearSwBreakpoint s k stepAddr
  let s := { s with stepResult := some stepTid }
  match s.evflag with
  | none => (.panic, s, k)
  | some evflag => (.ok (), s, (evflag.set k evWakeWorker).2)

variable {s : GdbSessionInner} {k : Kernel} {addr : U32} {kind : ArmBreakpointKind}

/-- **`setSwBreakpoint` is its three steps in a row.** -/
theorem setSwBreakpoint_eq_steps (s : GdbSessionInner) (k : Kernel) (addr : U32)
    (kind : ArmBreakpointKind) :
    s.setSwBreakpoint k addr kind =
      match s.readOrig k addr kind with
      | none => (false, s, k)
      | some (pid, orig) =>
        match s.claimSlot addr kind orig with
        | (.error answer, s) => (answer, s, k)
        | (.ok claimed, s) => s.writeTrap k pid addr kind claimed := by
  cases hpid : s.getPid with
  | none => simp only [setSwBreakpoint, readOrig, hpid]
  | some pid =>
    cases hshared : isSharedAddress addr with
    | true => simp only [setSwBreakpoint, readOrig, hpid, hshared, if_true]
    | false =>
      simp only [setSwBreakpoint, readOrig, hpid, hshared, Bool.false_eq_true, if_false]
      cases hread : k.ksceKernelCopyFromUserProc pid addr (patchLen kind) with
      | error _ => rfl
      | ok orig =>
        cases hfind : SlotTable.findSlot (fun b => b.addr = addr) s.swBreakpoints with
        | some _ => simp only [claimSlot, hfind]
        | none =>
          cases hfree : SlotTable.freeSlot s.swBreakpoints with
          | none => simp only [claimSlot, hfind, hfree]
          | some claimed =>
            simp only [claimSlot, hfind, hfree, writeTrap]
            rcases k.writeUserText pid addr (patched kind) with ⟨res, k'⟩
            cases res <;> rfl

/-- **`stepFinished` takes the step and finishes it.** -/
theorem stepFinished_eq_steps (s : GdbSessionInner) (k : Kernel) :
    s.stepFinished k =
      match s.step with
      | none => (.ok (), s, k)
      | some (stepTid, stepAddr) => finishTaken { s with step := none } k stepTid stepAddr := by
  rw [stepFinished]
  cases s.step <;> rfl

/-- **What the locked section of `set_sw_breakpoint` can do**: answer, or claim a free slot for an
    address that has none. -/
theorem claimSlot_cases (s : GdbSessionInner) (addr : U32) (kind : ArmBreakpointKind)
    (orig : List U8) :
    (∃ answer, s.claimSlot addr kind orig = (.error answer, s)) ∨
    ∃ i, s.swBreakpoints i = none ∧ ¬ s.HasSlot addr ∧
      s.claimSlot addr kind orig =
        (.ok i, s.withSlot i (some (SwBreakpoint.found addr orig kind))) := by
  cases hfind : SlotTable.findSlot (fun b => b.addr = addr) s.swBreakpoints with
  | some _ => exact .inl ⟨true, by simp only [claimSlot, hfind]⟩
  | none =>
    cases hfree : SlotTable.freeSlot s.swBreakpoints with
    | none => exact .inl ⟨false, by simp only [claimSlot, hfind, hfree]⟩
    | some i =>
      exact .inr ⟨i, SlotTable.freeSlot_some hfree, not_hasSlot_iff.mpr hfind,
        by simp only [claimSlot, hfind, hfree]⟩

/-- What was read is in the text of the session's process. -/
theorem readOrig_some {pid : SceUID} {orig : List U8}
    (h : s.readOrig k addr kind = some (pid, orig)) :
    s.pid = pid ∧ ByteMem.read (k.mem pid) addr (patchLen kind) = some orig := by
  rw [readOrig] at h
  cases hpid : s.getPid with
  | none => simp [hpid] at h
  | some p =>
    rw [hpid] at h
    dsimp only at h
    split at h
    · exact absurd h (by simp)
    · cases hread : ByteMem.read (k.mem p) addr (patchLen kind) with
      | none => simp [Kernel.ksceKernelCopyFromUserProc, hread] at h
      | some bytes =>
        simp only [Kernel.ksceKernelCopyFromUserProc, hread, Option.some.injEq, Prod.mk.injEq] at h
        obtain ⟨rfl, rfl⟩ := h
        exact ⟨(getPid_eq_some.mp hpid).2, hread⟩

/-- A removal and the release of a slot at another address do not meet. -/
theorem clearSwBreakpoint_comm {i : Fin 16}
    (hne : ∀ b, s.swBreakpoints i = some b → b.addr ≠ addr) (k : Kernel) :
    (s.withSlot i none).clearSwBreakpoint k addr =
      ((s.clearSwBreakpoint k addr).1, (s.clearSwBreakpoint k addr).2.1.withSlot i none,
        (s.clearSwBreakpoint k addr).2.2) := by
  have hfind :
      SlotTable.findSlot (fun b => decide (b.addr = addr)) (s.withSlot i none).swBreakpoints =
        SlotTable.findSlot (fun b => b.addr = addr) s.swBreakpoints :=
    SlotTable.findSlot_release fun b hb => decide_eq_false (hne b hb)
  have hpid : (s.withSlot i none).getPid = s.getPid := rfl
  rw [clearSwBreakpoint, clearSwBreakpoint, hpid, hfind]
  cases s.getPid with
  | none => rfl
  | some pid =>
    rcases hslot : SlotTable.findSlot (fun b => b.addr = addr) s.swBreakpoints with _ | ⟨j, b⟩
    · simp only [hslot]
    · have hj : j ≠ i := by
        rintro rfl
        obtain ⟨hb, haddr⟩ := SlotTable.findSlot_some hslot
        exact hne b hb (of_decide_eq_true haddr)
      have hcomm : Function.update (Function.update s.swBreakpoints i none) j none =
          Function.update (Function.update s.swBreakpoints j none) i none :=
        Function.update_comm hj.symm none none s.swBreakpoints
      simp only [hslot, restoreSwSlot]
      rcases k.writeUserText pid b.addr b.saved with ⟨res, k'⟩
      cases res <;> simp only [withSlot, hcomm]

end GdbSessionInner

open GdbSessionInner

/-! ## The race -/

/-- Where the worker is in a call of `set_sw_breakpoint`. -/
inductive WorkerStage where
  | idle
  /-- The original bytes are read, the lock is not taken. -/
  | read (pid : SceUID) (addr : U32) (kind : ArmBreakpointKind) (orig : List U8)
  /-- The slot is claimed, the trap is not written. -/
  | claimed (pid : SceUID) (addr : U32) (kind : ArmBreakpointKind) (slot : Fin 16)
  deriving DecidableEq

/-- Where a handler is in `handle_break`. -/
inductive HandlerStage where
  | idle
  /-- `is_step` has answered true. -/
  | atStep
  /-- `step_finished` has taken the step. -/
  | taken (stepTid : SceUID) (stepAddr : U32)
  deriving DecidableEq

/-- The address of the breakpoint the worker is planting. -/
def WorkerStage.addr : WorkerStage → Option U32
  | .idle => none
  | .read _ addr _ _ => some addr
  | .claimed _ addr _ _ => some addr

/-- The address of the step a handler is finishing. -/
def HandlerStage.addr : HandlerStage → Option U32
  | .idle => none
  | .atStep => none
  | .taken _ stepAddr => some stepAddr

/-- One session, the worker, and the handlers `H` that other cores run. -/
structure Race (H : Type) where
  session : GdbSessionInner
  kernel : Kernel
  worker : WorkerStage
  handler : H → HandlerStage

inductive RaceEvent (H : Type) where
  | readOrig (addr : U32) (kind : ArmBreakpointKind)
  | claimSlot
  | writeTrap
  /-- The worker's other calls on these tables. -/
  | clear (addr : U32)
  | clearAll
  | setStep (tid : SceUID) (addr : U32)
  | isStep (h : H) (faultAddr : U32)
  | takeStep (h : H)
  | finishStep (h : H)

variable {H : Type} [DecidableEq H]

/-- A handler moves on. -/
def Race.moveTo (x : Race H) (h : H) (stage : HandlerStage) : Race H :=
  { x with handler := Function.update x.handler h stage }

/-- One atomic step; the worker makes one call at a time. -/
def raceStep (x : Race H) : RaceEvent H → Option (Race H)
  | .readOrig addr kind =>
    match x.worker with
    | .idle =>
      match x.session.readOrig x.kernel addr kind with
      | none => some x
      | some (pid, orig) => some { x with worker := .read pid addr kind orig }
    | _ => none
  | .claimSlot =>
    match x.worker with
    | .read pid addr kind orig =>
      match x.session.claimSlot addr kind orig with
      | (.error _, s) => some { x with session := s, worker := .idle }
      | (.ok slot, s) => some { x with session := s, worker := .claimed pid addr kind slot }
    | _ => none
  | .writeTrap =>
    match x.worker with
    | .claimed pid addr kind slot =>
      let (_, s, k) := x.session.writeTrap x.kernel pid addr kind slot
      some { x with session := s, kernel := k, worker := .idle }
    | _ => none
  | .clear addr =>
    match x.worker with
    | .idle =>
      let (_, s, k) := x.session.clearSwBreakpoint x.kernel addr
      some { x with session := s, kernel := k }
    | _ => none
  | .clearAll =>
    match x.worker with
    | .idle =>
      let (s, k) := x.session.clearAll x.kernel
      some { x with session := s, kernel := k }
    | _ => none
  | .setStep tid addr =>
    match x.worker with
    | .idle => some { x with session := x.session.setStep tid addr }
    | _ => none
  | .isStep h faultAddr =>
    match x.handler h with
    | .idle => some (if x.session.isStep faultAddr then x.moveTo h .atStep else x)
    | _ => none
  | .takeStep h =>
    match x.handler h with
    | .atStep =>
      match x.session.step with
      | none => some (x.moveTo h .idle)
      | some (stepTid, stepAddr) =>
        some { x.moveTo h (.taken stepTid stepAddr) with
          session := { x.session with step := none } }
    | _ => none
  | .finishStep h =>
    match x.handler h with
    | .taken stepTid stepAddr =>
      match x.session.finishTaken x.kernel stepTid stepAddr with
      | (.ok _, s, k) => some { x.moveTo h .idle with session := s, kernel := k }
      | _ => none
    | _ => none

/-- Where the worker is for a step of its own. -/
def RaceEvent.Fits : RaceEvent H → WorkerStage → Prop
  | .claimSlot, worker => ∃ pid addr kind orig, worker = .read pid addr kind orig
  | .writeTrap, worker => ∃ pid addr kind slot, worker = .claimed pid addr kind slot
  | .isStep _ _, _ | .takeStep _, _ | .finishStep _, _ => True
  | _, worker => worker = .idle

theorem RaceEvent.fits_of_step {x y : Race H} {e : RaceEvent H} (hy : raceStep x e = some y) :
    e.Fits x.worker := by
  obtain ⟨s, k, worker, handler⟩ := x
  cases e with
  | isStep h faultAddr => trivial
  | takeStep h => trivial
  | finishStep h => trivial
  | _ =>
    cases worker with
    | idle => first | rfl | exact absurd hy (by simp [raceStep])
    | read pid addr kind orig =>
      first | exact ⟨pid, addr, kind, orig, rfl⟩ | exact absurd hy (by simp [raceStep])
    | claimed pid addr kind slot =>
      first | exact ⟨pid, addr, kind, slot, rfl⟩ | exact absurd hy (by simp [raceStep])

/-- Nobody is inside a call. -/
def Race.Quiescent (x : Race H) : Prop := x.worker = .idle ∧ ∀ h, x.handler h = .idle

instance [Fintype H] (x : Race H) : Decidable x.Quiescent :=
  inferInstanceAs (Decidable (x.worker = .idle ∧ ∀ h, x.handler h = .idle))

/-- The session and the kernel with nobody inside a call. -/
def raceStart (s : GdbSessionInner) (k : Kernel) : Race H where
  session := s
  kernel := k
  worker := .idle
  handler := fun _ => .idle

/-- The breakpoints a run sets. -/
def plantPoints (events : List (RaceEvent H)) : Set (U32 × ArmBreakpointKind) :=
  {p | .readOrig p.1 p.2 ∈ events}

/-- The ranges of two breakpoints are equal or disjoint. -/
def EqualOrDisjoint (p q : U32 × ArmBreakpointKind) : Prop :=
  ByteMem.range p.1 (patchLen p.2) = ByteMem.range q.1 (patchLen q.2) ∨
    Disjoint (ByteMem.range p.1 (patchLen p.2)) (ByteMem.range q.1 (patchLen q.2))

/-- **No release at the address of a half-planted breakpoint**: a handler that finishes a step at
    the address the worker is at finds no slot there. -/
def ReleasesApart (x : Race H) : RaceEvent H → Prop
  | .finishStep h => ∀ addr ∈ (x.handler h).addr, x.worker.addr = some addr →
      ¬ x.session.HasSlot addr
  | _ => True

instance (x : Race H) : (e : RaceEvent H) → Decidable (ReleasesApart x e)
  | .finishStep h => Option.decidableForallMem (x.handler h).addr
  | .readOrig .. | .claimSlot | .writeTrap | .clear .. | .clearAll | .setStep .. | .isStep ..
  | .takeStep .. => isTrue trivial

/-! ## What the text owes the table -/

/-- The text holds one of the traps at this address. -/
def HoldsTrap (m : UserMem) (addr : U32) : Prop :=
  ∃ kind, ByteMem.read m addr (patchLen kind) = some (patched kind)

/-- The text holds a trap exactly where a slot records one, unless the program has that trap of its
    own; the recorded bytes are the program's, and so is all other text. -/
structure PlantedExactly (pristine : UserMem) (s : GdbSessionInner) (k : Kernel) : Prop where
  trap_iff : ∀ addr, ¬ HoldsTrap pristine addr → (HoldsTrap (k.mem s.pid) addr ↔ s.HasSlot addr)
  trapped : ∀ i b, s.swBreakpoints i = some b →
    ByteMem.read (k.mem s.pid) b.addr b.patchLen = some b.trap
  saved : ∀ i b, s.swBreakpoints i = some b →
    ByteMem.read pristine b.addr b.patchLen = some b.saved
  untouched : ∀ a, (∀ i b, s.swBreakpoints i = some b → a ∉ b.area) → k.mem s.pid a = pristine a

/-- Every slot is one of the breakpoints `points`. -/
def SlotsAmong (points : Set (U32 × ArmBreakpointKind)) (s : GdbSessionInner) : Prop :=
  ∀ i b, s.swBreakpoints i = some b → ∃ kind, (b.addr, kind) ∈ points ∧ patchLen kind = b.patchLen

/-- The worker is planting at `addr`; `rest` is the session without the slot it has claimed.  The
    text holds what it has read, unless it will find the address already set. -/
structure Planting (points : Set (U32 × ArmBreakpointKind)) (pristine : UserMem)
    (rest : GdbSessionInner) (k : Kernel) (pid : SceUID) (addr : U32) (kind : ArmBreakpointKind)
    (orig : List U8) : Prop where
  patched : SwPatched pristine rest k
  owned : rest.pid = pid
  point : (addr, kind) ∈ points
  found : ¬ rest.HasSlot addr → ByteMem.read (k.mem pid) addr (patchLen kind) = some orig

/-- What the text and the table are, by where the worker is. -/
def WorkerOk (points : Set (U32 × ArmBreakpointKind)) (pristine : UserMem) (s : GdbSessionInner)
    (k : Kernel) : WorkerStage → Prop
  | .idle => SwPatched pristine s k
  | .read pid addr kind orig => Planting points pristine s k pid addr kind orig
  | .claimed pid addr kind slot => ∃ orig,
      s.swBreakpoints slot = some (SwBreakpoint.found addr orig kind) ∧
      ¬ (s.withSlot slot none).HasSlot addr ∧
      Planting points pristine (s.withSlot slot none) k pid addr kind orig

/-- What holds along a run that meets `ReleasesApart`. -/
structure RaceOk (points : Set (U32 × ArmBreakpointKind)) (pristine : UserMem) (x : Race H) :
    Prop where
  noFail : x.kernel.NoFail
  among : SlotsAmong points x.session
  worker : WorkerOk points pristine x.session x.kernel x.worker

variable {points : Set (U32 × ArmBreakpointKind)} {pristine : UserMem} {s : GdbSessionInner}
  {k : Kernel} {pid : SceUID} {addr : U32} {kind : ArmBreakpointKind} {orig : List U8}

/-- Two breakpoints at different addresses lie apart: equal ranges have equal addresses. -/
theorem EqualOrDisjoint.disjoint {p q : U32 × ArmBreakpointKind} (h : EqualOrDisjoint p q)
    (hne : p.1 ≠ q.1) :
    Disjoint (ByteMem.range p.1 (patchLen p.2)) (ByteMem.range q.1 (patchLen q.2)) := by
  refine h.resolve_left fun heq => hne ?_
  have hpos : ∀ kind, 0 < patchLen kind ∧ patchLen kind ≤ 4 := by
    intro kind
    rcases patchLen_eq_two_or_four kind with h2 | h4 <;> omega
  have hp : (p.1 - q.1).toNat < patchLen q.2 := by
    have hmem : p.1 ∈ ByteMem.range p.1 (patchLen p.2) := ByteMem.inRange_self p.1 (hpos p.2).1
    rwa [heq] at hmem
  have hq : (q.1 - p.1).toNat < patchLen p.2 := by
    have hmem : q.1 ∈ ByteMem.range q.1 (patchLen q.2) := ByteMem.inRange_self q.1 (hpos q.2).1
    rwa [← heq] at hmem
  have hp4 := (hpos p.2).2
  have hq4 := (hpos q.2).2
  -- each starts less than four bytes past the other
  bv_omega

/-- A breakpoint of a run lies apart from every slot at another address. -/
theorem SlotsAmong.disjoint (h : SlotsAmong points s) (hpoints : points.Pairwise EqualOrDisjoint)
    (hpoint : (addr, kind) ∈ points) {i : Fin 16} {b : SwBreakpoint}
    (hb : s.swBreakpoints i = some b) (hne : b.addr ≠ addr) :
    Disjoint (ByteMem.range addr (patchLen kind)) b.area := by
  obtain ⟨kind', hmem, hlen⟩ := h i b hb
  have hapart := hpoints hpoint hmem fun heq => hne (congrArg Prod.fst heq).symm
  rw [SwBreakpoint.area, ← hlen]
  exact hapart.disjoint (Ne.symm hne)

theorem SlotsAmong.release (h : SlotsAmong points s) (i : Fin 16) :
    SlotsAmong points (s.withSlot i none) :=
  fun j b hb => h j b (withSlot_none_some hb).2

theorem SlotsAmong.claim (h : SlotsAmong points s) (i : Fin 16) (hpoint : (addr, kind) ∈ points) :
    SlotsAmong points (s.withSlot i (some (SwBreakpoint.found addr orig kind))) := by
  intro j b hb
  rw [withSlot_swBreakpoints] at hb
  by_cases hj : j = i
  · rw [hj, Function.update_self, Option.some.injEq] at hb
    subst hb
    exact ⟨kind, hpoint, rfl⟩
  · rw [Function.update_of_ne hj] at hb
    exact h j b hb

theorem SlotsAmong.clear (h : SlotsAmong points s) (k : Kernel) (addr : U32) :
    SlotsAmong points (s.clearSwBreakpoint k addr).2.1 := by
  rcases clearSwBreakpoint_withSlot s k addr with heq | ⟨i, heq⟩ <;> rw [heq]
  · exact h
  · exact h.release i

/-- A removal lets no kernel call fail that did not. -/
theorem clearSwBreakpoint_noFail_iff (s : GdbSessionInner) (k : Kernel) (addr : U32) :
    (s.clearSwBreakpoint k addr).2.2.NoFail ↔ k.NoFail := by
  rw [Kernel.NoFail, Kernel.NoFail, (clearSwBreakpoint_keepsStatus s k addr).ret]

/-- **A removal elsewhere** leaves what the worker relies on. -/
theorem Planting.clear (h : Planting points pristine s k pid addr kind orig) (hk : k.NoFail)
    (hpoints : points.Pairwise EqualOrDisjoint) (hamong : SlotsAmong points s) {a : U32}
    (hapart : addr = a → ¬ s.HasSlot a) :
    Planting points pristine (s.clearSwBreakpoint k a).2.1 (s.clearSwBreakpoint k a).2.2 pid addr
      kind orig := by
  refine ⟨h.patched.clear hk a, ?_, h.point, fun hno => ?_⟩
  · rw [(clearSwBreakpoint_swOnly s k a).pid]
    exact h.owned
  · rcases clearSwBreakpoint_cases s k a with ⟨heq, -⟩ | ⟨p, i, b, hp, hb, rfl, heq⟩
    · rw [heq] at hno ⊢
      exact h.found hno
    · have hne : b.addr ≠ addr := fun he => hapart he.symm ⟨i, b, hb, rfl⟩
      obtain ⟨-, rfl⟩ := getPid_eq_some.mp hp
      -- no other slot than this one was released
      have hbefore : ¬ s.HasSlot addr := by
        rintro ⟨j, c, hc, hca⟩
        refine hno ⟨j, c, clearSwBreakpoint_keeps_slot hc ?_, hca⟩
        rw [hca]
        exact Ne.symm hne
      have hread := h.found hbefore
      rw [← h.owned] at hread ⊢
      rw [heq, Kernel.writeUserText_ok hk (h.patched.slotsMapped.read hb)]
      dsimp only
      rw [Kernel.wrote_mem, ← hread]
      have hle : patchLen kind ≤ 2 ^ 32 := by
        rcases patchLen_eq_two_or_four kind with h2 | h4 <;> omega
      refine ByteMem.read_congr hle fun c hc => ByteMem.write_of_not_inRange _ fun hin => ?_
      rw [b.saved_length] at hin
      exact Set.disjoint_left.mp (hamong.disjoint hpoints h.point hb hne) hc hin

/-- **The claim**: what was read is still there, and no slot was in its way. -/
theorem Planting.claim (h : Planting points pristine s k pid addr kind orig) {i : Fin 16}
    (hfree : s.swBreakpoints i = none) (hfresh : ¬ s.HasSlot addr) :
    WorkerOk points pristine (s.withSlot i (some (SwBreakpoint.found addr orig kind))) k
      (.claimed pid addr kind i) := by
  have hback : (s.withSlot i (some (SwBreakpoint.found addr orig kind))).withSlot i none = s := by
    show { s with swBreakpoints := _ } = s
    rw [withSlot_swBreakpoints, Function.update_idem, ← hfree, Function.update_eq_self]
  refine ⟨orig, Function.update_self i _ s.swBreakpoints, ?_, ?_⟩ <;> rw [hback]
  · exact hfresh
  · exact h

/-- **The trap** goes over the bytes the claimed slot has saved. -/
theorem WorkerOk.writeTrap {i : Fin 16}
    (h : WorkerOk points pristine s k (.claimed pid addr kind i)) (hk : k.NoFail)
    (hpoints : points.Pairwise EqualOrDisjoint) (hamong : SlotsAmong points s) :
    s.writeTrap k pid addr kind i = (true, s, k.wrote pid addr (patched kind)) ∧
      SwPatched pristine s (k.wrote pid addr (patched kind)) := by
  obtain ⟨orig, hslot, hfresh, hplanting⟩ := h
  have hread := hplanting.found hfresh
  have howned : s.pid = pid := hplanting.owned
  subst howned
  refine ⟨?_, ?_⟩
  · have hmapped : (ByteMem.read (k.mem s.pid) addr (patched kind).length).isSome := by
      rw [patched_length, hread]
      rfl
    rw [GdbSessionInner.writeTrap, Kernel.writeUserText_ok hk hmapped]
  · have hfree : (s.withSlot i none).swBreakpoints i = none := by
      rw [withSlot_swBreakpoints, Function.update_self]
    have hplanted := patched_plant (i := i) hplanting.patched hfree
      (fun j b hb => (hamong.release i).disjoint hpoints hplanting.point hb
        fun he => hfresh ⟨j, b, hb, he⟩) hread
    have hrefill : Function.update (Function.update s.swBreakpoints i none) i
        (some (SwBreakpoint.found addr orig kind)) = s.swBreakpoints := by
      rw [Function.update_idem, ← hslot, Function.update_eq_self]
    rw [withSlot_swBreakpoints, hrefill] at hplanted
    show UndoTable.Patched _ _ _ pristine ((k.wrote s.pid addr (patched kind)).mem s.pid) _
    rw [Kernel.wrote_mem]
    exact hplanted

/-- **A removal by a handler**, at an address the worker is not planting at. -/
theorem WorkerOk.clear {stage : WorkerStage} (h : WorkerOk points pristine s k stage)
    (hk : k.NoFail) (hpoints : points.Pairwise EqualOrDisjoint) (hamong : SlotsAmong points s)
    {a : U32} (hapart : stage.addr = some a → ¬ s.HasSlot a) :
    WorkerOk points pristine (s.clearSwBreakpoint k a).2.1 (s.clearSwBreakpoint k a).2.2 stage := by
  cases stage with
  | idle => exact SwPatched.clear h hk a
  | read pid addr kind orig =>
    exact Planting.clear h hk hpoints hamong fun ha => hapart (congrArg some ha)
  | claimed pid addr kind i =>
    obtain ⟨orig, hslot, hfresh, hplanting⟩ := h
    -- its own slot is at that address
    have hne : addr ≠ a := fun ha => hapart (congrArg some ha) ⟨i, _, hslot, ha⟩
    have hother : ∀ b, s.swBreakpoints i = some b → b.addr ≠ a := by
      intro b hb
      rw [hslot, Option.some.injEq] at hb
      rw [← hb]
      exact hne
    have hcomm := clearSwBreakpoint_comm hother k
    have hrest := hplanting.clear hk hpoints (hamong.release i) fun ha => absurd ha hne
    rw [hcomm] at hrest
    refine ⟨orig, clearSwBreakpoint_keeps_slot hslot hne, fun hhas => hfresh ?_, hrest⟩
    obtain ⟨j, b, hb, ha⟩ := hhas
    obtain ⟨hj, hb'⟩ := withSlot_none_some hb
    rcases clearSwBreakpoint_withSlot s k a with heq | ⟨i', heq⟩ <;> rw [heq] at hb'
    · exact ⟨j, b, by rw [withSlot_swBreakpoints, Function.update_of_ne hj, hb'], ha⟩
    · refine ⟨j, b, ?_, ha⟩
      rw [withSlot_swBreakpoints, Function.update_of_ne hj, (withSlot_none_some hb').2]

/-! ## Runs -/

/-- The breakpoint an event sets is one of `points`. -/
def PlantsAmong (points : Set (U32 × ArmBreakpointKind)) : RaceEvent H → Prop
  | .readOrig addr kind => (addr, kind) ∈ points
  | _ => True

theorem SlotsAmong.congr {s' : GdbSessionInner} (h : SlotsAmong points s)
    (hsw : s'.swBreakpoints = s.swBreakpoints) : SlotsAmong points s' := by
  rw [SlotsAmong, hsw]
  exact h

theorem Planting.congr {s' : GdbSessionInner} {k' : Kernel}
    (h : Planting points pristine s k pid addr kind orig) (hpid : s'.pid = s.pid)
    (hsw : s'.swBreakpoints = s.swBreakpoints) (hmem : k'.mem = k.mem) :
    Planting points pristine s' k' pid addr kind orig := by
  refine ⟨h.patched.congr hpid hsw hmem, hpid.trans h.owned, h.point, ?_⟩
  rw [HasSlot, hsw, hmem]
  exact h.found

theorem WorkerOk.congr {s' : GdbSessionInner} {k' : Kernel} {stage : WorkerStage}
    (h : WorkerOk points pristine s k stage) (hpid : s'.pid = s.pid)
    (hsw : s'.swBreakpoints = s.swBreakpoints) (hmem : k'.mem = k.mem) :
    WorkerOk points pristine s' k' stage := by
  cases stage with
  | idle => exact SwPatched.congr h hpid hsw hmem
  | read pid addr kind orig => exact Planting.congr h hpid hsw hmem
  | claimed pid addr kind i =>
    obtain ⟨orig, hslot, hfresh, hplanting⟩ := h
    have hrest : (s'.withSlot i none).swBreakpoints = (s.withSlot i none).swBreakpoints := by
      rw [withSlot_swBreakpoints, withSlot_swBreakpoints, hsw]
    refine ⟨orig, ?_, ?_, hplanting.congr hpid hrest hmem⟩
    · rw [hsw]
      exact hslot
    · rw [HasSlot, hrest]
      exact hfresh

omit [DecidableEq H] in
/-- A session that shows the same process and table, and a kernel the same text. -/
theorem RaceOk.congr {x y : Race H} (h : RaceOk points pristine x)
    (hpid : y.session.pid = x.session.pid)
    (hsw : y.session.swBreakpoints = x.session.swBreakpoints)
    (hkeeps : x.kernel.Keeps y.kernel) (hworker : y.worker = x.worker) :
    RaceOk points pristine y := by
  refine ⟨hkeeps.noFail.mpr h.noFail, h.among.congr hsw, ?_⟩
  rw [hworker]
  exact h.worker.congr hpid hsw hkeeps.mem

omit [DecidableEq H] in
/-- The session and the kernel after a removal. -/
theorem RaceOk.clear {x : Race H} (h : RaceOk points pristine x)
    (hpoints : points.Pairwise EqualOrDisjoint) {a : U32}
    (hapart : x.worker.addr = some a → ¬ x.session.HasSlot a) :
    RaceOk points pristine
      { x with
        session := (x.session.clearSwBreakpoint x.kernel a).2.1
        kernel := (x.session.clearSwBreakpoint x.kernel a).2.2 } where
  noFail := (clearSwBreakpoint_noFail_iff x.session x.kernel a).mpr h.noFail
  among := h.among.clear x.kernel a
  worker := h.worker.clear h.noFail hpoints h.among hapart

/-- Finishing a taken step leaves the process, the table and the text that the removal leaves. -/
theorem finishTaken_frame (s : GdbSessionInner) (k : Kernel) (tid : SceUID) (addr : U32) :
    (s.finishTaken k tid addr).2.1.pid = (s.clearSwBreakpoint k addr).2.1.pid ∧
      (s.finishTaken k tid addr).2.1.swBreakpoints =
        (s.clearSwBreakpoint k addr).2.1.swBreakpoints ∧
      (s.clearSwBreakpoint k addr).2.2.Keeps (s.finishTaken k tid addr).2.2 := by
  rw [finishTaken]
  dsimp only
  split
  · exact ⟨rfl, rfl, Kernel.Keeps.refl _⟩
  · next evflag _ => exact ⟨rfl, rfl, evflag.set_keeps _ evWakeWorker⟩

/-- **One step.** -/
theorem RaceOk.step {x y : Race H} {e : RaceEvent H} (h : RaceOk points pristine x)
    (hpoints : points.Pairwise EqualOrDisjoint) (hcond : ReleasesApart x e)
    (hplants : PlantsAmong points e) (hy : raceStep x e = some y) : RaceOk points pristine y := by
  have hfits := RaceEvent.fits_of_step hy
  obtain ⟨s, k, worker, handler⟩ := x
  cases e with
  | readOrig addr kind =>
    obtain rfl : worker = .idle := hfits
    simp only [raceStep] at hy
    cases hread : s.readOrig k addr kind with
    | none =>
      rw [hread, Option.some.injEq] at hy
      exact hy ▸ h
    | some read =>
      obtain ⟨pid, orig⟩ := read
      rw [hread, Option.some.injEq] at hy
      subst hy
      obtain ⟨hpid, horig⟩ := readOrig_some hread
      exact ⟨h.noFail, h.among, h.worker, hpid, hplants, fun _ => horig⟩
  | claimSlot =>
    obtain ⟨pid, addr, kind, orig, hworker⟩ := hfits
    obtain rfl : worker = .read pid addr kind orig := hworker
    simp only [raceStep] at hy
    have hplanting : Planting points pristine s k pid addr kind orig := h.worker
    rcases claimSlot_cases s addr kind orig with ⟨answer, heq⟩ | ⟨i, hfree, hfresh, heq⟩
    · rw [heq, Option.some.injEq] at hy
      subst hy
      exact ⟨h.noFail, h.among, hplanting.patched⟩
    · rw [heq, Option.some.injEq] at hy
      subst hy
      exact ⟨h.noFail, h.among.claim i hplanting.point, hplanting.claim hfree hfresh⟩
  | writeTrap =>
    obtain ⟨pid, addr, kind, i, hworker⟩ := hfits
    obtain rfl : worker = .claimed pid addr kind i := hworker
    obtain ⟨heq, hpatched⟩ := h.worker.writeTrap h.noFail hpoints h.among
    simp only [raceStep] at hy
    dsimp only at heq
    rw [heq, Option.some.injEq] at hy
    subst hy
    exact ⟨h.noFail, h.among, hpatched⟩
  | clear addr =>
    obtain rfl : worker = .idle := hfits
    rw [raceStep, Option.some.injEq] at hy
    subst hy
    exact h.clear hpoints fun ha => absurd ha (by simp [WorkerStage.addr])
  | clearAll =>
    obtain rfl : worker = .idle := hfits
    rw [raceStep, Option.some.injEq] at hy
    subst hy
    have hpatched : SwPatched pristine s k := h.worker
    obtain ⟨hp, hk⟩ := hpatched.clearAll h.noFail
    refine ⟨hk, fun i b hb => ?_, hp⟩
    dsimp only at hb
    rw [clearAll_swBreakpoints] at hb
    exact absurd hb (by simp)
  | setStep tid addr =>
    obtain rfl : worker = .idle := hfits
    rw [raceStep, Option.some.injEq] at hy
    subst hy
    exact h.congr rfl rfl (.refl k) rfl
  | isStep c faultAddr =>
    simp only [raceStep] at hy
    cases hstage : handler c with
    | idle =>
      rw [hstage, Option.some.injEq] at hy
      subst hy
      split
      · exact h.congr rfl rfl (.refl k) rfl
      · exact h
    | atStep => simp [hstage] at hy
    | taken _ _ => simp [hstage] at hy
  | takeStep c =>
    simp only [raceStep] at hy
    cases hstage : handler c with
    | atStep =>
      rw [hstage] at hy
      cases hstep : s.step with
      | none =>
        simp only [hstep, Option.some.injEq] at hy
        subst hy
        exact h.congr rfl rfl (.refl k) rfl
      | some step =>
        simp only [hstep, Option.some.injEq] at hy
        subst hy
        exact h.congr rfl rfl (.refl k) rfl
    | idle => simp [hstage] at hy
    | taken _ _ => simp [hstage] at hy
  | finishStep c =>
    simp only [raceStep] at hy
    cases hstage : handler c with
    | taken tid addr =>
      simp only [hstage] at hy
      have hapart : worker.addr = some addr → ¬ s.HasSlot addr :=
        hcond addr (congrArg HandlerStage.addr hstage)
      have hcleared := h.clear hpoints hapart
      obtain ⟨hpid, hsw, hkeeps⟩ := finishTaken_frame s k tid addr
      rcases hfinish : s.finishTaken k tid addr with ⟨res, s', k'⟩
      rw [hfinish] at hy hpid hsw hkeeps
      cases res with
      | ok _ =>
        simp only [Option.some.injEq] at hy
        subst hy
        exact hcleared.congr hpid hsw hkeeps rfl
      | err _ => simp at hy
      | panic => simp at hy
    | idle => simp [hstage] at hy
    | atStep => simp [hstage] at hy

/-! ## The traps of the text -/

/-- The two traps overlap neither themselves nor each other: where a byte of one is a byte of the
    other at another offset, the next two bytes differ. -/
theorem patched_overlap (kind kind' : ArmBreakpointKind) {i j : Nat} (hi : i < patchLen kind)
    (hj : j < patchLen kind') (hne : i ≠ j) (heq : (patched kind)[i]? = (patched kind')[j]?) :
    i + 1 < patchLen kind ∧ j + 1 < patchLen kind' ∧
      (patched kind)[i + 1]? ≠ (patched kind')[j + 1]? := by
  have hall : ∀ i < patchLen kind, ∀ j < patchLen kind',
      i ≠ j ∧ (patched kind)[i]? = (patched kind')[j]? →
        i + 1 < patchLen kind ∧ j + 1 < patchLen kind' ∧
          (patched kind)[i + 1]? ≠ (patched kind')[j + 1]? := by
    cases kind <;> cases kind' <;> decide
  exact hall i hi j hj ⟨hne, heq⟩

/-- The trap of a slot is that of one of the kinds. -/
theorem trap_eq_patched (b : SwBreakpoint) :
    ∃ kind, b.trap = patched kind ∧ b.patchLen = patchLen kind := by
  rcases b.patchLen_eq with h | h
  · exact ⟨.thumb16, by rw [SwBreakpoint.trap, if_pos h], h⟩
  · exact ⟨.arm32, by rw [SwBreakpoint.trap, if_neg (by omega)], h⟩

/-- The next cell of a range, by its offset. -/
theorem toNat_succ_sub {a addr : U32} {n : Nat} (h : (a - addr).toNat + 1 < n) (hn : n ≤ 4) :
    (a + 1#32 - addr).toNat = (a - addr).toNat + 1 := by
  bv_omega

/-- A planted trap is in the text. -/
theorem SwPatched.read_trap (h : SwPatched pristine s k) {i : Fin 16} {b : SwBreakpoint}
    (hb : s.swBreakpoints i = some b) :
    ByteMem.read (k.mem s.pid) b.addr b.patchLen = some b.trap := by
  rw [← b.trap_length]
  refine ByteMem.read_of_cells (by rw [b.trap_length]; exact b.patchLen_le) fun a ha => ?_
  rw [b.trap_length] at ha
  exact h.shown i b a hb ha

/-- A trap in the text that is no slot's lies apart from every slot. -/
theorem SwPatched.trap_apart (h : SwPatched pristine s k)
    (hread : ByteMem.read (k.mem s.pid) addr (patchLen kind) = some (patched kind))
    (hno : ¬ s.HasSlot addr) {i : Fin 16} {b : SwBreakpoint} (hb : s.swBreakpoints i = some b)
    {a : U32} (ha : ByteMem.InRange addr (patchLen kind) a) : a ∉ b.area := by
  intro hba
  obtain ⟨kind', htrap, hlen⟩ := trap_eq_patched b
  have hfour : ∀ kind, patchLen kind ≤ 4 := by
    intro kind
    rcases patchLen_eq_two_or_four kind with h2 | h4 <;> omega
  have hlt : (a - addr).toNat < patchLen kind := ha
  have hlt' : (a - b.addr).toNat < patchLen kind' := by
    rw [← hlen]
    exact hba
  -- each cell of both ranges is a byte of both traps
  have hcell : ∀ c, ByteMem.InRange addr (patchLen kind) c → c ∈ b.area →
      (patched kind)[(c - addr).toNat]? = (patched kind')[(c - b.addr).toNat]? := by
    intro c hc hcb
    rw [← htrap, ← ByteMem.read_inRange hread hc]
    exact h.shown i b c hb hcb
  have hoff : (a - addr).toNat ≠ (a - b.addr).toNat := by
    intro heq
    have haddr : b.addr = addr := by bv_omega
    exact hno ⟨i, b, hb, haddr⟩
  obtain ⟨hnext, hnext', hdiff⟩ := patched_overlap kind kind' hlt hlt' hoff (hcell a ha hba)
  have hsucc := toNat_succ_sub hnext (hfour kind)
  have hsucc' := toNat_succ_sub hnext' (hfour kind')
  refine hdiff ?_
  rw [← hsucc, ← hsucc']
  refine hcell (a + 1#32) ?_ ?_
  · show (a + 1#32 - addr).toNat < patchLen kind
    rw [hsucc]
    exact hnext
  · show (a + 1#32 - b.addr).toNat < b.patchLen
    rw [hsucc', hlen]
    exact hnext'

/-- **The disciplined text holds the traps of the slots** and no other it did not hold before. -/
theorem SwPatched.plantedExactly (h : SwPatched pristine s k) : PlantedExactly pristine s k where
  trap_iff := by
    intro addr hpristine
    constructor
    · rintro ⟨kind, hread⟩
      by_contra hno
      refine hpristine ⟨kind, ?_⟩
      rw [← hread]
      have hle : patchLen kind ≤ 2 ^ 32 := by
        rcases patchLen_eq_two_or_four kind with h2 | h4 <;> omega
      exact ByteMem.read_congr hle fun a ha =>
        (h.untouched a fun i b hb => h.trap_apart hread hno hb ha).symm
    · rintro ⟨i, b, hb, rfl⟩
      obtain ⟨kind, htrap, hlen⟩ := trap_eq_patched b
      refine ⟨kind, ?_⟩
      rw [← hlen, ← htrap]
      exact h.read_trap hb
  trapped := fun _ _ hb => h.read_trap hb
  saved := h.undoes.saved
  untouched := h.untouched

/-! ## The property and its failure -/

/-- **Planting and step completion interleave safely**, where no handler releases the slot of the
    address the worker is at: along every run of the worker and any number of handlers whose
    breakpoint ranges are pairwise equal or disjoint, wherever nobody is inside a call, the text
    holds the traps of the slots and the slots hold the pristine bytes. -/
theorem planting_interleaves (H : Type) [DecidableEq H] (s : GdbSessionInner) (k : Kernel)
    (events : List (RaceEvent H)) (hfresh : s.swBreakpoints = SlotTable.empty) (hk : k.NoFail)
    (hranges : (plantPoints events).Pairwise EqualOrDisjoint)
    (hapart : LTS.Along raceStep ReleasesApart (raceStart s k) events) (x : Race H)
    (hrun : LTS.exec raceStep (raceStart s k) events = some x) (hquiet : x.Quiescent) :
    PlantedExactly (k.mem s.pid) x.session x.kernel := by
  have hstart : RaceOk (plantPoints events) (k.mem s.pid) (raceStart s k : Race H) := by
    refine ⟨hk, fun i b hb => ?_, ?_⟩
    · have hnone : s.swBreakpoints i = some b := hb
      rw [hfresh] at hnone
      exact absurd hnone (by simp)
    · show SwPatched (k.mem s.pid) s k
      rw [SwPatched, hfresh]
      exact UndoTable.Patched.start (k.mem s.pid)
  have hplants : LTS.Along raceStep (fun _ e => PlantsAmong (plantPoints events) e)
      (raceStart s k) events := by
    refine LTS.Along.of_mem events fun e he _ => ?_
    cases e with
    | readOrig addr kind => exact he
    | _ => trivial
  have hok := LTS.exec_invariant (I := RaceOk (plantPoints events) (k.mem s.pid))
    (fun _ _ _ hx hc hy => RaceOk.step hx hranges hc.1 hc.2 hy) events hstart
    (LTS.Along.and events hapart hplants) hrun
  have hworker := hok.worker
  rw [hquiet.1] at hworker
  exact SwPatched.plantedExactly hworker

/-- A session of process 7 with an event flag. -/
def racingSession : GdbSessionInner := { freshSession with evflag := some ⟨3#32⟩ }

/-- The breakpoint after that of a step is planted while a handler finishes the step. -/
def plantNext : List (RaceEvent Unit) :=
  [.readOrig 0x1000#32 .arm32, .claimSlot, .writeTrap, .setStep 9#32 0x1000#32,
    .isStep () 0x1000#32, .readOrig 0x1004#32 .thumb16, .takeStep (), .claimSlot, .finishStep (),
    .writeTrap]

theorem planting_interleaves_next :
    ∃ x, LTS.exec raceStep (raceStart racingSession (Kernel.quiet countingText)) plantNext =
        some x ∧
      PlantedExactly (countingText 7#32) x.session x.kernel := by
  have hgoes : (LTS.exec raceStep (raceStart racingSession (Kernel.quiet countingText))
      plantNext).isSome := by decide +kernel
  have hquiet : ∀ x ∈ LTS.exec raceStep (raceStart racingSession (Kernel.quiet countingText))
      plantNext, x.Quiescent := by decide +kernel
  obtain ⟨x, hx⟩ := Option.isSome_iff_exists.mp hgoes
  refine ⟨x, hx, planting_interleaves Unit racingSession (Kernel.quiet countingText) plantNext rfl
    (Kernel.quiet_noFail _) ?_ (by decide +kernel) x hx (hquiet x hx)⟩
  rintro ⟨a, kind⟩ hp ⟨a', kind'⟩ hq hne
  simp only [plantPoints, plantNext, Set.mem_ofPred_eq, List.mem_cons, RaceEvent.readOrig.injEq,
    reduceCtorEq, List.not_mem_nil, or_false, false_or] at hp hq
  rcases hp with ⟨rfl, rfl⟩ | ⟨rfl, rfl⟩ <;> rcases hq with ⟨rfl, rfl⟩ | ⟨rfl, rfl⟩
  · exact absurd rfl hne
  · exact .inr (ByteMem.range_disjoint (by decide) (by decide))
  · exact .inr (ByteMem.range_disjoint (by decide) (by decide))
  · exact absurd rfl hne

/-- A breakpoint is planted at the address of a step while a handler finishes the step: its bytes
    are read before the handler takes the trap away. -/
def plantAtStep : List (RaceEvent Unit) :=
  [.readOrig 0x1000#32 .arm32, .claimSlot, .writeTrap, .setStep 9#32 0x1000#32,
    .isStep () 0x1000#32, .readOrig 0x1000#32 .arm32, .takeStep (), .finishStep (), .claimSlot,
    .writeTrap]

/-- **The bytes read before the lock can be a trap**: planting and step completion at one address
    leave a slot that has saved the trap, with nobody inside a call. -/
theorem planting_not_interleaves :
    ¬ ∀ (H : Type) [DecidableEq H] (s : GdbSessionInner) (k : Kernel)
      (events : List (RaceEvent H)) (x : Race H), s.swBreakpoints = SlotTable.empty → k.NoFail →
      (plantPoints events).Pairwise EqualOrDisjoint →
      LTS.exec raceStep (raceStart s k) events = some x → x.Quiescent →
      PlantedExactly (k.mem s.pid) x.session x.kernel := by
  intro hclaim
  have hgoes : (LTS.exec raceStep (raceStart racingSession (Kernel.quiet countingText))
      plantAtStep).isSome := by decide +kernel
  have hquiet : ∀ x ∈ LTS.exec raceStep (raceStart racingSession (Kernel.quiet countingText))
      plantAtStep, x.Quiescent := by decide +kernel
  have hsaved : ∀ x ∈ LTS.exec raceStep (raceStart racingSession (Kernel.quiet countingText))
      plantAtStep, ¬ ∀ b ∈ x.session.swBreakpoints 0,
        ByteMem.read (countingText 7#32) b.addr b.patchLen = some b.saved := by decide +kernel
  obtain ⟨x, hx⟩ := Option.isSome_iff_exists.mp hgoes
  refine hsaved x hx fun b hb => ?_
  have hranges : (plantPoints plantAtStep).Pairwise EqualOrDisjoint := by
    rintro ⟨a, kind⟩ hp ⟨a', kind'⟩ hq hne
    simp only [plantPoints, plantAtStep, Set.mem_ofPred_eq, List.mem_cons,
      RaceEvent.readOrig.injEq, reduceCtorEq, List.not_mem_nil, or_false, false_or, or_self]
      at hp hq
    obtain ⟨rfl, rfl⟩ := hp
    obtain ⟨rfl, rfl⟩ := hq
    exact absurd rfl hne
  exact (hclaim Unit racingSession (Kernel.quiet countingText) plantAtStep x rfl
    (Kernel.quiet_noFail _) hranges hx (hquiet x hx)).saved 0 b hb

end VitaGdb
