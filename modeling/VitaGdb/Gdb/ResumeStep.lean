/-
  The step of a `resume`, from its registers to its trap.

  Only the thread that is to step does more in the loop than take its suspend status, and none
  does once the step is planted: `resumeThreads_step` cuts a `resume` that reaches the loop into the
  turns before that thread, the planting, and the end.  Which calls have failed by then, and how
  many were made, can be told from the start: `StepSite` is a `resume` that comes to plant.

    * `resume_armed_iff`     — a step that is started has its trap, unless the trap is refused: what
                               `set_sw_breakpoint` answers is not looked at.
    * `resume_no_panic_iff`  — a `resume` panics on a full thread list, on a step of thread 0, and
                               on a program counter that cannot be read.
-/
import VitaGdb.Gdb.CpuState
import VitaGdb.Gdb.SwFailures
import VitaGdb.Gdb.System

namespace VitaGdb

open GdbSessionInner
open ArmNextPc (InstDecoder NextPcError nextPc)

/-! ## The kernel some calls later -/

/-- `n` calls later, with the program and what is known about it as before. -/
structure Kernel.Later (k k' : Kernel) (n : Nat) : Prop where
  ret : k'.ret = k.ret
  calls : k'.calls = k.calls + n
  mem : k'.mem = k.mem
  cpuRegs : k'.cpuRegs = k.cpuRegs
  status : k'.status = k.status

namespace Kernel

variable {k : Kernel} {pid : SceUID}

theorem getProcessStatus_fails (h : k.fails 0 = true) :
    ∀ pid, ∃ err, k.getProcessStatus pid = (.error err, k.atCall 1) := by
  intro pid
  rw [getProcessStatus, sceCall_fails h]
  exact ⟨_, rfl⟩

theorem getProcessStatus_goes (h : k.fails 0 = false) :
    k.getProcessStatus pid = (.ok (k.status pid), k.atCall 1) := by
  rw [getProcessStatus, sceCall_goes h]
  rfl

theorem getThreadIds_fails (h : k.fails 0 = true) :
    ∀ pid, ∃ err, k.getThreadIds pid = (.err err, k.atCall 1) := by
  intro pid
  rw [getThreadIds, sceCall_fails h]
  exact ⟨_, rfl⟩

/-- A list that does not fill the buffer is returned whole. -/
theorem getThreadIds_goes (h : k.fails 0 = false) :
    k.getThreadIds pid =
      (if (k.threadIds pid).length < 64 then .ok (k.threadIds pid) else .panic, k.atCall 1) := by
  rw [getThreadIds, sceCall_goes h]
  show (if ((k.threadIds pid).take 64).length < 64 then _ else _) = _
  by_cases hlen : (k.threadIds pid).length < 64
  · rw [List.take_of_length_le (Nat.le_of_lt hlen), if_pos hlen, if_pos hlen]
    show (Outcome.ok ((k.threadIds pid).take 64), _) = _
    rw [List.take_of_length_le (Nat.le_of_lt hlen)]
    rfl
  · rw [if_neg hlen, if_neg (by rw [List.length_take]; omega)]
    rfl

end Kernel

namespace Kernel.Later

variable {k k₁ k₂ : Kernel} {n m : Nat}

theorem refl (k : Kernel) : k.Later k 0 := ⟨rfl, rfl, rfl, rfl, rfl⟩

theorem atCall (k : Kernel) (n : Nat) : k.Later (k.atCall n) n := ⟨rfl, rfl, rfl, rfl, rfl⟩

theorem trans (h : k.Later k₁ n) (h' : k₁.Later k₂ m) : k.Later k₂ (n + m) where
  ret := h'.ret.trans h.ret
  calls := by rw [h'.calls, h.calls, Nat.add_assoc]
  mem := h'.mem.trans h.mem
  cpuRegs := h'.cpuRegs.trans h.cpuRegs
  status := h'.status.trans h.status

theorem fails (h : k.Later k₁ n) (m : Nat) : k₁.fails m = k.fails (n + m) := by
  rw [Kernel.fails, Kernel.fails, h.ret, h.calls, Nat.add_assoc]

theorem suspended (h : k.Later k₁ n) (pid : SceUID) : k₁.suspended pid = k.suspended pid :=
  Kernel.suspended_congr h.status pid

end Kernel.Later

/-- The turns of threads that do not step: each is given its suspend status. -/
def VitaTarget.runTurns (t : VitaTarget) (tids : List SceUID) (k : Kernel) : Kernel :=
  tids.foldl (fun k tid =>
    (k.ksceKernelChangeThreadSuspendStatus tid (t.threadStatus tid false)).2) k

theorem later_changeStatus (k : Kernel) (tid : SceUID) (status : U32) :
    k.Later (k.ksceKernelChangeThreadSuspendStatus tid status).2 1 where
  ret := Kernel.sceCall_proj Kernel.ret (fun _ _ => rfl) fun _ => rfl
  calls := Kernel.sceCall_calls fun _ => rfl
  mem := Kernel.sceCall_proj Kernel.mem (fun _ _ => rfl) fun _ => rfl
  cpuRegs := Kernel.sceCall_proj Kernel.cpuRegs (fun _ _ => rfl) fun _ => rfl
  status := Kernel.sceCall_proj Kernel.status (fun _ _ => rfl) fun _ => rfl

theorem later_runTurns (t : VitaTarget) (tids : List SceUID) :
    ∀ k : Kernel, k.Later (t.runTurns tids k) tids.length := by
  induction tids with
  | nil => exact fun k => .refl k
  | cons tid tids ih =>
    intro k
    have hturn := (later_changeStatus k tid (t.threadStatus tid false)).trans (ih _)
    rw [List.length_cons, Nat.add_comm]
    exact hturn

/-! ## Registers of the thread that steps -/

/-- Both reads of a thread's registers, the `n`-th call and the next, go through; a thread without
    VFP registers is no error. -/
def Kernel.registersRead (k : Kernel) (n : Nat) : Bool :=
  !k.fails n && (!k.fails (n + 1) || k.ret (k.calls + (n + 1)) == 0x80020008#32)

theorem readRegisters_cases (k : Kernel) (tid : SceUID) :
    (k.registersRead 0 = true ∧ ∃ regs, readRegisters k tid = (some regs, k.atCall 2)) ∨
      (k.registersRead 0 = false ∧ ∃ k', readRegisters k tid = (none, k')) := by
  have hgoes := readRegisters_goes k tid
  generalize readRegisters k tid = answer at hgoes
  cases hgoes with
  | noCore hcore =>
    refine .inr ⟨?_, _, rfl⟩
    simp [Kernel.registersRead, Kernel.fails, hcore]
  | whole hcore hvfp =>
    refine .inl ⟨?_, _, rfl⟩
    simp [Kernel.registersRead, Kernel.fails, hcore, hvfp]
  | noVfp hcore hvfp hcode =>
    refine .inl ⟨?_, _, rfl⟩
    simp [Kernel.registersRead, Kernel.fails, hcore, hcode]
  | failed hcore hvfp hcode =>
    refine .inr ⟨?_, _, rfl⟩
    simp [Kernel.registersRead, Kernel.fails, hvfp, hcode]

theorem Kernel.Later.registersRead {k k₁ : Kernel} {n : Nat} (h : k.Later k₁ n) (m : Nat) :
    k₁.registersRead m = k.registersRead (n + m) := by
  rw [Kernel.registersRead, Kernel.registersRead, h.fails, h.fails, h.ret, h.calls]
  simp only [Nat.add_assoc]

/-- The bytes at the program counter of a thread can be read. -/
def PcReadable (k : Kernel) (pid tid : SceUID) : Prop :=
  (ByteMem.read (k.mem pid) (userEntry (k.cpuRegs tid)).pc 4).isSome

instance (k : Kernel) (pid tid : SceUID) : Decidable (PcReadable k pid tid) :=
  inferInstanceAs (Decidable (_ = true))

/-- **Every exit of the planting**, up to the call that plants. -/
theorem plantStep_exits (decoder : InstDecoder) (s : GdbSessionInner) (k : Kernel)
    (pid tid : SceUID) :
    (tid = 0#32 ∧ (plantStep decoder s k pid tid).1 = .panic) ∨
    (tid ≠ 0#32 ∧ k.registersRead 0 = false ∧
      ∃ err, (plantStep decoder s k pid tid).1 = .err err) ∨
    (tid ≠ 0#32 ∧ k.registersRead 0 = true ∧ ¬ PcReadable k pid tid ∧
      (plantStep decoder s k pid tid).1 = .panic) ∨
    (tid ≠ 0#32 ∧ k.registersRead 0 = true ∧ PcReadable k pid tid ∧
      match predict decoder (userEntry (k.cpuRegs tid)) (k.mem pid) with
      | .ok (addr, thumb) => plantStep decoder s k pid tid =
          (.ok (), (s.setSwBreakpoint (k.atCall 2) addr (stepKind thumb)).2.1.setStep tid addr,
            (s.setSwBreakpoint (k.atCall 2) addr (stepKind thumb)).2.2)
      | .err _ => ∃ err, (plantStep decoder s k pid tid).1 = .err err
      | .panic => (plantStep decoder s k pid tid).1 = .panic) := by
  by_cases htid : tid = 0#32
  · exact .inl ⟨htid, by rw [plantStep, if_pos htid]⟩
  refine .inr ?_
  rcases readRegisters_cases k tid with ⟨hread, regs, hregs⟩ | ⟨hread, k', hregs⟩
  · refine .inr ?_
    have huser := readRegisters_some hregs
    rw [plantStep, if_neg htid, hregs]
    dsimp only
    rw [Kernel.ksceKernelCopyFromUserProc, huser, Kernel.atCall_mem, PcReadable]
    cases hbytes : ByteMem.read (k.mem pid) (userEntry (k.cpuRegs tid)).pc 4 with
    | none => exact .inl ⟨htid, hread, by simp, rfl⟩
    | some bytes =>
      refine .inr ⟨htid, hread, rfl, ?_⟩
      rcases predict decoder (userEntry (k.cpuRegs tid)) (k.mem pid) with ⟨addr, thumb⟩ | e | _
      · rfl
      · exact ⟨_, rfl⟩
      · rfl
  · refine .inl ⟨htid, hread, ⟨-1, "read_registers"⟩, ?_⟩
    rw [plantStep, if_neg htid, hregs]

/-! ## The loop -/

namespace VitaTarget

variable {decoder : InstDecoder} {t : VitaTarget} {s : GdbSessionInner} {k : Kernel}
  {pid tid : SceUID}

/-- The turns before the thread that steps. -/
theorem resumeThreads_append (tids : List SceUID) :
    ∀ (pre : List SceUID) (k : Kernel), (∀ tid ∈ pre, t.stepAction ≠ some tid) →
      resumeThreads decoder pid (pre ++ tids) t s k =
        resumeThreads decoder pid tids t s (t.runTurns pre k) := by
  intro pre
  induction pre with
  | nil => exact fun _ _ => rfl
  | cons tid pre ih =>
    intro k h
    have hturn : t.resumeThread decoder s k pid tid =
        (.ok (), t, s,
          (k.ksceKernelChangeThreadSuspendStatus tid (t.threadStatus tid false)).2) := by
      rw [resumeThread, if_neg (h tid List.mem_cons_self)]
    rw [List.cons_append, resumeThreads, hturn]
    exact ih _ fun tid' htid' => h tid' (List.mem_cons_of_mem tid htid')

/-- A loop in which no thread steps. -/
theorem resumeThreads_quiet {tids : List SceUID} (h : ∀ tid ∈ tids, t.stepAction ≠ some tid)
    (k : Kernel) :
    resumeThreads decoder pid tids t s k =
      ((resumeRun (t.runTurns tids k) pid).1, t, s, (resumeRun (t.runTurns tids k) pid).2) := by
  have hall : resumeThreads decoder pid (tids ++ []) t s k =
      resumeThreads decoder pid [] t s (t.runTurns tids k) := resumeThreads_append [] tids k h
  rw [List.append_nil] at hall
  rw [hall, resumeThreads]

/-- The end of the loop, from the kernel the planting leaves. -/
def afterStep (t : VitaTarget) (tid : SceUID) (post : List SceUID) (k : Kernel) : Kernel :=
  { t with stepAction := none }.runTurns post
    (k.ksceKernelChangeThreadSuspendStatus tid (t.threadStatus tid true)).2

theorem later_afterStep (t : VitaTarget) (tid : SceUID) (post : List SceUID) (k : Kernel) :
    k.Later (t.afterStep tid post k) (1 + post.length) :=
  (later_changeStatus k tid _).trans (later_runTurns _ post _)

/-- **A loop with a step**: the turns before it, the planting, and the turns behind it. -/
theorem resumeThreads_step {pre post : List SceUID} (hstep : t.stepAction = some tid)
    (hpre : tid ∉ pre) (k : Kernel) :
    resumeThreads decoder pid (pre ++ tid :: post) t s k =
      match plantStep decoder s (t.runTurns pre k) pid tid with
      | (.ok _, s, k) => ((resumeRun (t.afterStep tid post k) pid).1,
          { t with stepAction := none }, s, (resumeRun (t.afterStep tid post k) pid).2)
      | (res, s, k) => (res, { t with stepAction := none }, s, k) := by
  have hbefore : ∀ tid' ∈ pre, t.stepAction ≠ some tid' := by
    intro tid' htid' heq
    rw [hstep, Option.some.injEq] at heq
    exact hpre (heq ▸ htid')
  rw [resumeThreads_append (tid :: post) pre k hbefore, resumeThreads, resumeThread, if_pos hstep]
  dsimp only
  rcases plantStep decoder s (t.runTurns pre k) pid tid with ⟨_ | e | _, s', k'⟩
  · dsimp only
    rw [resumeThreads_quiet (by simp)]
    rfl
  · rfl
  · rfl

/-! ## Coming to the loop -/

/-- The process is there and suspended, the two calls about it go through, and no pending exception
    takes the place of resuming. -/
structure ReachesLoop (t : VitaTarget) (s : GdbSessionInner) (k : Kernel) (pid : SceUID) :
    Prop where
  owned : s.getPid = some pid
  statusRead : k.fails 0 = false
  suspended : k.suspended pid = true
  nothingPending : s.hasExcp = true → t.stepAction ≠ none
  idsRead : k.fails 1 = false

theorem ReachesLoop.resumeStart_eq (h : t.ReachesLoop s k pid) :
    t.resumeStart s k =
      (if (k.threadIds pid).length < 64 then .threads pid (k.threadIds pid) else .returned .panic,
        k.atCall 2) := by
  have hsusp : ¬ (k.status pid &&& Kernel.processStatusSuspended == 0#32) = true := by
    have := h.suspended
    rw [Kernel.suspended, bne_iff_ne] at this
    rwa [beq_iff_eq]
  have hpending : ¬ (s.hasExcp && t.stepAction.isNone) = true := by
    rw [Bool.and_eq_true, Option.isNone_iff_eq_none]
    exact fun hboth => h.nothingPending hboth.1 hboth.2
  have hids : (k.atCall 1).fails 0 = false := by
    rw [Kernel.atCall_fails]
    exact h.idsRead
  rw [resumeStart, h.owned]
  dsimp only
  rw [Kernel.getProcessStatus_goes h.statusRead]
  dsimp only
  rw [if_neg hsusp, if_neg hpending, Kernel.getThreadIds_goes hids]
  have hlist : (k.atCall 1).threadIds pid = k.threadIds pid := rfl
  rw [hlist]
  by_cases hlen : (k.threadIds pid).length < 64
  · rw [if_pos hlen, if_pos hlen]
    rfl
  · rw [if_neg hlen, if_neg hlen]
    rfl

/-- What returns before the loop does not panic, and does not answer `Ok` on a suspended process
    with a step pending. -/
theorem resumeStart_returns (h : ∀ pid, ¬ t.ReachesLoop s k pid) :
    ∃ res, (t.resumeStart s k).1 = .returned res ∧ res ≠ .panic ∧
      (res = .ok () → ∀ pid, s.getPid = some pid → k.suspended pid = true →
        t.stepAction = none) := by
  rw [resumeStart]
  cases hpid : s.getPid with
  | none => exact ⟨_, rfl, by simp, fun _ pid hsome => absurd hsome (by simp)⟩
  | some pid =>
    have hsame : ∀ pid', some pid = some pid' → pid' = pid := fun pid' heq =>
      (Option.some.inj heq).symm
    dsimp only
    cases h₀ : k.fails 0 with
    | true =>
      obtain ⟨err, hstatus⟩ := Kernel.getProcessStatus_fails h₀ pid
      rw [hstatus]
      exact ⟨_, rfl, by simp, fun hok => absurd hok (by simp)⟩
    | false =>
      rw [Kernel.getProcessStatus_goes h₀]
      dsimp only
      split
      · next hrunning =>
        refine ⟨_, rfl, by simp, fun _ pid' heq hsusp => ?_⟩
        rw [hsame pid' heq, Kernel.suspended, bne_iff_ne] at hsusp
        exact absurd (beq_iff_eq.mp hrunning) hsusp
      · next hrunning =>
        have hsusp : k.suspended pid = true := by
          rw [Kernel.suspended, bne_iff_ne]
          exact fun heq => hrunning (beq_iff_eq.mpr heq)
        split
        · next hpending =>
          rw [Bool.and_eq_true, Option.isNone_iff_eq_none] at hpending
          exact ⟨_, rfl, by simp, fun _ _ _ _ => hpending.2⟩
        · next hpending =>
          have h₁ : k.fails 1 = true := by
            rw [← Bool.not_eq_false]
            refine fun h₁ => h pid ⟨hpid, h₀, hsusp, fun hexcp hnone => hpending ?_, h₁⟩
            rw [hexcp, hnone]
            rfl
          have hlater : (k.atCall 1).fails 0 = true := by rw [Kernel.atCall_fails]; exact h₁
          obtain ⟨err, hids⟩ := Kernel.getThreadIds_fails hlater pid
          rw [hids]
          exact ⟨_, rfl, by simp, fun hok => absurd hok (by simp)⟩

/-- The last call of `resume` lets the process run, or fails and leaves it as it is. -/
theorem resumeRun_cases (k : Kernel) (pid : SceUID) :
    (k.fails 0 = true ∧ ∃ err, resumeRun k pid = (.err err, k.atCall 1)) ∨
    (k.fails 0 = false ∧ (resumeRun k pid).1 = .ok () ∧
      (resumeRun k pid).2.suspended pid = false ∧ (resumeRun k pid).2.mem = k.mem) := by
  rw [resumeRun, Kernel.ksceKernelResumeProcess]
  cases h : k.fails 0 with
  | true =>
    rw [Kernel.sceCall_fails h]
    exact .inl ⟨rfl, _, rfl⟩
  | false =>
    rw [Kernel.sceCall_goes h]
    refine .inr ⟨rfl, rfl, ?_, rfl⟩
    show (Function.update k.status pid _ pid &&& Kernel.processStatusSuspended != 0) = false
    have hbits : ∀ w : U32,
        (w &&& ~~~Kernel.processHaltStatus) &&& Kernel.processStatusSuspended = 0#32 := by
      intro w
      rw [BitVec.and_assoc]
      exact BitVec.and_zero
    rw [Function.update_self, bne_eq_false_iff_eq]
    exact hbits _

/-- **A `resume` that comes to the thread that steps**: the planting, on the kernel as many calls
    later, and the end of the loop. -/
theorem ReachesLoop.resume_step (h : t.ReachesLoop s k pid) (hlen : (k.threadIds pid).length < 64)
    (hstep : t.stepAction = some tid) (hmem : tid ∈ k.threadIds pid) (decoder : InstDecoder) :
    ∃ post k₁, k.Later k₁ (2 + (k.threadIds pid).idxOf tid) ∧
      (k.threadIds pid).idxOf tid + 1 + post.length = (k.threadIds pid).length ∧
      t.resume decoder s k =
        match plantStep decoder s k₁ pid tid with
        | (.ok _, s, k) => ((resumeRun (t.afterStep tid post k) pid).1,
            { t with stepAction := none }, s, (resumeRun (t.afterStep tid post k) pid).2)
        | (res, s, k) => (res, { t with stepAction := none }, s, k) := by
  obtain ⟨pre, post, hsplit, hpre⟩ := List.eq_append_cons_of_mem hmem
  have hidx : (k.threadIds pid).idxOf tid = pre.length := by
    rw [hsplit, List.idxOf_append_of_notMem hpre, List.idxOf_cons_self, Nat.add_zero]
  refine ⟨post, t.runTurns pre (k.atCall 2), ?_, ?_, ?_⟩
  · rw [hidx]
    exact (Kernel.Later.atCall k 2).trans (later_runTurns t pre _)
  · rw [hidx, hsplit, List.length_append, List.length_cons]
    omega
  · rw [resume, h.resumeStart_eq, if_pos hlen]
    dsimp only
    rw [hsplit]
    exact resumeThreads_step hstep hpre _

/-- A `resume` that reaches the loop with no step for any of its threads. -/
theorem ReachesLoop.resume_quiet (h : t.ReachesLoop s k pid) (hlen : (k.threadIds pid).length < 64)
    (hstep : ∀ tid ∈ k.threadIds pid, t.stepAction ≠ some tid) (decoder : InstDecoder) :
    (t.resume decoder s k).1 =
      (resumeRun (t.runTurns (k.threadIds pid) (k.atCall 2)) pid).1 := by
  rw [resume, h.resumeStart_eq, if_pos hlen]
  dsimp only
  rw [resumeThreads_quiet hstep]

theorem ReachesLoop.resume_full (h : t.ReachesLoop s k pid)
    (hlen : ¬ (k.threadIds pid).length < 64) (decoder : InstDecoder) :
    (t.resume decoder s k).1 = .panic := by
  rw [resume, h.resumeStart_eq, if_neg hlen]

theorem resume_returns (h : ∀ pid, ¬ t.ReachesLoop s k pid) (decoder : InstDecoder) :
    (t.resume decoder s k).1 ≠ .panic ∧
      ((t.resume decoder s k).1 = .ok () → ∀ pid, s.getPid = some pid → k.suspended pid = true →
        t.stepAction = none) := by
  obtain ⟨res, hstart, hpanic, hok⟩ := resumeStart_returns h
  rw [resume]
  rcases hr : t.resumeStart s k with ⟨start, k'⟩
  rw [hr] at hstart
  obtain rfl : start = .returned res := hstart
  exact ⟨hpanic, hok⟩

end VitaTarget

/-! ## Panics -/

open VitaTarget

/-- Where the loop is reached, the thread list does not fill its buffer; and a listed thread that is
    to step is not thread 0, and the bytes at its program counter can be read if its registers
    can. -/
def ResumeSafe (t : VitaTarget) (s : GdbSessionInner) (k : Kernel) : Prop :=
  ∀ pid, t.ReachesLoop s k pid → (k.threadIds pid).length < 64 ∧
    ∀ tid ∈ k.threadIds pid, t.stepAction = some tid → tid ≠ 0#32 ∧
      (k.registersRead (2 + (k.threadIds pid).idxOf tid) = true → PcReadable k pid tid)

/-- The planting panics on thread 0, on an unreadable program counter, and where `next_pc` does. -/
theorem plantStep_panic_iff (decoder : InstDecoder)
    (hnext : ∀ regs mem, nextPc decoder regs mem ≠ .panic) (s : GdbSessionInner) (k : Kernel)
    (pid tid : SceUID) :
    (plantStep decoder s k pid tid).1 = .panic ↔
      ¬ (tid ≠ 0#32 ∧ (k.registersRead 0 = true → PcReadable k pid tid)) := by
  rcases plantStep_exits decoder s k pid tid with ⟨htid, hpanic⟩ | ⟨htid, hread, err, herr⟩ |
    ⟨htid, hread, hpc, hpanic⟩ | ⟨htid, hread, hpc, hexit⟩
  · exact ⟨fun _ hsafe => hsafe.1 htid, fun _ => hpanic⟩
  · rw [herr]
    refine ⟨fun h => absurd h (by simp), fun h => absurd ⟨htid, fun hread' => ?_⟩ h⟩
    rw [hread] at hread'
    exact absurd hread' (by simp)
  · exact ⟨fun _ hsafe => hpc (hsafe.2 hread), fun _ => hpanic⟩
  · refine ⟨fun h => ?_, fun h => absurd ⟨htid, fun _ => hpc⟩ h⟩
    rcases hp : predict decoder (userEntry (k.cpuRegs tid)) (k.mem pid) with ⟨addr, thumb⟩ | e | _
    · rw [hp] at hexit
      dsimp only at hexit
      rw [hexit] at h
      exact absurd h (by simp)
    · rw [hp] at hexit
      obtain ⟨err, herr⟩ := hexit
      rw [herr] at h
      exact absurd h (by simp)
    · exact absurd hp (hnext _ _)

/-- The last call of `resume` does not panic. -/
theorem resumeRun_ne_panic (k : Kernel) (pid : SceUID) : (resumeRun k pid).1 ≠ .panic := by
  rcases resumeRun_cases k pid with ⟨-, err, heq⟩ | ⟨-, hok, -⟩
  · rw [heq]
    simp
  · rw [hok]
    simp

/-- A `resume` with a step panics where its planting does. -/
theorem VitaTarget.ReachesLoop.step_ne_panic_iff {t : VitaTarget} {s : GdbSessionInner}
    {k : Kernel} {pid tid : SceUID} (h : t.ReachesLoop s k pid)
    (hlen : (k.threadIds pid).length < 64) (hstep : t.stepAction = some tid)
    (hmem : tid ∈ k.threadIds pid) (decoder : InstDecoder)
    (hnext : ∀ regs mem, nextPc decoder regs mem ≠ .panic) :
    (t.resume decoder s k).1 ≠ .panic ↔ tid ≠ 0#32 ∧
      (k.registersRead (2 + (k.threadIds pid).idxOf tid) = true → PcReadable k pid tid) := by
  obtain ⟨post, k₁, hlater, -, heq⟩ := h.resume_step hlen hstep hmem decoder
  -- the planting comes later, to the same program
  have hplant := plantStep_panic_iff decoder hnext s k₁ pid tid
  have hreadable : PcReadable k₁ pid tid ↔ PcReadable k pid tid := by
    rw [PcReadable, PcReadable, hlater.mem, hlater.cpuRegs]
  rw [hlater.registersRead, Nat.add_zero, hreadable] at hplant
  have hpanics : (t.resume decoder s k).1 = .panic ↔
      (plantStep decoder s k₁ pid tid).1 = .panic := by
    rw [heq]
    rcases plantStep decoder s k₁ pid tid with ⟨_ | e | _, s', k'⟩
    · exact ⟨fun hp => absurd hp (resumeRun_ne_panic _ _), fun hp => absurd hp (by simp)⟩
    · exact Iff.rfl
    · exact Iff.rfl
  rw [Ne, hpanics, hplant, not_not]

/-- **`resume` panics**, with `next_pc` that does not, exactly on a full thread list, a step of
    thread 0, and a program counter that cannot be read. -/
theorem resume_no_panic_iff (decoder : InstDecoder)
    (hnext : ∀ regs mem, nextPc decoder regs mem ≠ .panic) (t : VitaTarget) (s : GdbSessionInner)
    (k : Kernel) :
    (t.resume decoder s k).1 ≠ .panic ↔ ResumeSafe t s k := by
  by_cases hreach : ∃ pid, t.ReachesLoop s k pid
  · obtain ⟨pid, h⟩ := hreach
    have honly : ∀ pid', t.ReachesLoop s k pid' → pid' = pid := fun pid' h' =>
      Option.some.inj (h'.owned.symm.trans h.owned)
    have hsafe : ResumeSafe t s k ↔ (k.threadIds pid).length < 64 ∧
        ∀ tid ∈ k.threadIds pid, t.stepAction = some tid → tid ≠ 0#32 ∧
          (k.registersRead (2 + (k.threadIds pid).idxOf tid) = true → PcReadable k pid tid) :=
      ⟨fun hs => hs pid h, fun hs pid' h' => by rw [honly pid' h']; exact hs⟩
    rw [hsafe]
    by_cases hlen : (k.threadIds pid).length < 64
    swap
    · -- `get_thread_ids` panics
      rw [h.resume_full hlen]
      exact ⟨fun hne => absurd rfl hne, fun hs => absurd hs.1 hlen⟩
    by_cases hstep : ∃ tid ∈ k.threadIds pid, t.stepAction = some tid
    · obtain ⟨tid, hmem, hstep⟩ := hstep
      rw [h.step_ne_panic_iff hlen hstep hmem decoder hnext]
      constructor
      · intro hsafe
        refine ⟨hlen, fun tid' _ hstep' => ?_⟩
        obtain rfl := Option.some.inj (hstep.symm.trans hstep')
        exact hsafe
      · intro hsafe
        exact hsafe.2 tid hmem hstep
    · -- no listed thread steps, and the loop only sets statuses
      have hquiet : ∀ tid ∈ k.threadIds pid, t.stepAction ≠ some tid := fun tid hmem heq =>
        hstep ⟨tid, hmem, heq⟩
      rw [h.resume_quiet hlen hquiet decoder]
      exact ⟨fun _ => ⟨hlen, fun tid hmem heq => absurd heq (hquiet tid hmem)⟩,
        fun _ => resumeRun_ne_panic _ _⟩
  · rw [not_exists] at hreach
    exact ⟨fun _ pid h => absurd h (hreach pid), fun _ => (resume_returns hreach decoder).1⟩

/-- The word that is no jump has its successor next, where it can be read. -/
theorem nextPc_straightLine_ne_panic (regs : ArmNextPc.RegContext) (mem : UserMem) :
    nextPc straightLine regs mem ≠ .panic := by
  rw [nextPc]
  cases ByteMem.read mem (ArmNextPc.insnAddr regs) 4 with
  | none => simp
  | some bytes =>
    dsimp only [straightLine]
    split
    · simp
    · simp [ArmNextPc.taken]

/-- A step of thread 9 is asked for. -/
def stepsNine : VitaTarget := { VitaTarget.new ⟨3#32⟩ with stepAction := some 9#32 }

theorem resume_no_panic_iff_twoThreads :
    (∀ regs mem, nextPc straightLine regs mem ≠ .panic) ∧
      ((stepsNine.resume straightLine wordAttached twoThreads).1 ≠ .panic ↔
        ResumeSafe stepsNine wordAttached twoThreads) :=
  ⟨nextPc_straightLine_ne_panic,
    resume_no_panic_iff straightLine nextPc_straightLine_ne_panic stepsNine wordAttached
      twoThreads⟩

/-- The two threads, after a jump to where nothing is mapped. -/
def nothingMapped : Kernel := { twoThreads with mem := fun _ _ => none }

/-- **Stepping a thread whose program counter is not mapped** panics. -/
theorem resume_panics :
    ¬ ∀ (decoder : InstDecoder), (∀ regs mem, nextPc decoder regs mem ≠ .panic) →
      ∀ (t : VitaTarget) (s : GdbSessionInner) (k : Kernel), (t.resume decoder s k).1 ≠ .panic := by
  intro hclaim
  exact hclaim straightLine nextPc_straightLine_ne_panic stepsNine wordAttached nothingMapped
    (by decide)

/-! ## Armed steps -/

/-- A slot holds the address, and its trap is in the text. -/
def ArmedAt (s : GdbSessionInner) (k : Kernel) (pid : SceUID) (addr : U32) : Prop :=
  ∃ i b, s.swBreakpoints i = some b ∧ b.addr = addr ∧
    ByteMem.read (k.mem pid) addr b.patchLen = some b.trap

/-- A planting call gets as far as its write, and the write completes. -/
def Plants (s : GdbSessionInner) (k : Kernel) (addr : U32) (kind : ArmBreakpointKind) : Prop :=
  ∃ x ∈ s.plantingWrite k addr kind, k.writeExit x.pid x.dst x.buf.length = .completed

/-- How many calls a planting call makes. -/
def plantingCalls (s : GdbSessionInner) (k : Kernel) (addr : U32) (kind : ArmBreakpointKind) :
    Nat :=
  ((s.plantingWrite k addr kind).map fun x => (k.writeExit x.pid x.dst x.buf.length).calls).sum

/-- **After a planting call** the address is armed where it was, and where the call plants. -/
theorem setSwBreakpoint_armed_iff {s : GdbSessionInner} {pid : SceUID} (hpid : s.getPid = some pid)
    (k : Kernel) (addr : U32) (kind : ArmBreakpointKind) :
    ArmedAt (s.setSwBreakpoint k addr kind).2.1 (s.setSwBreakpoint k addr kind).2.2 pid addr ↔
      ArmedAt s k pid addr ∨ Plants s k addr kind := by
  by_cases hc : ∃ pid i orig, s.Claims k addr kind pid i orig
  · obtain ⟨pid', i, orig, hc⟩ := hc
    obtain rfl := Option.some.inj (hpid.symm.trans hc.owned)
    -- a claim is made for an address without a slot
    have hbefore : ∀ k', ¬ ArmedAt s k' pid addr := by
      rintro k' ⟨j, b, hb, haddr, -⟩
      exact hc.fresh ⟨j, b, hb, haddr⟩
    rw [Plants, hc.plantingWrite_eq, hc.setSwBreakpoint_exit]
    simp only [List.mem_singleton, exists_eq_left]
    by_cases hdone : k.writeExit pid addr (patched kind).length = .completed
    · rw [if_pos hdone]
      refine iff_of_true ⟨i, _, Function.update_self .., SwBreakpoint.found_addr .., ?_⟩
        (.inr hdone)
      have hlen : (patched kind).length ≤ 2 ^ 32 := by cases kind <;> decide
      have hread := ByteMem.read_write_same (k.mem pid) addr hlen
      rw [patched_length] at hread
      rw [Kernel.wrote_mem, SwBreakpoint.found_patchLen, SwBreakpoint.found_trap]
      exact hread
    · rw [if_neg hdone]
      exact iff_of_false (hbefore _) fun h => h.elim (hbefore _) hdone
  · rw [Plants, plantingWrite_eq_nil hc]
    rcases setSwBreakpoint_cases s k addr kind with ⟨r, heq, -⟩ | hc'
    · rw [heq]
      simp
    · exact absurd hc' hc

theorem setSwBreakpoint_calls (s : GdbSessionInner) (k : Kernel) (addr : U32)
    (kind : ArmBreakpointKind) :
    (s.setSwBreakpoint k addr kind).2.2.calls = k.calls + plantingCalls s k addr kind := by
  rw [setSwBreakpoint_kernel, plantingCalls]
  by_cases hc : ∃ pid i orig, s.Claims k addr kind pid i orig
  · obtain ⟨pid, i, orig, hc⟩ := hc
    rw [hc.plantingWrite_eq]
    show (k.writeUserText pid addr (patched kind)).2.calls = _
    rw [Kernel.writeUserText_eq, Kernel.afterWrite_calls]
    simp
  · rw [plantingWrite_eq_nil hc]
    rfl

/-- A `resume` that comes to plant: its calls so far go through, and `next_pc` predicts. -/
structure StepSite (decoder : InstDecoder) (t : VitaTarget) (s : GdbSessionInner) (k : Kernel)
    (pid tid : SceUID) (addr : U32) (thumb : Bool) : Prop where
  reaches : t.ReachesLoop s k pid
  fits : (k.threadIds pid).length < 64
  pending : t.stepAction = some tid
  listed : tid ∈ k.threadIds pid
  thread : tid ≠ 0#32
  registers : k.registersRead (2 + (k.threadIds pid).idxOf tid) = true
  readable : PcReadable k pid tid
  predicted : predict decoder (userEntry (k.cpuRegs tid)) (k.mem pid) = .ok (addr, thumb)

/-- A step that is started is armed, and one whose trap cannot be planted is not started. -/
structure StepArmed (decoder : InstDecoder) (t : VitaTarget) (s : GdbSessionInner) (k : Kernel) :
    Prop where
  armed : ∀ pid tid, s.getPid = some pid → t.stepAction = some tid → tid ∈ k.threadIds pid →
    k.suspended pid = true → (t.resume decoder s k).1 = .ok () →
    (t.resume decoder s k).2.2.2.suspended pid = false →
    ∃ addr thumb, predict decoder (userEntry (k.cpuRegs tid)) (k.mem pid) = .ok (addr, thumb) ∧
      ArmedAt (t.resume decoder s k).2.2.1 (t.resume decoder s k).2.2.2 pid addr ∧
      (t.resume decoder s k).2.2.1.step = some (tid, addr)
  refused : ∀ pid tid addr thumb, StepSite decoder t s k pid tid addr thumb →
    ¬ ArmedAt (t.resume decoder s k).2.2.1 (t.resume decoder s k).2.2.2 pid addr →
    (∃ err, (t.resume decoder s k).1 = .err err) ∧
      (t.resume decoder s k).2.2.2.suspended pid = true

/-- The address is armed already, or the call plants there, or the last call of `resume` fails. -/
def StepHeld (decoder : InstDecoder) (t : VitaTarget) (s : GdbSessionInner) (k : Kernel) : Prop :=
  ∀ pid tid addr thumb, StepSite decoder t s k pid tid addr thumb →
    let k₁ := k.atCall (4 + (k.threadIds pid).idxOf tid)
    ArmedAt s k pid addr ∨ Plants s k₁ addr (stepKind thumb) ∨
      k.fails (4 + (k.threadIds pid).length + plantingCalls s k₁ addr (stepKind thumb)) = true

/-- Only the text and the calls decide what a planting call does. -/
theorem plantingWrite_later {k k₁ : Kernel} {n : Nat} (h : k.Later k₁ n) (s : GdbSessionInner)
    (addr : U32) (kind : ArmBreakpointKind) :
    s.plantingWrite k₁ addr kind = s.plantingWrite (k.atCall n) addr kind := by
  rw [plantingWrite, plantingWrite, h.mem, Kernel.atCall_mem]

theorem plants_later {k k₁ : Kernel} {n : Nat} (h : k.Later k₁ n) (s : GdbSessionInner)
    (addr : U32) (kind : ArmBreakpointKind) :
    (Plants s k₁ addr kind ↔ Plants s (k.atCall n) addr kind) ∧
      plantingCalls s k₁ addr kind = plantingCalls s (k.atCall n) addr kind := by
  have hexit : ∀ pid dst len, k₁.writeExit pid dst len = (k.atCall n).writeExit pid dst len :=
    Kernel.writeExit_congr h.mem h.ret h.calls
  rw [Plants, Plants, plantingCalls, plantingCalls, plantingWrite_later h]
  simp only [hexit, and_self]

/-- **A `resume` that comes to plant**: armed as the planting call leaves it, with the step
    recorded; it ends in the last call, whatever the planting call answered. -/
theorem StepSite.resume_end {decoder : InstDecoder} {t : VitaTarget} {s : GdbSessionInner}
    {k : Kernel} {pid tid : SceUID} {addr : U32} {thumb : Bool}
    (h : StepSite decoder t s k pid tid addr thumb) :
    let k₁ := k.atCall (4 + (k.threadIds pid).idxOf tid)
    let r := t.resume decoder s k
    (ArmedAt r.2.2.1 r.2.2.2 pid addr ↔
      ArmedAt s k pid addr ∨ Plants s k₁ addr (stepKind thumb)) ∧
    r.2.2.1.step = some (tid, addr) ∧
    if k.fails (4 + (k.threadIds pid).length + plantingCalls s k₁ addr (stepKind thumb)) then
      (∃ err, r.1 = .err err) ∧ r.2.2.2.suspended pid = true
    else r.1 = .ok () ∧ r.2.2.2.suspended pid = false := by
  intro k₁ r
  obtain ⟨post, k', hlater, hcount, heq⟩ := h.reaches.resume_step h.fits h.pending h.listed decoder
  -- the planting goes through to its call
  have hplant : plantStep decoder s k' pid tid =
      (.ok (), (s.setSwBreakpoint (k'.atCall 2) addr (stepKind thumb)).2.1.setStep tid addr,
        (s.setSwBreakpoint (k'.atCall 2) addr (stepKind thumb)).2.2) := by
    have hread : k'.registersRead 0 = true := by
      rw [hlater.registersRead]
      exact h.registers
    have hpc : PcReadable k' pid tid := by
      rw [PcReadable, hlater.mem, hlater.cpuRegs]
      exact h.readable
    rcases plantStep_exits decoder s k' pid tid with ⟨htid, -⟩ | ⟨-, hread', -⟩ |
      ⟨-, -, hpc', -⟩ | ⟨-, -, -, hexit⟩
    · exact absurd htid h.thread
    · rw [hread] at hread'
      exact absurd hread' (by simp)
    · exact absurd hpc hpc'
    · rwa [hlater.mem, hlater.cpuRegs, h.predicted] at hexit
  have hk₂ : k.Later (k'.atCall 2) (4 + (k.threadIds pid).idxOf tid) := by
    have htwo := hlater.trans (Kernel.Later.atCall k' 2)
    rwa [show 2 + (k.threadIds pid).idxOf tid + 2 = 4 + (k.threadIds pid).idxOf tid by omega]
      at htwo
  obtain ⟨hplants, hcalls⟩ := plants_later hk₂ s addr (stepKind thumb)
  have harmed := setSwBreakpoint_armed_iff h.reaches.owned (k'.atCall 2) addr (stepKind thumb)
  have hkept := setSwBreakpoint_keepsStatus s (k'.atCall 2) addr (stepKind thumb)
  have hmade := setSwBreakpoint_calls s (k'.atCall 2) addr (stepKind thumb)
  rw [hplants, ArmedAt, ArmedAt, hk₂.mem] at harmed
  rw [hcalls, hk₂.calls] at hmade
  rw [hplant] at heq
  generalize s.setSwBreakpoint (k'.atCall 2) addr (stepKind thumb) = x at *
  obtain ⟨res, s', k₃⟩ := x
  dsimp only at *
  have hend := t.later_afterStep tid post k₃
  have hfails : (t.afterStep tid post k₃).fails 0 =
      k.fails (4 + (k.threadIds pid).length + plantingCalls s k₁ addr (stepKind thumb)) := by
    have hindex : (t.afterStep tid post k₃).calls = k.calls +
        (4 + (k.threadIds pid).length + plantingCalls s k₁ addr (stepKind thumb)) + 0 := by
      have hmade' : k₃.calls = k.calls + (4 + (k.threadIds pid).idxOf tid) +
          plantingCalls s k₁ addr (stepKind thumb) := hmade
      rw [hend.calls, hmade']
      omega
    rw [Kernel.fails, Kernel.fails, hend.ret, hkept.ret, hk₂.ret, hindex]
    rfl
  have hsusp : (t.afterStep tid post k₃).suspended pid = true := by
    rw [hend.suspended, Kernel.suspended_congr hkept.status, hk₂.suspended]
    exact h.reaches.suspended
  have hr : r = ((resumeRun (t.afterStep tid post k₃) pid).1, { t with stepAction := none },
      s'.setStep tid addr, (resumeRun (t.afterStep tid post k₃) pid).2) := heq
  rw [hr, ← hfails]
  dsimp only
  rcases resumeRun_cases (t.afterStep tid post k₃) pid with
    ⟨hfail, err, hrun⟩ | ⟨hgo, hok, hrunning, hmem⟩
  · rw [if_pos hfail, hrun]
    refine ⟨?_, rfl, ⟨err, rfl⟩, hsusp⟩
    rw [ArmedAt, Kernel.atCall_mem, hend.mem]
    exact harmed
  · rw [if_neg (by rw [hgo]; simp)]
    refine ⟨?_, rfl, hok, hrunning⟩
    rw [ArmedAt, hmem, hend.mem]
    exact harmed

/-- A `resume` that answers `Ok` on a suspended process with a step pending for a listed thread has
    come to plant. -/
theorem stepSite_of_ok {decoder : InstDecoder} {t : VitaTarget} {s : GdbSessionInner} {k : Kernel}
    {pid tid : SceUID} (hpid : s.getPid = some pid) (hpending : t.stepAction = some tid)
    (hlisted : tid ∈ k.threadIds pid) (hsusp : k.suspended pid = true)
    (hok : (t.resume decoder s k).1 = .ok ()) :
    ∃ addr thumb, StepSite decoder t s k pid tid addr thumb := by
  by_cases hreach : ∃ pid, t.ReachesLoop s k pid
  · obtain ⟨pid', hreach⟩ := hreach
    obtain rfl := Option.some.inj (hpid.symm.trans hreach.owned)
    by_cases hlen : (k.threadIds pid).length < 64
    · obtain ⟨post, k', hlater, -, heq⟩ := hreach.resume_step hlen hpending hlisted decoder
      have hread : k'.registersRead 0 = k.registersRead (2 + (k.threadIds pid).idxOf tid) :=
        hlater.registersRead 0
      have hpc : PcReadable k' pid tid ↔ PcReadable k pid tid := by
        rw [PcReadable, PcReadable, hlater.mem, hlater.cpuRegs]
      -- every other exit of the planting is the answer of `resume`
      have hplant : (plantStep decoder s k' pid tid).1 = .ok () := by
        rw [heq] at hok
        revert hok
        rcases plantStep decoder s k' pid tid with ⟨_ | e | _, s', k₂⟩
        · exact fun _ => rfl
        · exact id
        · exact id
      rcases plantStep_exits decoder s k' pid tid with ⟨-, hpanic⟩ | ⟨-, -, err, herr⟩ |
        ⟨-, -, -, hpanic⟩ | ⟨htid, hregs, hpc', hexit⟩
      · rw [hpanic] at hplant
        exact absurd hplant (by simp)
      · rw [herr] at hplant
        exact absurd hplant (by simp)
      · rw [hpanic] at hplant
        exact absurd hplant (by simp)
      · rw [hlater.mem, hlater.cpuRegs] at hexit
        rcases hp : predict decoder (userEntry (k.cpuRegs tid)) (k.mem pid) with
          ⟨addr, thumb⟩ | e | _
        · exact ⟨addr, thumb, hreach, hlen, hpending, hlisted, htid, by rw [← hread]; exact hregs,
            hpc.mp hpc', hp⟩
        · rw [hp] at hexit
          obtain ⟨err, herr⟩ := hexit
          rw [herr] at hplant
          exact absurd hplant (by simp)
        · rw [hp] at hexit
          dsimp only at hexit
          rw [hexit] at hplant
          exact absurd hplant (by simp)
    · rw [hreach.resume_full hlen] at hok
      exact absurd hok (by simp)
  · rw [not_exists] at hreach
    have hnone := (resume_returns hreach decoder).2 hok pid hpid hsusp
    rw [hpending] at hnone
    exact absurd hnone (by simp)

/-- **A step that is started is armed**, and one that cannot be armed is not started, exactly where
    each `resume` that comes to plant finds the address armed, plants the trap, or fails to let the
    process run. -/
theorem resume_armed_iff (decoder : InstDecoder) (t : VitaTarget) (s : GdbSessionInner)
    (k : Kernel) : StepArmed decoder t s k ↔ StepHeld decoder t s k := by
  constructor
  · -- a `resume` that plants nothing must end in an error, and that can only be its last call's
    intro h pid tid addr thumb hsite
    obtain ⟨harmed, -, hend⟩ := hsite.resume_end
    by_cases hheld : ArmedAt (t.resume decoder s k).2.2.1 (t.resume decoder s k).2.2.2 pid addr
    · exact (harmed.mp hheld).imp_right .inl
    · refine .inr (.inr ?_)
      by_contra hgoes
      rw [if_neg hgoes] at hend
      obtain ⟨⟨err, herr⟩, -⟩ := h.refused pid tid addr thumb hsite hheld
      rw [herr] at hend
      exact absurd hend.1 (by simp)
  · intro h
    constructor
    · intro pid tid hpid hpending hlisted hsusp hok hrunning
      obtain ⟨addr, thumb, hsite⟩ := stepSite_of_ok hpid hpending hlisted hsusp hok
      obtain ⟨harmed, hstep, hend⟩ := hsite.resume_end
      refine ⟨addr, thumb, hsite.predicted, ?_, hstep⟩
      rcases h pid tid addr thumb hsite with hheld | hplants | hfails
      · exact harmed.mpr (.inl hheld)
      · exact harmed.mpr (.inr hplants)
      · rw [if_pos hfails] at hend
        rw [hend.2] at hrunning
        exact absurd hrunning (by simp)
    · intro pid tid addr thumb hsite hheld
      obtain ⟨harmed, -, hend⟩ := hsite.resume_end
      rcases h pid tid addr thumb hsite with hbefore | hplants | hfails
      · exact absurd (harmed.mpr (.inl hbefore)) hheld
      · exact absurd (harmed.mpr (.inr hplants)) hheld
      · rwa [if_pos hfails] at hend

/-- The two threads, the first before a call into the shared libraries. -/
def beforeShared : Kernel where
  __ := twoThreads
  cpuRegs := fun _ =>
    let regs : SceArmCpuRegisters :=
      { (default : SceArmCpuRegisters) with pc := 0xDFFFFFFC#32, cpsr := 0x10#32 }
    (regs, regs)

/-- **A step into the shared libraries** is recorded and started without a trap. -/
theorem resume_not_armed :
    ¬ ∀ (decoder : InstDecoder) (t : VitaTarget) (s : GdbSessionInner) (k : Kernel),
      StepArmed decoder t s k := by
  intro hclaim
  obtain ⟨addr, thumb, hpredict, ⟨i, b, hb, -⟩, -⟩ :=
    (hclaim straightLine stepsNine wordAttached beforeShared).armed 7#32 9#32 rfl rfl (by decide)
      (by decide) (by decide) (by decide)
  have hempty : ∀ i, ((stepsNine.resume straightLine wordAttached beforeShared).2.2.1).swBreakpoints
      i = none := by decide
  rw [hempty i] at hb
  exact absurd hb (by simp)

end VitaGdb
