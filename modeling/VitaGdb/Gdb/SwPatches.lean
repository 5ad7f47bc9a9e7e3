/-
  Software breakpoints and the program text: what a session's calls leave behind.

  The pristine text is the text of the process when the session is attached.  A run is any list of
  `setSwBreakpoint`, `clearSwBreakpoint` and `clearAll` calls (`SwCall`).  `Undoes` is what the
  table is for: each slot holds pristine bytes, and once the table is empty the text is the
  pristine text.

  The table is an undo table in the sense of `UndoTable`: `SwPatched` says that the discipline
  holds, one lemma per call that the call keeps it.  A removal always keeps it.  A call that
  plants keeps it when the range it patches meets no planted range (`PlantsApart`): the bytes it
  saves are read from the text as it is, so over a planted trap it saves the trap.

  Main results:
    * `swCalls_undo`         — every run whose planting calls meet `PlantsApart` undoes;
    * `swCalls_text_visible` — along such a run the text is the pristine text with the planted traps
                               over it, whatever the order of the calls was;
    * `swCalls_not_undo`     — without the condition it does not.
-/
import VitaGdb.Lib.Runs
import VitaGdb.Lib.UndoTable
import VitaGdb.Gdb.SessionSpecs

namespace VitaGdb

open GdbSessionInner

/-! ## Runs of breakpoint calls -/

/-- The calls that touch the software breakpoints of a session. -/
inductive SwCall where
  | set (addr : U32) (kind : ArmBreakpointKind)
  | clear (addr : U32)
  | clearAll

/-- One call; none of them can fail to return. -/
def swCall : GdbSessionInner × Kernel → SwCall → Option (GdbSessionInner × Kernel)
  | (s, k), .set addr kind => some (s.setSwBreakpoint k addr kind).2
  | (s, k), .clear addr => some (s.clearSwBreakpoint k addr).2
  | (s, k), .clearAll => some (s.clearAll k)

/-- The slots hold pristine bytes, and with no slot occupied the text is pristine. -/
structure Undoes (pristine : UserMem) (s : GdbSessionInner) (k : Kernel) : Prop where
  saved : ∀ i b, s.swBreakpoints i = some b →
    ByteMem.read pristine b.addr b.patchLen = some b.saved
  restored : (∀ i, s.swBreakpoints i = none) → k.mem s.pid = pristine

/-- A call that is about to plant does so on a range that meets no planted range. -/
def PlantsApart : GdbSessionInner × Kernel → SwCall → Prop
  | (s, k), .set addr kind => (∃ pid i orig, s.Claims k addr kind pid i orig) →
      ∀ j b, s.swBreakpoints j = some b →
        Disjoint (ByteMem.range addr (patchLen kind)) b.area
  | _, _ => True

/-- The range a call would patch meets no planted range, by their addresses. -/
def OffsetsApart (s : GdbSessionInner) (addr : U32) (kind : ArmBreakpointKind) : Prop :=
  ∀ j, ∀ b ∈ s.swBreakpoints j,
    patchLen kind ≤ (b.addr - addr).toNat ∧ b.patchLen ≤ (addr - b.addr).toNat

instance (s : GdbSessionInner) (addr : U32) (kind : ArmBreakpointKind) :
    Decidable (OffsetsApart s addr kind) :=
  @Nat.decidableForallFin 16 _ fun j => Option.decidableForallMem (s.swBreakpoints j)

theorem plantsApart_of_offsets {s : GdbSessionInner} {k : Kernel} {addr : U32}
    {kind : ArmBreakpointKind} (h : OffsetsApart s addr kind) :
    PlantsApart (s, k) (.set addr kind) :=
  fun _ j b hb => ByteMem.range_disjoint (h j b hb).1 (h j b hb).2

/-! ## The undo discipline of one session -/

/-- The session's table is a disciplined undo table over the pristine text. -/
def SwPatched (pristine : UserMem) (s : GdbSessionInner) (k : Kernel) : Prop :=
  UndoTable.Patched SwBreakpoint.area SwBreakpoint.put SwBreakpoint.savedAt pristine (k.mem s.pid)
    s.swBreakpoints

variable {pristine : UserMem} {s : GdbSessionInner} {k : Kernel}

theorem SwPatched.congr {s' : GdbSessionInner} {k' : Kernel} (h : SwPatched pristine s k)
    (hpid : s'.pid = s.pid) (hsw : s'.swBreakpoints = s.swBreakpoints) (hmem : k'.mem = k.mem) :
    SwPatched pristine s' k' := by
  rw [SwPatched, hpid, hsw, hmem]
  exact h

theorem SwPatched.slotsMapped (h : SwPatched pristine s k) : s.SlotsMapped k := by
  intro i b hb a ha
  rw [h.shown i b a hb ha]
  exact SwBreakpoint.put_isSome ha

theorem SwPatched.undoes (h : SwPatched pristine s k) : Undoes pristine s k where
  saved := by
    intro i b hb
    have hread : ByteMem.read pristine b.addr b.saved.length = some b.saved := by
      refine ByteMem.read_of_cells (by rw [b.saved_length]; exact b.patchLen_le) fun a ha => ?_
      rw [b.saved_length] at ha
      exact (h.saved_base i b a hb ha).symm
    rwa [b.saved_length] at hread
  restored := fun hnone => h.eq_base hnone

/-- The cells of a text after a write, split as the undo table wants them. -/
theorem write_cells (m : UserMem) (addr : U32) {bytes : List U8} {n : Nat}
    (hlen : bytes.length = n) :
    (∀ a, ByteMem.InRange addr n a → ByteMem.write m addr bytes a = bytes[(a - addr).toNat]?) ∧
      ∀ a, ¬ ByteMem.InRange addr n a → ByteMem.write m addr bytes a = m a := by
  subst hlen
  exact ⟨fun a ha => ByteMem.write_of_inRange m ha, fun a ha => ByteMem.write_of_not_inRange m ha⟩

/-- A trap that is written over the bytes a fresh slot saves, apart from the planted ranges. -/
theorem patched_plant {base m : UserMem} {t : SlotTable.Table 16 SwBreakpoint}
    (h : UndoTable.Patched SwBreakpoint.area SwBreakpoint.put SwBreakpoint.savedAt base m t)
    {i : Fin 16} {addr : U32} {kind : ArmBreakpointKind} {orig : List U8} (hfree : t i = none)
    (hapart : ∀ j b, t j = some b → Disjoint (ByteMem.range addr (patchLen kind)) b.area)
    (hread : ByteMem.read m addr (patchLen kind) = some orig) :
    UndoTable.Patched SwBreakpoint.area SwBreakpoint.put SwBreakpoint.savedAt base
      (ByteMem.write m addr (patched kind))
      (Function.update t i (some (SwBreakpoint.found addr orig kind))) := by
  obtain ⟨hin, hout⟩ := write_cells m addr (patched_length kind)
  refine UndoTable.Patched.plant h hfree hapart ?_ ?_ hout
  · -- what it saves is what it finds
    intro a ha
    rw [SwBreakpoint.savedAt, SwBreakpoint.found_saved (ByteMem.read_length hread)]
    exact (ByteMem.read_inRange hread ha).symm
  · intro a ha
    rw [hin a ha, SwBreakpoint.put, SwBreakpoint.found_trap]
    rfl

/-- The saved bytes of a slot that is released are written back. -/
theorem patched_restore {base m : UserMem} {t : SlotTable.Table 16 SwBreakpoint}
    (h : UndoTable.Patched SwBreakpoint.area SwBreakpoint.put SwBreakpoint.savedAt base m t)
    {i : Fin 16} {b : SwBreakpoint} (hb : t i = some b) :
    UndoTable.Patched SwBreakpoint.area SwBreakpoint.put SwBreakpoint.savedAt base
      (ByteMem.write m b.addr b.saved) (Function.update t i none) := by
  obtain ⟨hin, hout⟩ := write_cells m b.addr b.saved_length
  exact UndoTable.Patched.remove h hb hin hout

/-- **Planting** apart from the planted ranges keeps the discipline. -/
theorem SwPatched.set (h : SwPatched pristine s k) (hk : k.NoFail) {addr : U32}
    {kind : ArmBreakpointKind} (hapart : PlantsApart (s, k) (.set addr kind)) :
    SwPatched pristine (s.setSwBreakpoint k addr kind).2.1 (s.setSwBreakpoint k addr kind).2.2 := by
  rcases setSwBreakpoint_cases s k addr kind with ⟨r, heq, -⟩ | ⟨pid, i, orig, hc⟩
  · rw [heq]
    exact h
  · obtain ⟨-, rfl⟩ := getPid_eq_some.mp hc.owned
    rw [hc.setSwBreakpoint_noFail hk]
    show UndoTable.Patched _ _ _ pristine ((k.wrote s.pid addr (patched kind)).mem s.pid) _
    rw [Kernel.wrote_mem]
    exact patched_plant h hc.slot_free (hapart ⟨s.pid, i, orig, hc⟩) hc.read

/-- Writing a slot's saved bytes back and releasing it keeps the discipline. -/
theorem SwPatched.restore (h : SwPatched pristine s k) {i : Fin 16} {b : SwBreakpoint}
    (hb : s.swBreakpoints i = some b) :
    SwPatched pristine (s.withSlot i none) (k.wrote s.pid b.addr b.saved) := by
  show UndoTable.Patched _ _ _ pristine ((k.wrote s.pid b.addr b.saved).mem s.pid) _
  rw [Kernel.wrote_mem]
  exact patched_restore h hb

/-- **Removing** keeps the discipline, whatever is planted. -/
theorem SwPatched.clear (h : SwPatched pristine s k) (hk : k.NoFail) (addr : U32) :
    SwPatched pristine (s.clearSwBreakpoint k addr).2.1 (s.clearSwBreakpoint k addr).2.2 := by
  rcases clearSwBreakpoint_cases s k addr with ⟨heq, -⟩ | ⟨pid, i, b, hpid, hb, -, heq⟩
  · rw [heq]
    exact h
  · obtain ⟨-, rfl⟩ := getPid_eq_some.mp hpid
    rw [heq, Kernel.writeUserText_ok hk (h.slotsMapped.read hb)]
    exact h.restore hb

/-- A loop over debug registers leaves the text and the coming return codes alone. -/
theorem drain_keeps {n : Nat} {α : Type} {act : Kernel → Fin n → α → Kernel}
    (hact : ∀ k i a, Kernel.Keeps k (act k i a)) (t : SlotTable.Table n α) (k : Kernel) :
    k.Keeps (SlotTable.drain act t k).2 :=
  (SlotTable.drain_invariant (fun _ k' => Kernel.Keeps k k')
    (fun _ k' i a hI _ => hI.trans (hact k' i a))
    (Kernel.Keeps.refl k)).1

/-- The loop of `clearAll` over the software breakpoints restores one slot after the other. -/
theorem SwPatched.restoreAll (h : SwPatched pristine s k) (hk : k.NoFail) {r}
    (hr : r = SlotTable.drain (fun k _ b => (restoreSwSlot k s.pid (some b)).2.2)
      s.swBreakpoints k) :
    SwPatched pristine { s with swBreakpoints := r.1 } r.2 ∧ r.2.NoFail := by
  obtain ⟨⟨hp, hk'⟩, hempty⟩ := SlotTable.drain_invariant
    (fun t k' => SwPatched pristine { s with swBreakpoints := t } k' ∧ k'.NoFail)
    (fun t k' i b hI hb => by
      have hw := Kernel.writeUserText_ok hI.2 (hI.1.slotsMapped.read hb)
      show SwPatched pristine _ (k'.writeUserText s.pid b.addr b.saved).2 ∧
        (k'.writeUserText s.pid b.addr b.saved).2.NoFail
      rw [hw]
      exact ⟨hI.1.restore hb, hI.2⟩)
    ⟨h, hk⟩
  subst hr
  rw [← hempty] at hp
  exact ⟨hp, hk'⟩

/-- **`clearAll`** keeps the discipline. -/
theorem SwPatched.clearAll (h : SwPatched pristine s k) (hk : k.NoFail) :
    SwPatched pristine (s.clearAll k).1 (s.clearAll k).2 ∧ (s.clearAll k).2.NoFail := by
  have h₁ := drain_keeps (fun k idx _ => Kernel.sceKernelSetPHBP_keeps k s.pid idx 0#32 0#32)
    s.hwBreakpoints k
  generalize hk₁ : (SlotTable.drain (fun k idx _ => (k.sceKernelSetPHBP s.pid idx 0#32 0#32).2)
    s.hwBreakpoints k).2 = k₁ at h₁
  have h₂ := h₁.trans (drain_keeps
    (fun k idx _ => Kernel.sceKernelSetPHWP_keeps k s.pid idx 0#32 0#32) s.hwWatchpoints k₁)
  generalize hk₂ : (SlotTable.drain (fun k idx _ => (k.sceKernelSetPHWP s.pid idx 0#32 0#32).2)
    s.hwWatchpoints k₁).2 = k₂ at h₂
  have hp : SwPatched pristine s k₂ := by
    rw [SwPatched, h₂.mem]
    exact h
  have hk' : k₂.NoFail := h₂.noFail.mpr hk
  subst hk₁ hk₂
  exact hp.restoreAll hk' rfl

/-! ## Whole runs -/

/-- What holds along a run: the discipline, and calls that do not fail. -/
def SwRunning (pristine : UserMem) (x : GdbSessionInner × Kernel) : Prop :=
  x.2.NoFail ∧ SwPatched pristine x.1 x.2

/-- One call. -/
theorem SwRunning.step {x y : GdbSessionInner × Kernel} {call : SwCall}
    (h : SwRunning pristine x) (hapart : PlantsApart x call) (hy : swCall x call = some y) :
    SwRunning pristine y := by
  obtain ⟨s, k⟩ := x
  obtain ⟨hk, hp⟩ := h
  cases call with
  | set addr kind =>
    rw [swCall, Option.some.injEq] at hy
    subst hy
    refine ⟨?_, hp.set hk hapart⟩
    rcases setSwBreakpoint_cases s k addr kind with ⟨r, heq, -⟩ | ⟨pid, i, orig, hc⟩
    · rw [heq]; exact hk
    · rw [hc.setSwBreakpoint_noFail hk]; exact hk
  | clear addr =>
    rw [swCall, Option.some.injEq] at hy
    subst hy
    refine ⟨?_, hp.clear hk addr⟩
    rcases clearSwBreakpoint_cases s k addr with ⟨heq, -⟩ | ⟨pid, i, b, hpid, hb, -, heq⟩
    · rw [heq]; exact hk
    · obtain ⟨-, rfl⟩ := getPid_eq_some.mp hpid
      rw [heq, Kernel.writeUserText_ok hk (hp.slotsMapped.read hb)]
      exact hk
  | clearAll =>
    rw [swCall, Option.some.injEq] at hy
    subst hy
    exact ⟨(hp.clearAll hk).2, (hp.clearAll hk).1⟩

/-- The discipline holds wherever a run of calls that plant apart leads. -/
theorem swCalls_running {x : GdbSessionInner × Kernel} (hfresh : s.swBreakpoints = SlotTable.empty)
    (hk : k.NoFail) {calls : List SwCall} (hapart : LTS.Along swCall PlantsApart (s, k) calls)
    (hrun : LTS.exec swCall (s, k) calls = some x) : SwRunning (k.mem s.pid) x := by
  have hstart : SwRunning (k.mem s.pid) (s, k) := by
    refine ⟨hk, ?_⟩
    rw [SwPatched, hfresh]
    exact UndoTable.Patched.start (k.mem s.pid)
  exact LTS.exec_invariant (fun x call y hx hc hy => SwRunning.step hx hc hy) calls hstart
    hapart hrun

/-- **Breakpoints that are planted apart never corrupt the program**: along every run of calls
    from a session without breakpoints, if every planting call meets no planted range, the slots
    hold the pristine bytes and an empty table means the pristine text. -/
theorem swCalls_undo (s : GdbSessionInner) (k : Kernel) (calls : List SwCall)
    (hfresh : s.swBreakpoints = SlotTable.empty) (hk : k.NoFail)
    (hapart : LTS.Along swCall PlantsApart (s, k) calls) (s' : GdbSessionInner) (k' : Kernel)
    (hrun : LTS.exec swCall (s, k) calls = some (s', k')) : Undoes (k.mem s.pid) s' k' :=
  (swCalls_running hfresh hk hapart hrun).2.undoes

/-- A session of process 7 without breakpoints, and a text whose bytes are the low bytes of their
    addresses. -/
def freshSession : GdbSessionInner := { GdbSessionInner.uninit with pid := 7#32 }
def countingText : SceUID → UserMem := fun _ a => some (a.setWidth 8)

/-- Two breakpoints side by side, removed in the order they were planted. -/
def adjacentCalls : List SwCall :=
  [.set 0x1000#32 .arm32, .set 0x1004#32 .thumb16, .clear 0x1000#32, .clear 0x1004#32]

theorem swCalls_undo_adjacent :
    ∃ s' k', LTS.exec swCall (freshSession, Kernel.quiet countingText) adjacentCalls =
      some (s', k') ∧ Undoes (countingText 7#32) s' k' := by
  refine ⟨_, _, rfl, swCalls_undo freshSession (Kernel.quiet countingText) adjacentCalls rfl
    (Kernel.quiet_noFail _) ?_ _ _ rfl⟩
  refine .cons rfl (plantsApart_of_offsets (by decide)) ?_
  refine .cons rfl (plantsApart_of_offsets (by decide)) ?_
  exact .cons rfl trivial (.cons rfl trivial trivial)

/-- Along such a run the text is the pristine text with the planted traps over it: the order of the
    calls that led to the table does not show. -/
theorem swCalls_text_visible (s : GdbSessionInner) (k : Kernel) (calls : List SwCall)
    (hfresh : s.swBreakpoints = SlotTable.empty) (hk : k.NoFail)
    (hapart : LTS.Along swCall PlantsApart (s, k) calls) (s' : GdbSessionInner) (k' : Kernel)
    (hrun : LTS.exec swCall (s, k) calls = some (s', k')) :
    k'.mem s'.pid =
      UndoTable.visible SwBreakpoint.area SwBreakpoint.put (k.mem s.pid) s'.swBreakpoints :=
  (swCalls_running hfresh hk hapart hrun).2.eq_visible

/-- **Planting over a planted range corrupts the program.**  A Thumb breakpoint inside the range
    of an ARM one saves half of the other's trap; removed last, it writes that half back. -/
theorem swCalls_not_undo :
    ¬ ∀ (s : GdbSessionInner) (k : Kernel) (calls : List SwCall) (s' : GdbSessionInner)
      (k' : Kernel),
      s.swBreakpoints = SlotTable.empty → k.NoFail →
      LTS.exec swCall (s, k) calls = some (s', k') → Undoes (k.mem s.pid) s' k' := by
  intro hclaim
  have hundo := hclaim freshSession (Kernel.quiet countingText)
    [.set 0x1000#32 .arm32, .set 0x1002#32 .thumb16, .clear 0x1000#32, .clear 0x1002#32] _ _
    rfl (Kernel.quiet_noFail _) rfl
  have htext := congrFun (hundo.restored (by decide)) 0x1002#32
  exact absurd htext (by decide)

end VitaGdb
