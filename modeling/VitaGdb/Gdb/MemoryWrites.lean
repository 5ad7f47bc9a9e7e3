/-
  Memory writes of the debugger, beside its own breakpoints.

  `write_addrs` writes the program text as it is: it does not look at the table of breakpoints, and
  the table does not see it.  A run is any list of `writeAddrs`, `setSwBreakpoint` and
  `clearSwBreakpoint` calls, written ranges and planted ranges overlapping in any way.

  A byte that is written where a breakpoint is planted goes over the trap, and the removal of the
  breakpoint writes the byte back that was there before the trap: the written one is gone
  (`writes_not_kept`).  `Shadow` is what a run amounts to: the text the program has without
  breakpoints, which takes the part of each write that meets no planted range, and the bytes
  written over traps since they were planted.  `writes_shadowed` says that the user text is, at any
  time, the traps with these bytes over them and that text around them.
-/
import VitaGdb.Gdb.SwPatches

namespace VitaGdb

open GdbSessionInner

/-! ## Runs of writes and breakpoint calls -/

namespace GdbSessionInner

/-- `write_addrs`, on the process of the session; `false` is `TargetError::NonFatal`. -/
def writeAddrs (s : GdbSessionInner) (k : Kernel) (startAddr : U32) (data : List U8) :
    Bool × Kernel :=
  match s.getPid with
  | none => (true, k)
  | some pid =>
    match k.writeUserText pid startAddr data with
    | (.error _, k) => (false, k)
    | (.ok _, k) => (true, k)

/-- The breakpoint whose range the address is in. -/
def plantedAt (s : GdbSessionInner) (a : U32) : Option SwBreakpoint :=
  (SlotTable.findSlot (fun b => ByteMem.InRange b.addr b.patchLen a) s.swBreakpoints).map Prod.snd

end GdbSessionInner

inductive MemCall where
  | write (startAddr : U32) (data : List U8)
  | set (addr : U32) (kind : ArmBreakpointKind)
  | clear (addr : U32)

/-- A session and the kernel after a call. -/
def memCall (x : GdbSessionInner × Kernel) : MemCall → GdbSessionInner × Kernel
  | .write startAddr data => (x.1, (x.1.writeAddrs x.2 startAddr data).2)
  | .set addr kind => (x.1.setSwBreakpoint x.2 addr kind).2
  | .clear addr => (x.1.clearSwBreakpoint x.2 addr).2

/-- The byte a call of `write_addrs` that is answered `Ok` puts at an address. -/
def writtenAt (x : GdbSessionInner × Kernel) (call : MemCall) (a : U32) : Option U8 :=
  match call with
  | .write startAddr data =>
    if (x.1.writeAddrs x.2 startAddr data).1 then data[(a - startAddr).toNat]? else none
  | _ => none

/-- A call that is about to plant does so on a range that meets no planted range. -/
def MemApart (x : GdbSessionInner × Kernel) : MemCall → Prop
  | .set addr kind => PlantsApart x (.set addr kind)
  | _ => True

/-! ## What a run amounts to -/

/-- The text of the program without breakpoints, and the bytes written over traps. -/
structure Shadow where
  text : UserMem
  overTrap : UserMem

/-- A write goes to the text where nothing is planted, and over the trap where something is; what
    is no longer planted has nothing over it. -/
def Shadow.after (m : Shadow) (x y : GdbSessionInner × Kernel) (call : MemCall) : Shadow where
  text := fun a =>
    match x.1.plantedAt a with
    | some _ => m.text a
    | none => (writtenAt x call a).or (m.text a)
  overTrap := fun a =>
    match y.1.plantedAt a with
    | some _ => (writtenAt x call a).or (m.overTrap a)
    | none => none

/-- A session, the kernel, and what the run amounts to so far. -/
def shadowStep (x : (GdbSessionInner × Kernel) × Shadow) (call : MemCall) :
    Option ((GdbSessionInner × Kernel) × Shadow) :=
  some (memCall x.1 call, x.2.after x.1 (memCall x.1 call) call)

/-- With no breakpoint left the text is that of the program; and where one is planted its trap
    shows, but for the bytes written over it. -/
structure Shadows (x : GdbSessionInner × Kernel) (m : Shadow) : Prop where
  restored : (∀ i, x.1.swBreakpoints i = none) → x.2.mem x.1.pid = m.text
  shown : ∀ i b a, x.1.swBreakpoints i = some b → a ∈ b.area →
    x.2.mem x.1.pid a = (m.overTrap a).or (b.put a)

/-! ## The traps without what is written over them -/

/-- What holds along a run: the calls do not fail, and the text is, but for the bytes written over
    traps, that of a disciplined undo table over the program's. -/
structure Shadowing (x : (GdbSessionInner × Kernel) × Shadow) : Prop where
  noFail : x.1.2.NoFail
  attached : x.1.1.pid ≠ pidUnused
  clean : ∃ clean : UserMem,
    UndoTable.Patched SwBreakpoint.area SwBreakpoint.put SwBreakpoint.savedAt x.2.text clean
      x.1.1.swBreakpoints ∧
    ∀ a, x.1.2.mem x.1.1.pid a = (x.2.overTrap a).or (clean a)
  overTrap : ∀ a, x.1.1.plantedAt a = none → x.2.overTrap a = none

variable {s : GdbSessionInner} {k : Kernel} {m : Shadow}

theorem plantedAt_none {a : U32} :
    s.plantedAt a = none ↔ ∀ i b, s.swBreakpoints i = some b → a ∉ b.area := by
  rw [GdbSessionInner.plantedAt, Option.map_eq_none_iff, SlotTable.findSlot_none_iff]
  constructor
  · intro h i b hb ha
    exact of_decide_eq_false (h i b hb) ha
  · intro h i b hb
    exact decide_eq_false (h i b hb)

theorem plantedAt_some {a : U32} {i : Fin 16} {b : SwBreakpoint} (hb : s.swBreakpoints i = some b)
    (ha : a ∈ b.area) : ∃ b', s.plantedAt a = some b' := by
  rw [← Option.ne_none_iff_exists']
  exact fun h => plantedAt_none.mp h i b hb ha

theorem Shadowing.shadows {x : GdbSessionInner × Kernel} (h : Shadowing (x, m)) : Shadows x m := by
  obtain ⟨clean, hpatched, hmem⟩ := h.clean
  constructor
  · intro hnone
    funext a
    have hover : m.overTrap a = none := h.overTrap a (plantedAt_none.mpr fun i b hb => by
      have hi : x.1.swBreakpoints i = none := hnone i
      rw [hi] at hb
      exact absurd hb (by simp))
    have htext : clean = m.text := hpatched.eq_base hnone
    have hcell := hmem a
    dsimp only at hcell
    rw [hcell, hover, Option.none_or, htext]
  · intro i b a hb ha
    have hcell := hmem a
    dsimp only at hcell
    rw [hcell, hpatched.shown i b a hb ha]

/-- The range of a planted breakpoint is mapped, so that it can be written back. -/
theorem Shadowing.slotsMapped (h : Shadowing ((s, k), m)) : s.SlotsMapped k := by
  intro i b hb a ha
  obtain ⟨clean, hpatched, hmem⟩ := h.clean
  have hcell : k.mem s.pid a = (m.overTrap a).or (clean a) := hmem a
  rw [hcell, hpatched.shown i b a hb ha]
  cases m.overTrap a with
  | none => exact SwBreakpoint.put_isSome ha
  | some byte => rfl

/-! ## One call -/

/-- A write on an attached session goes through, where its range is mapped. -/
theorem writeAddrs_cases (hk : k.NoFail) (hpid : s.pid ≠ pidUnused) (startAddr : U32)
    (data : List U8) :
    s.writeAddrs k startAddr data = (false, k) ∨
      s.writeAddrs k startAddr data = (true, k.wrote s.pid startAddr data) := by
  have hattached : s.getPid = some s.pid := getPid_eq_some.mpr ⟨hpid, rfl⟩
  rw [writeAddrs, hattached]
  by_cases hmapped : (ByteMem.read (k.mem s.pid) startAddr data.length).isSome
  · exact .inr (by simp only [Kernel.writeUserText_ok hk hmapped])
  · refine .inl ?_
    simp only [Kernel.writeUserText, Kernel.ksceKernelCopyToUserProcTextDomain, if_neg hmapped]

/-- A call that writes nothing and plants nothing new leaves the shadow where it is. -/
theorem Shadow.after_same {x y : GdbSessionInner × Kernel} {e : MemCall}
    (hnothing : ∀ a, writtenAt x e a = none) :
    (m.after x y e).text = m.text ∧
      ∀ a, (m.after x y e).overTrap a =
        match y.1.plantedAt a with
        | some _ => m.overTrap a
        | none => none := by
  constructor
  · funext a
    simp only [after, hnothing, Option.none_or]
    split <;> rfl
  · intro a
    simp only [after, hnothing, Option.none_or]

/-- A call that changes neither the session nor the kernel, and writes nothing. -/
theorem Shadowing.same (h : Shadowing ((s, k), m)) {m' : Shadow} (htext : m'.text = m.text)
    (hover : ∀ a, m'.overTrap a =
      match s.plantedAt a with
      | some _ => m.overTrap a
      | none => none) : Shadowing ((s, k), m') := by
  have hsame : m'.overTrap = m.overTrap := by
    funext a
    rw [hover]
    split
    · rfl
    · next hno => exact (h.overTrap a hno).symm
  have heq : m' = m := by
    cases m
    cases m'
    cases htext
    cases hsame
    rfl
  exact heq ▸ h

/-- **A write.** -/
theorem Shadowing.write (h : Shadowing ((s, k), m)) (startAddr : U32) (data : List U8) :
    Shadowing (memCall (s, k) (.write startAddr data),
      m.after (s, k) (memCall (s, k) (.write startAddr data)) (.write startAddr data)) := by
  obtain ⟨clean, hpatched, hmem⟩ := h.clean
  have hk : k.NoFail := h.noFail
  rcases writeAddrs_cases (s := s) hk h.attached startAddr data with heq | heq
  · -- nothing is mapped there, and nothing written
    have hnothing : ∀ a, writtenAt (s, k) (.write startAddr data) a = none := by
      intro a
      simp only [writtenAt, heq, Bool.false_eq_true, if_false]
    obtain ⟨htext, hover⟩ := m.after_same (y := memCall (s, k) (.write startAddr data)) hnothing
    simp only [memCall, heq] at htext hover ⊢
    exact h.same htext hover
  · have hwritten : ∀ a, writtenAt (s, k) (.write startAddr data) a =
        data[(a - startAddr).toNat]? := by
      intro a
      simp only [writtenAt, heq, if_true]
    have hcell : ∀ a, (k.wrote s.pid startAddr data).mem s.pid a =
        (data[(a - startAddr).toNat]?).or (k.mem s.pid a) := by
      intro a
      rw [Kernel.wrote_mem, ByteMem.write_apply]
    simp only [memCall, heq]
    refine ⟨hk, h.attached, ⟨fun a => match s.plantedAt a with
      | some _ => clean a
      | none => (data[(a - startAddr).toNat]?).or (clean a), ?_, ?_⟩, ?_⟩
    · refine hpatched.edit (fun i b a hb ha => ?_) fun a ha => ?_
      · obtain ⟨b', hb'⟩ := plantedAt_some hb ha
        simp only [Shadow.after, hb', and_self]
      · have hno := plantedAt_none.mpr ha
        simp only [Shadow.after, hno, hwritten]
        rw [hpatched.untouched a ha]
    · intro a
      have hold : k.mem s.pid a = (m.overTrap a).or (clean a) := hmem a
      dsimp only [Shadow.after]
      rw [hcell, hold, hwritten]
      cases hp : s.plantedAt a with
      | some b => exact Option.or_assoc.symm
      | none =>
        have hover : m.overTrap a = none := h.overTrap a hp
        rw [hover, Option.none_or, Option.none_or]
    · intro a ha
      simp only [Shadow.after, ha]

/-- **A call that plants**, apart from the planted ranges. -/
theorem Shadowing.set (h : Shadowing ((s, k), m)) (addr : U32) (kind : ArmBreakpointKind)
    (hapart : PlantsApart (s, k) (.set addr kind)) :
    Shadowing (memCall (s, k) (.set addr kind),
      m.after (s, k) (memCall (s, k) (.set addr kind)) (.set addr kind)) := by
  obtain ⟨clean, hpatched, hmem⟩ := h.clean
  have hk : k.NoFail := h.noFail
  obtain ⟨htext, hover⟩ := m.after_same (x := (s, k)) (y := memCall (s, k) (.set addr kind))
    (e := .set addr kind) fun _ => rfl
  rcases setSwBreakpoint_cases s k addr kind with ⟨r, heq, -⟩ | ⟨pid, i, orig, hc⟩
  · simp only [memCall, heq] at htext hover ⊢
    exact h.same htext hover
  · obtain ⟨-, rfl⟩ := getPid_eq_some.mp hc.owned
    have hdisj := hapart ⟨s.pid, i, orig, hc⟩
    -- nothing is over the range that is about to be planted
    have hfresh : ∀ a, ByteMem.InRange addr (patchLen kind) a → s.plantedAt a = none :=
      fun a ha => plantedAt_none.mpr fun j b hb hab =>
        Set.disjoint_left.mp (hdisj j b hb) ha hab
    have hread : ByteMem.read clean addr (patchLen kind) = some orig := by
      rw [← hc.read]
      refine ByteMem.read_congr ?_ fun a ha => ?_
      · rcases patchLen_eq_two_or_four kind with h2 | h4 <;> omega
      · have hold : k.mem s.pid a = (m.overTrap a).or (clean a) := hmem a
        have hnone : m.overTrap a = none := h.overTrap a (hfresh a ha)
        rw [hold, hnone, Option.none_or]
    simp only [memCall, hc.setSwBreakpoint_noFail hk] at htext hover ⊢
    refine ⟨hk, h.attached, ⟨ByteMem.write clean addr (patched kind), ?_, fun a => ?_⟩,
      fun a ha => ?_⟩
    · dsimp only
      rw [htext]
      exact patched_plant hpatched hc.slot_free hdisj hread
    · dsimp only
      have hold : k.mem s.pid a = (m.overTrap a).or (clean a) := hmem a
      show (k.wrote s.pid addr (patched kind)).mem s.pid a = _
      rw [hover, Kernel.wrote_mem, ByteMem.write_apply, ByteMem.write_apply, hold]
      by_cases ha : ByteMem.InRange addr (patchLen kind) a
      · have hnone : m.overTrap a = none := h.overTrap a (hfresh a ha)
        rw [hnone]
        split <;> rfl
      · have hpast : (patched kind)[(a - addr).toNat]? = none := by
          rw [List.getElem?_eq_none_iff, patched_length]
          exact Nat.le_of_not_lt ha
        rw [hpast, Option.none_or, Option.none_or]
        split
        · rfl
        · next hno =>
          have hnone : m.overTrap a = none := h.overTrap a (plantedAt_none.mpr fun j b hb => by
            have hji : j ≠ i := by
              rintro rfl
              rw [hc.slot_free] at hb
              exact absurd hb (by simp)
            exact plantedAt_none.mp hno j b ((Function.update_of_ne hji _ _).trans hb))
          rw [hnone]
    · dsimp only at ha ⊢
      rw [hover, ha]

/-- **A removal.** -/
theorem Shadowing.clear (h : Shadowing ((s, k), m)) (addr : U32) :
    Shadowing (memCall (s, k) (.clear addr),
      m.after (s, k) (memCall (s, k) (.clear addr)) (.clear addr)) := by
  obtain ⟨clean, hpatched, hmem⟩ := h.clean
  have hk : k.NoFail := h.noFail
  obtain ⟨htext, hover⟩ := m.after_same (x := (s, k)) (y := memCall (s, k) (.clear addr))
    (e := .clear addr) fun _ => rfl
  rcases clearSwBreakpoint_noFail hk h.slotsMapped h.attached addr with
    ⟨heq, -⟩ | ⟨i, b, hb, -, heq⟩
  · simp only [memCall, heq] at htext hover ⊢
    exact h.same htext hover
  · simp only [memCall, heq] at htext hover ⊢
    refine ⟨hk, h.attached, ⟨ByteMem.write clean b.addr b.saved, ?_, fun a => ?_⟩, fun a ha => ?_⟩
    · dsimp only
      rw [htext]
      exact patched_restore hpatched hb
    · dsimp only
      have hold : k.mem s.pid a = (m.overTrap a).or (clean a) := hmem a
      show (k.wrote s.pid b.addr b.saved).mem s.pid a = _
      rw [hover, Kernel.wrote_mem, ByteMem.write_apply, ByteMem.write_apply, hold]
      by_cases ha : a ∈ b.area
      · -- nothing is planted there any more
        have hno : (s.withSlot i none).plantedAt a = none := by
          refine plantedAt_none.mpr fun j b' hb' ha' => ?_
          by_cases hji : j = i
          · rw [hji, withSlot_swBreakpoints, Function.update_self] at hb'
            exact absurd hb' (by simp)
          · rw [withSlot_swBreakpoints, Function.update_of_ne hji] at hb'
            exact Set.disjoint_left.mp (hpatched.disjoint j i b' b hb' hb hji) ha' ha
        have hbyte : ∃ byte, b.saved[(a - b.addr).toNat]? = some byte := by
          have hlt : (a - b.addr).toNat < b.saved.length := by
            rw [b.saved_length]
            exact ha
          exact ⟨_, List.getElem?_eq_getElem hlt⟩
        obtain ⟨byte, hbyte⟩ := hbyte
        rw [hno, hbyte]
        rfl
      · have hpast : b.saved[(a - b.addr).toNat]? = none := by
          rw [List.getElem?_eq_none_iff, b.saved_length]
          exact Nat.le_of_not_lt ha
        rw [hpast, Option.none_or, Option.none_or]
        split
        · rfl
        · next hno =>
          have hnone : m.overTrap a = none := h.overTrap a (plantedAt_none.mpr fun j b' hb' ha' => by
            by_cases hji : j = i
            · subst hji
              rw [hb, Option.some.injEq] at hb'
              exact ha (hb' ▸ ha')
            · exact plantedAt_none.mp hno j b' ((Function.update_of_ne hji _ _).trans hb') ha')
          rw [hnone]
    · dsimp only at ha ⊢
      rw [hover, ha]

/-- One call. -/
theorem Shadowing.step {x y : (GdbSessionInner × Kernel) × Shadow} {call : MemCall}
    (h : Shadowing x) (hapart : MemApart x.1 call) (hy : shadowStep x call = some y) :
    Shadowing y := by
  obtain ⟨⟨s, k⟩, m⟩ := x
  rw [← Option.some.inj hy]
  cases call with
  | write startAddr data => exact h.write startAddr data
  | set addr kind => exact h.set addr kind hapart
  | clear addr => exact h.clear addr

/-! ## Whole runs -/

/-- A session without breakpoints, whose text is that of the program. -/
def unshadowed (s : GdbSessionInner) (k : Kernel) : (GdbSessionInner × Kernel) × Shadow :=
  ((s, k), ⟨k.mem s.pid, fun _ => none⟩)

/-- **What is left of the debugger's writes**: along every run of an attached session, breakpoints
    planted apart and written ranges anywhere, the text without breakpoints is the original one
    with the part of each write that met no planted range, in order; and a planted range shows its
    trap, but for the bytes written over it. -/
theorem writes_shadowed (s : GdbSessionInner) (k : Kernel) (calls : List MemCall)
    (hpid : s.pid ≠ pidUnused) (hfresh : s.swBreakpoints = SlotTable.empty) (hk : k.NoFail)
    (hapart : LTS.Along shadowStep (fun x => MemApart x.1) (unshadowed s k) calls)
    (x : GdbSessionInner × Kernel) (m : Shadow)
    (hrun : LTS.exec shadowStep (unshadowed s k) calls = some (x, m)) : Shadows x m := by
  have hstart : Shadowing (unshadowed s k) := by
    refine ⟨hk, hpid, ⟨k.mem s.pid, ?_, fun _ => rfl⟩, fun _ _ => rfl⟩
    show UndoTable.Patched _ _ _ (k.mem s.pid) (k.mem s.pid) s.swBreakpoints
    rw [hfresh]
    exact UndoTable.Patched.start (k.mem s.pid)
  exact (LTS.exec_invariant (fun _ _ _ hx hc hy => Shadowing.step hx hc hy) calls hstart hapart
    hrun).shadows

/-- A breakpoint, a write across its end, and its removal. -/
def writeAcross : List MemCall :=
  [.set 0x1000#32 .arm32, .write 0x1002#32 [1#8, 2#8, 3#8, 4#8], .clear 0x1000#32]

theorem writes_shadowed_across :
    ∃ x m, LTS.exec shadowStep (unshadowed freshSession (Kernel.quiet countingText)) writeAcross =
      some (x, m) ∧ Shadows x m := by
  refine ⟨_, _, rfl, writes_shadowed freshSession (Kernel.quiet countingText) writeAcross (by decide)
    rfl (Kernel.quiet_noFail _) ?_ _ _ rfl⟩
  exact .cons rfl (plantsApart_of_offsets (by decide)) (.cons rfl trivial (.cons rfl trivial trivial))

/-- The text with every byte written that a run's calls have written, in order. -/
def applied : List MemCall → GdbSessionInner × Kernel → UserMem → UserMem
  | [], _, text => text
  | call :: calls, x, text =>
    applied calls (memCall x call) fun a => (writtenAt x call a).or (text a)

/-- **A write over a planted trap** is undone when the breakpoint is removed. -/
theorem writes_not_kept :
    ¬ ∀ (s : GdbSessionInner) (k : Kernel) (calls : List MemCall) (x : GdbSessionInner × Kernel)
      (m : Shadow), s.pid ≠ pidUnused → s.swBreakpoints = SlotTable.empty → k.NoFail →
      LTS.Along shadowStep (fun x => MemApart x.1) (unshadowed s k) calls →
      LTS.exec shadowStep (unshadowed s k) calls = some (x, m) →
      (∀ i, x.1.swBreakpoints i = none) →
      x.2.mem x.1.pid = applied calls (s, k) (k.mem s.pid) := by
  intro hclaim
  have htext := hclaim freshSession (Kernel.quiet countingText) writeAcross _ _ (by decide) rfl
    (Kernel.quiet_noFail _) (.cons rfl (plantsApart_of_offsets (by decide))
      (.cons rfl trivial (.cons rfl trivial trivial))) rfl (by decide)
  exact absurd (congrFun htext 0x1002#32) (by decide)

end VitaGdb
