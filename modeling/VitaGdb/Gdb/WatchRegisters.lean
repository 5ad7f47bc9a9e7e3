/-
  The watchpoint table and the watchpoint registers.

  A session keeps a table of what it has armed, and the registers themselves belong to the kernel.
  A run is any list of `setHwWatchpoint`, `clearHwWatchpoint` and `clearAll` calls, any of whose
  kernel calls may fail.  `WatchesAgree` is what the table is for: a register is armed for an
  address and a kind exactly while its slot says so; `SetsTruthfully` is what the answer of
  `setHwWatchpoint` promises.

  `setHwWatchpoint` takes the first OCCUPIED slot for the one to update, whatever its address, so a
  table never has a second entry; and `clearAll` switches the registers off and leaves the slots.
  `WatchSafe` is where neither shows: `watchpoints_agree_iff` says that a run keeps table and
  registers together, and its answers true, exactly where each of its calls is `WatchSafe`.
-/
import VitaGdb.Lib.Runs
import VitaGdb.Gdb.SwPatches

namespace VitaGdb

open GdbSessionInner
open SlotTable (Table Mirrors)

/-! ## Runs of watchpoint calls -/

inductive WatchCall where
  | set (addr len : U32) (kind : WatchKind)
  | clear (addr : U32)
  | clearAll

/-- A session and the kernel after a call. -/
def watchCall (x : GdbSessionInner × Kernel) : WatchCall → GdbSessionInner × Kernel
  | .set addr len kind => (x.1.setHwWatchpoint x.2 addr len kind).2
  | .clear addr => (x.1.clearHwWatchpoint x.2 addr).2
  | .clearAll => x.1.clearAll x.2

def watchStep (x : GdbSessionInner × Kernel) (call : WatchCall) :
    Option (GdbSessionInner × Kernel) := some (watchCall x call)

/-- What a register holds that is armed for an entry of the table. -/
def watchRegister (wp : HwWatchpoint) : U32 × U32 := (wp.addr, wpControl wp.kind)

/-- A register holds address and kind of an entry exactly while its slot holds the entry. -/
def WatchesAgree (x : GdbSessionInner × Kernel) : Prop :=
  Mirrors watchRegister (x.2.phwp x.1.pid) x.1.hwWatchpoints

/-- A watchpoint of one kind reports the accesses of another. -/
def WatchKind.covers : WatchKind → WatchKind → Bool
  | .readWrite, _ => true
  | kind, requested => kind = requested

/-- Some register is armed for the address, with a kind that covers the requested one. -/
def Watched (x : GdbSessionInner × Kernel) (addr : U32) (requested : WatchKind) : Prop :=
  ∃ i kind, x.2.phwp x.1.pid i = watchRegister ⟨addr, kind⟩ ∧ kind.covers requested = true

/-- Some register is armed for the address. -/
def Armed (x : GdbSessionInner × Kernel) (addr : U32) : Prop :=
  ∃ i kind, x.2.phwp x.1.pid i = watchRegister ⟨addr, kind⟩

/-- A request that is answered true is watched, and every other armed address stays armed. -/
def SetsTruthfully (x : GdbSessionInner × Kernel) (addr len : U32) (kind : WatchKind) : Prop :=
  (x.1.setHwWatchpoint x.2 addr len kind).1 = .ok true →
    Watched (watchCall x (.set addr len kind)) addr kind ∧
      ∀ other, other ≠ addr → Armed x other → Armed (watchCall x (.set addr len kind)) other

/-- After the call table and registers agree, and its answer is true of them. -/
def WatchOk (x : GdbSessionInner × Kernel) (call : WatchCall) : Prop :=
  WatchesAgree (watchCall x call) ∧
    match call with
    | .set addr len kind => SetsTruthfully x addr len kind
    | _ => True

/-- The next register call, after `n` others, fails. -/
def registerFails (k : Kernel) (n : Nat) : Bool := (k.ret (k.calls + n)).slt 0#32

/-- A watchpoint is set at the address of the one there is, if there is one (or asks for another
    kind than that one's, and the register call fails); `clearAll` finds none (or the register
    call, which follows those for the breakpoints, fails). -/
def WatchSafe (x : GdbSessionInner × Kernel) : WatchCall → Prop
  | .set addr _ kind => ∀ i, ∀ wp ∈ x.1.hwWatchpoints i,
      wp.addr = addr ∨ wp.kind ≠ kind ∧ registerFails x.2 0
  | .clear _ => True
  | .clearAll => ∀ i, ∀ wp ∈ x.1.hwWatchpoints i,
      registerFails x.2 (SlotTable.occupied x.1.hwBreakpoints)

instance (x : GdbSessionInner × Kernel) : (call : WatchCall) → Decidable (WatchSafe x call)
  | .set addr _ kind =>
    @Nat.decidableForallFin 3 (fun i => ∀ wp ∈ x.1.hwWatchpoints i,
      wp.addr = addr ∨ wp.kind ≠ kind ∧ registerFails x.2 0)
      fun i => Option.decidableForallMem (x.1.hwWatchpoints i)
  | .clear _ => isTrue trivial
  | .clearAll =>
    @Nat.decidableForallFin 3 (fun i => ∀ wp ∈ x.1.hwWatchpoints i,
      registerFails x.2 (SlotTable.occupied x.1.hwBreakpoints))
      fun i => Option.decidableForallMem (x.1.hwWatchpoints i)

/-! ## Registers that are armed -/

theorem wpControl_ne_zero (kind : WatchKind) : wpControl kind ≠ 0#32 := by
  cases kind <;> decide

theorem wpControl_injective : Function.Injective wpControl := by
  intro a b h
  cases a <;> cases b <;> first | rfl | exact absurd h (by decide)

theorem watchRegister_injective : Function.Injective watchRegister := by
  rintro ⟨addr, kind⟩ ⟨addr', kind'⟩ h
  obtain ⟨rfl, hcontrol⟩ := Prod.mk.inj h
  exact congrArg (HwWatchpoint.mk addr) (wpControl_injective hcontrol)

theorem watchRegister_ne_off (wp : HwWatchpoint) : watchRegister wp ≠ (0#32, 0#32) := fun h =>
  wpControl_ne_zero wp.kind (congrArg Prod.snd h)

theorem WatchKind.covers_refl (kind : WatchKind) : kind.covers kind = true := by
  cases kind <;> rfl

/-! ## What each call does -/

/-- What holds along a run: the session is attached and debug enabled, table and registers agree,
    and the table has one entry at most. -/
structure Watching (x : GdbSessionInner × Kernel) : Prop where
  attached : x.1.pid ≠ pidUnused
  debug : x.2.isDebugEnabled = true
  agree : WatchesAgree x
  single : ∀ i j a b, x.1.hwWatchpoints i = some a → x.1.hwWatchpoints j = some b → i = j

/-- The session with one slot of its watchpoints replaced. -/
def GdbSessionInner.withWatch (s : GdbSessionInner) (i : Fin 3) (slot : Option HwWatchpoint) :
    GdbSessionInner := { s with hwWatchpoints := Function.update s.hwWatchpoints i slot }

namespace Watching

variable {s : GdbSessionInner} {k : Kernel}

theorem getPid (h : Watching (s, k)) : s.getPid = some s.pid :=
  getPid_eq_some.mpr ⟨h.attached, rfl⟩

/-- A table has an entry, or none. -/
theorem entry_or_empty (s : GdbSessionInner) :
    (∃ i wp, s.hwWatchpoints i = some wp) ∨ s.hwWatchpoints = SlotTable.empty := by
  by_cases h : ∃ i wp, s.hwWatchpoints i = some wp
  · exact .inl h
  · refine .inr (funext fun i => ?_)
    by_contra hi
    obtain ⟨wp, hwp⟩ := Option.ne_none_iff_exists'.mp hi
    exact h ⟨i, wp, hwp⟩

/-- The entry there is is the one the first loop stops at: a request for its kind is answered true
    and nothing is done, any other kind goes to its register, for the REQUESTED address. -/
theorem set_entry (h : Watching (s, k)) {i : Fin 3} {wp : HwWatchpoint}
    (hi : s.hwWatchpoints i = some wp) (addr len : U32) (kind : WatchKind) :
    s.setHwWatchpoint k addr len kind =
      if wp.kind = kind then (.ok true, s, k)
      else
        match k.sceKernelSetPHWP s.pid i addr (wpControl kind) with
        | (.error err, k) => (.err err, s, k)
        | (.ok _, k) => (.ok true, s.withWatch i (some ⟨wp.addr, kind⟩), k) := by
  have hfind := SlotTable.findSlot_single (p := fun _ => true) hi
    (fun j b hb => h.single j i b wp hb hi) rfl
  have hdebug : k.isDebugEnabled = true := h.debug
  rw [setHwWatchpoint, hdebug, h.getPid, hfind]
  rfl

/-- Without an entry the request takes the first slot. -/
theorem set_first (h : Watching (s, k)) (hempty : s.hwWatchpoints = SlotTable.empty) (addr len : U32)
    (kind : WatchKind) :
    s.setHwWatchpoint k addr len kind =
      match k.sceKernelSetPHWP s.pid 0 addr (wpControl kind) with
      | (.error err, k) => (.err err, s, k)
      | (.ok _, k) => (.ok true, s.withWatch 0 (some ⟨addr, kind⟩), k) := by
  have hdebug : k.isDebugEnabled = true := h.debug
  have hfree : SlotTable.freeSlot s.hwWatchpoints = some 0 := by
    rw [hempty]
    rfl
  have hfind : SlotTable.findSlot (fun _ => true) s.hwWatchpoints = none := by
    rw [hempty]
    exact SlotTable.findSlot_empty _
  rw [setHwWatchpoint, hdebug, h.getPid, hfind, hfree]
  rfl

/-- A removal at an address without an entry does nothing; at the entry's it switches its register
    off. -/
theorem clear_cases (h : Watching (s, k)) (addr : U32) :
    s.clearHwWatchpoint k addr = (.ok false, s, k) ∨
    ∃ i wp, s.hwWatchpoints i = some wp ∧ s.clearHwWatchpoint k addr =
      match k.sceKernelSetPHWP s.pid i 0#32 0#32 with
      | (.error err, k) => (.err err, s, k)
      | (.ok _, k) => (.ok true, s.withWatch i none, k) := by
  have hdebug : k.isDebugEnabled = true := h.debug
  rcases hfind : SlotTable.findSlot (fun wp => wp.addr = addr) s.hwWatchpoints with _ | ⟨i, wp⟩
  · refine .inl ?_
    rw [clearHwWatchpoint, hdebug, h.getPid, hfind]
    rfl
  · refine .inr ⟨i, wp, (SlotTable.findSlot_some hfind).1, ?_⟩
    rw [clearHwWatchpoint, hdebug, h.getPid, hfind]
    rfl

/-- `clearAll` keeps the slots; its calls for the breakpoints come before those for the
    watchpoints, and those for the text after them. -/
theorem clearAll_registers (s : GdbSessionInner) (k : Kernel) :
    ∃ k₁ : Kernel, k₁.ret k₁.calls = k.ret (k.calls + SlotTable.occupied s.hwBreakpoints) ∧
      k₁.phwp = k.phwp ∧ k₁.dipswDebug = k.dipswDebug ∧
      let k₂ := (SlotTable.drain (fun k idx _ => (k.sceKernelSetPHWP s.pid idx 0#32 0#32).2)
        s.hwWatchpoints k₁).2
      (s.clearAll k).2.phwp = k₂.phwp ∧ (s.clearAll k).2.dipswDebug = k₂.dipswDebug := by
  -- one call for every breakpoint, and neither loop around sets a watchpoint register
  have hone : ∀ (k : Kernel) idx, (k.sceKernelSetPHBP s.pid idx 0#32 0#32).2.calls = k.calls + 1 :=
    fun _ _ => Kernel.sceCall_calls fun _ => rfl
  have hcalls : (SlotTable.drain (fun k idx _ => (k.sceKernelSetPHBP s.pid idx 0#32 0#32).2)
      s.hwBreakpoints k).2.calls = k.calls + SlotTable.occupied s.hwBreakpoints :=
    SlotTable.drain_count Kernel.calls (fun k idx _ => hone k idx) s.hwBreakpoints k
  have hbps : ∀ {β : Type} (f : Kernel → β), (∀ k n, f { k with calls := n } = f k) →
      (∀ k regs, f { k with phbp := regs } = f k) →
      f (SlotTable.drain (fun k idx _ => (k.sceKernelSetPHBP s.pid idx 0#32 0#32).2)
        s.hwBreakpoints k).2 = f k := fun f hcount hregs =>
    SlotTable.drain_proj f (fun _ _ _ => Kernel.sceCall_proj f hcount fun k => hregs k _) _ _
  have hsws : ∀ {β : Type} (f : Kernel → β), (∀ k n, f { k with calls := n } = f k) →
      (∀ k mem, f { k with mem := mem } = f k) → (∀ k n, f { k with intr := n } = f k) →
      (∀ k pid, f { k with context := pid } = f k) → ∀ k,
      f (SlotTable.drain (fun k _ b => (restoreSwSlot k s.pid (some b)).2.2)
        s.swBreakpoints k).2 = f k := fun f hcount hmem hintr hcontext k =>
    SlotTable.drain_proj f (fun k _ (b : SwBreakpoint) =>
      Kernel.writeUserText_proj f hcount hmem hintr hcontext k s.pid b.addr b.saved) _ _
  refine ⟨_, ?_, hbps Kernel.phwp (fun _ _ => rfl) (fun _ _ => rfl),
    hbps Kernel.dipswDebug (fun _ _ => rfl) (fun _ _ => rfl), ?_, ?_⟩
  · rw [hcalls, hbps Kernel.ret (fun _ _ => rfl) (fun _ _ => rfl)]
  · exact hsws Kernel.phwp (fun _ _ => rfl) (fun _ _ => rfl) (fun _ _ => rfl) (fun _ _ => rfl) _
  · exact hsws Kernel.dipswDebug (fun _ _ => rfl) (fun _ _ => rfl) (fun _ _ => rfl)
      (fun _ _ => rfl) _

end Watching

/-! ## One call -/

variable {s : GdbSessionInner} {k : Kernel}

theorem WatchesAgree.arm (h : WatchesAgree (s, k)) (i : Fin 3) (wp : HwWatchpoint) :
    WatchesAgree (s.withWatch i (some wp), k.withPHWP s.pid i (watchRegister wp)) := by
  show Mirrors _ ((k.withPHWP s.pid i _).phwp s.pid) _
  rw [Kernel.withPHWP_phwp]
  exact h.claim watchRegister_injective i wp

theorem WatchesAgree.off (h : WatchesAgree (s, k)) (i : Fin 3) :
    WatchesAgree (s.withWatch i none, k.withPHWP s.pid i (0#32, 0#32)) := by
  show Mirrors _ ((k.withPHWP s.pid i _).phwp s.pid) _
  rw [Kernel.withPHWP_phwp]
  exact h.release watchRegister_ne_off i

/-- What is armed is in the table. -/
theorem WatchesAgree.armed (h : WatchesAgree (s, k)) {addr : U32} (harmed : Armed (s, k) addr) :
    ∃ i wp, s.hwWatchpoints i = some wp ∧ wp.addr = addr := by
  obtain ⟨i, kind, hi⟩ := harmed
  exact ⟨i, ⟨addr, kind⟩, (h i _).mp hi, rfl⟩

/-- A register that was just armed is watched. -/
theorem watched_withPHWP (s s' : GdbSessionInner) (k : Kernel) (i : Fin 3) (addr : U32)
    (kind : WatchKind) (hpid : s'.pid = s.pid) :
    Watched (s', k.withPHWP s.pid i (addr, wpControl kind)) addr kind := by
  refine ⟨i, kind, ?_, kind.covers_refl⟩
  show (k.withPHWP s.pid i _).phwp s'.pid i = _
  rw [hpid, Kernel.withPHWP_phwp, Function.update_self]
  rfl

/-- **A request on a table with an entry** keeps the promise exactly where it is for the entry's
    address, or its register call fails. -/
theorem Watching.set_entry_iff (h : Watching (s, k)) {i : Fin 3} {wp : HwWatchpoint}
    (hi : s.hwWatchpoints i = some wp) (addr len : U32) (kind : WatchKind) :
    WatchOk (s, k) (.set addr len kind) ↔
      wp.addr = addr ∨ wp.kind ≠ kind ∧ registerFails k 0 := by
  have hset := h.set_entry hi addr len kind
  have hagree : WatchesAgree (s, k) := h.agree
  by_cases hkind : wp.kind = kind
  · rw [if_pos hkind] at hset
    simp only [WatchOk, SetsTruthfully, watchCall, hset]
    constructor
    · rintro ⟨-, htrue⟩
      obtain ⟨⟨j, kind', hj, -⟩, -⟩ := htrue trivial
      have hslot : s.hwWatchpoints j = some ⟨addr, kind'⟩ := (hagree j _).mp hj
      obtain rfl := h.single j i _ _ hslot hi
      rw [hi, Option.some.injEq] at hslot
      exact .inl (by rw [hslot])
    · rintro (rfl | ⟨hne, -⟩)
      · refine ⟨hagree, fun _ => ⟨⟨i, wp.kind, (hagree i wp).mpr hi, ?_⟩, fun _ _ ha => ha⟩⟩
        rw [hkind]
        exact kind.covers_refl
      · exact absurd hkind hne
  · rw [if_neg hkind] at hset
    rcases k.sceKernelSetPHWP_cases s.pid i addr (wpControl kind) with
      ⟨hfails, err, heq⟩ | ⟨hgoes, code, heq⟩ <;> rw [heq] at hset <;>
      simp only [WatchOk, SetsTruthfully, watchCall, hset]
    · exact ⟨fun _ => .inr ⟨hkind, hfails⟩, fun _ => ⟨hagree, fun hok => absurd hok (by simp)⟩⟩
    · constructor
      · rintro ⟨hafter, -⟩
        -- the register holds the requested address, the slot that of the entry
        have hreg : (k.withPHWP s.pid i (addr, wpControl kind)).phwp s.pid i =
            watchRegister ⟨addr, kind⟩ := by
          rw [Kernel.withPHWP_phwp, Function.update_self]
          rfl
        have hslot : (s.withWatch i (some ⟨wp.addr, kind⟩)).hwWatchpoints i = some ⟨addr, kind⟩ :=
          (hafter i _).mp hreg
        have hself : (s.withWatch i (some ⟨wp.addr, kind⟩)).hwWatchpoints i =
            some ⟨wp.addr, kind⟩ := Function.update_self i _ s.hwWatchpoints
        rw [hself, Option.some.injEq, HwWatchpoint.mk.injEq] at hslot
        exact .inl hslot.1
      · rintro (rfl | ⟨-, hfails⟩)
        · refine ⟨hagree.arm i ⟨wp.addr, kind⟩, fun _ =>
            ⟨watched_withPHWP s _ k i wp.addr kind rfl, fun other hne harmed => ?_⟩⟩
          obtain ⟨j, wp', hj, rfl⟩ := hagree.armed harmed
          obtain rfl := h.single j i _ _ hj hi
          rw [hi, Option.some.injEq] at hj
          exact absurd (by rw [hj]) hne
        · exact absurd (hgoes.symm.trans hfails) (by simp)

/-- On an empty table it keeps the promise. -/
theorem Watching.set_first_ok (h : Watching (s, k)) (hempty : s.hwWatchpoints = SlotTable.empty)
    (addr len : U32) (kind : WatchKind) : WatchOk (s, k) (.set addr len kind) := by
  have hset := h.set_first hempty addr len kind
  have hagree : WatchesAgree (s, k) := h.agree
  rcases k.sceKernelSetPHWP_cases s.pid 0 addr (wpControl kind) with
    ⟨-, err, heq⟩ | ⟨-, code, heq⟩ <;> rw [heq] at hset <;>
    simp only [WatchOk, SetsTruthfully, watchCall, hset]
  · exact ⟨hagree, fun hok => absurd hok (by simp)⟩
  · refine ⟨hagree.arm 0 ⟨addr, kind⟩, fun _ =>
      ⟨watched_withPHWP s _ k 0 addr kind rfl, fun other hne harmed => ?_⟩⟩
    obtain ⟨j, wp', hj, -⟩ := hagree.armed harmed
    rw [hempty] at hj
    exact absurd hj (by simp)

/-- A removal always keeps it. -/
theorem Watching.clear_ok (h : Watching (s, k)) (addr : U32) : WatchOk (s, k) (.clear addr) := by
  have hagree : WatchesAgree (s, k) := h.agree
  rcases h.clear_cases addr with heq | ⟨i, wp, -, heq⟩
  · simp only [WatchOk, watchCall, heq]
    exact ⟨hagree, trivial⟩
  · rcases k.sceKernelSetPHWP_cases s.pid i 0#32 0#32 with ⟨-, err, hcall⟩ | ⟨-, code, hcall⟩ <;>
      rw [hcall] at heq <;> simp only [WatchOk, watchCall, heq]
    · exact ⟨hagree, trivial⟩
    · exact ⟨hagree.off i, trivial⟩

/-- **`clearAll`** keeps it where no slot is occupied, or its register call fails. -/
theorem Watching.clearAll_iff (h : Watching (s, k)) :
    WatchOk (s, k) .clearAll ↔ WatchSafe (s, k) .clearAll := by
  obtain ⟨k₁, hret, hphwp, -, hafter, -⟩ := Watching.clearAll_registers s k
  have hagree : WatchesAgree (s, k) := h.agree
  have hok : WatchOk (s, k) .clearAll ↔
      Mirrors watchRegister ((s.clearAll k).2.phwp s.pid) s.hwWatchpoints := iff_of_eq (and_true _)
  rw [hok, hafter]
  rcases Watching.entry_or_empty s with ⟨i, wp, hi⟩ | hempty
  · rw [SlotTable.drain_single _ hi (fun j b hb => h.single j i b wp hb hi)]
    dsimp only
    rcases k₁.sceKernelSetPHWP_cases s.pid i 0#32 0#32 with
      ⟨hfails, err, heq⟩ | ⟨hgoes, code, heq⟩ <;> rw [hret] at * <;> rw [heq]
    · constructor
      · exact fun _ _ _ _ => hfails
      · intro _
        show Mirrors watchRegister (k₁.phwp s.pid) s.hwWatchpoints
        rw [hphwp]
        exact hagree
    · constructor
      · intro hmirrors
        have hreg := (hmirrors i wp).mpr hi
        rw [Kernel.withPHWP_phwp, Function.update_self] at hreg
        exact absurd hreg.symm (watchRegister_ne_off wp)
      · intro hsafe
        exact absurd (hgoes.symm.trans (hsafe i wp hi)) (by simp)
  · rw [hempty, SlotTable.drain_empty, hphwp, ← hempty]
    refine ⟨fun _ i wp hi => ?_, fun _ => hagree⟩
    have hi' : s.hwWatchpoints i = some wp := hi
    rw [hempty] at hi'
    exact absurd hi' (by simp)

/-- **One call keeps table and registers together, and its promise, exactly where it is safe.** -/
theorem watchOk_iff {x : GdbSessionInner × Kernel} (h : Watching x) (call : WatchCall) :
    WatchOk x call ↔ WatchSafe x call := by
  obtain ⟨s, k⟩ := x
  cases call with
  | set addr len kind =>
    rcases Watching.entry_or_empty s with ⟨i, wp, hi⟩ | hempty
    · rw [h.set_entry_iff hi addr len kind]
      constructor
      · intro hsafe j wp' hj
        obtain rfl := h.single j i _ _ hj hi
        have hj' : s.hwWatchpoints j = some wp' := hj
        rw [hi, Option.some.injEq] at hj'
        exact hj' ▸ hsafe
      · exact fun hsafe => hsafe i wp hi
    · refine ⟨fun _ i wp hi => ?_, fun _ => h.set_first_ok hempty addr len kind⟩
      have hi' : s.hwWatchpoints i = some wp := hi
      rw [hempty] at hi'
      exact absurd hi' (by simp)
  | clear addr => exact ⟨fun _ => trivial, fun _ => h.clear_ok addr⟩
  | clearAll => exact h.clearAll_iff

/-! ## Whole runs -/

/-- The kernel goes on. -/
theorem Watching.counted (h : Watching (s, k)) {k' : Kernel} (hdebug : k'.dipswDebug = k.dipswDebug)
    (hagree : WatchesAgree (s, k')) : Watching (s, k') :=
  ⟨h.attached, (show k'.dipswDebug = k.dipswDebug from hdebug).trans h.debug, hagree, h.single⟩

/-- The one slot that may be occupied is replaced. -/
theorem Watching.replaced (h : Watching (s, k)) {i : Fin 3} (slot : Option HwWatchpoint)
    (honly : ∀ j b, s.hwWatchpoints j = some b → j = i) {k' : Kernel}
    (hdebug : k'.dipswDebug = k.dipswDebug) (hagree : WatchesAgree (s.withWatch i slot, k')) :
    Watching (s.withWatch i slot, k') := by
  have hat : ∀ j b, (s.withWatch i slot).hwWatchpoints j = some b → j = i := by
    intro j b hb
    by_contra hj
    have hb' : Function.update s.hwWatchpoints i slot j = some b := hb
    rw [Function.update_of_ne hj] at hb'
    exact hj (honly j b hb')
  refine ⟨h.attached, (show k'.dipswDebug = k.dipswDebug from hdebug).trans h.debug, hagree, ?_⟩
  intro j l a b ha hb
  rw [hat j a ha, hat l b hb]

/-- One call. -/
theorem Watching.step {x : GdbSessionInner × Kernel} (h : Watching x) {call : WatchCall}
    (hok : WatchOk x call) : Watching (watchCall x call) := by
  obtain ⟨s, k⟩ := x
  have hagree : WatchesAgree (watchCall (s, k) call) := hok.1
  cases call with
  | set addr len kind =>
    rcases Watching.entry_or_empty s with ⟨i, wp, hi⟩ | hempty
    · have hset := h.set_entry hi addr len kind
      simp only [watchCall, hset] at hagree ⊢
      split
      · exact h
      · next hkind =>
        rw [if_neg hkind] at hagree
        rcases k.sceKernelSetPHWP_cases s.pid i addr (wpControl kind) with
          ⟨-, err, heq⟩ | ⟨-, code, heq⟩ <;> rw [heq] at hagree ⊢
        · exact h.counted rfl hagree
        · exact h.replaced _ (fun j b hb => h.single j i b wp hb hi) rfl hagree
    · have hset := h.set_first hempty addr len kind
      simp only [watchCall, hset] at hagree ⊢
      rcases k.sceKernelSetPHWP_cases s.pid 0 addr (wpControl kind) with
        ⟨-, err, heq⟩ | ⟨-, code, heq⟩ <;> rw [heq] at hagree ⊢
      · exact h.counted rfl hagree
      · refine h.replaced _ (fun j b hb => ?_) rfl hagree
        rw [hempty] at hb
        exact absurd hb (by simp)
  | clear addr =>
    rcases h.clear_cases addr with heq | ⟨i, wp, hi, heq⟩ <;>
      simp only [watchCall, heq] at hagree ⊢
    · exact h
    · rcases k.sceKernelSetPHWP_cases s.pid i 0#32 0#32 with
        ⟨-, err, hcall⟩ | ⟨-, code, hcall⟩ <;> rw [hcall] at hagree ⊢
      · exact h.counted rfl hagree
      · exact h.replaced _ (fun j b hb => h.single j i b wp hb hi) rfl hagree
  | clearAll =>
    obtain ⟨k₁, -, -, hdebug₁, -, hdebug⟩ := Watching.clearAll_registers s k
    refine ⟨h.attached, ?_, hagree, h.single⟩
    have hregs : ∀ (k : Kernel) i, (k.sceKernelSetPHWP s.pid i 0#32 0#32).2.dipswDebug =
        k.dipswDebug := fun _ _ =>
      Kernel.sceCall_proj Kernel.dipswDebug (fun _ _ => rfl) (fun _ => rfl)
    have hkept : (s.clearAll k).2.dipswDebug = k.dipswDebug :=
      (hdebug.trans (SlotTable.drain_proj Kernel.dipswDebug (fun k i _ => hregs k i) _ _)).trans
        hdebug₁
    exact hkept.trans h.debug

/-- **Table and registers agree along a run, and its answers are true, exactly where each of its
    calls is safe**: from an attached session without watchpoints, with debug enabled and no
    register armed, whichever kernel calls fail. -/
theorem watchpoints_agree_iff (s : GdbSessionInner) (k : Kernel) (calls : List WatchCall)
    (hpid : s.pid ≠ pidUnused) (hdebug : k.isDebugEnabled = true)
    (hfresh : s.hwWatchpoints = SlotTable.empty)
    (hoff : ∀ i wp, k.phwp s.pid i ≠ watchRegister wp) :
    LTS.Along watchStep WatchOk (s, k) calls ↔ LTS.Along watchStep WatchSafe (s, k) calls := by
  have hstart : Watching (s, k) := by
    refine ⟨hpid, hdebug, fun i wp => ?_, fun i j a b ha => ?_⟩
    · rw [hfresh]
      exact ⟨fun he => absurd he (hoff i wp), fun he => absurd he (by simp)⟩
    · have ha' : s.hwWatchpoints i = some a := ha
      rw [hfresh] at ha'
      exact absurd ha' (by simp)
  refine LTS.Along.iff_of_invariant (fun x call hx => watchOk_iff hx call)
    (fun x call y hx hok hy => ?_) calls hstart
  rw [← Option.some.inj hy]
  exact hx.step hok

/-- A watchpoint for writes, widened to all accesses, removed, and another one. -/
def oneWatchpoint : List WatchCall :=
  [.set 0x1000#32 4#32 .write, .set 0x1000#32 4#32 .readWrite, .clear 0x1000#32,
    .set 0x2000#32 4#32 .read]

theorem watchpoints_agree_iff_one :
    LTS.Along watchStep WatchOk (freshSession, Kernel.quiet countingText) oneWatchpoint := by
  refine (watchpoints_agree_iff freshSession (Kernel.quiet countingText) oneWatchpoint (by decide)
    rfl rfl fun i wp h => watchRegister_ne_off wp h.symm).mpr ?_
  decide +kernel

/-- **A second address** is answered true and not watched. -/
theorem watchpoints_not_agree :
    ¬ ∀ (s : GdbSessionInner) (k : Kernel) (calls : List WatchCall), s.pid ≠ pidUnused →
      k.isDebugEnabled = true → s.hwWatchpoints = SlotTable.empty →
      (∀ i wp, k.phwp s.pid i ≠ watchRegister wp) → LTS.Along watchStep WatchOk (s, k) calls := by
  intro hclaim
  have halong := hclaim freshSession (Kernel.quiet countingText)
    [.set 0x1000#32 4#32 .write, .set 0x2000#32 4#32 .write] (by decide) rfl rfl
    fun i wp h => watchRegister_ne_off wp h.symm
  obtain ⟨⟨-, htrue⟩, -⟩ := halong.2 _ rfl
  obtain ⟨⟨i, kind, hi, -⟩, -⟩ := htrue rfl
  revert hi
  cases kind <;> revert i <;> decide

end VitaGdb
