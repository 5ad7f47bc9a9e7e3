/-
  `gdb/multi_thread.rs`: all registers of a thread at once, and one at a time.

  `read_registers` and `read_register` ask the kernel for the same things, the two saved entries
  of a thread and its VFP registers, and pick the same of them.  So a register that is read alone
  has the bytes it has in the packet of all registers, behind the sizes of the registers with
  smaller numbers (`readRegister_slice`).
-/
import VitaGdb.Gdb.Resume

namespace VitaGdb

open RecordBytes

/-- `TargetError`, as far as these calls answer one. -/
inductive TargetError where
  | nonFatal
  deriving DecidableEq, Repr

/-! ## `read_register` -/

/-- `match reg_id`: the core register of an id. -/
def coreValue (thRegs : SceArmCpuRegisters) : Armv7RegId → Outcome TargetError U32
  | .gpr n =>
    match n.toNat with
    | 0 => .ok (thRegs.r 0)
    | 1 => .ok (thRegs.r 1)
    | 2 => .ok (thRegs.r 2)
    | 3 => .ok (thRegs.r 3)
    | 4 => .ok (thRegs.r 4)
    | 5 => .ok (thRegs.r 5)
    | 6 => .ok (thRegs.r 6)
    | 7 => .ok (thRegs.r 7)
    | 8 => .ok (thRegs.r 8)
    | 9 => .ok (thRegs.r 9)
    | 10 => .ok (thRegs.r 10)
    | 11 => .ok (thRegs.r 11)
    | 12 => .ok (thRegs.r 12)
    | _ => .panic
  | .sp => .ok thRegs.sp
  | .lr => .ok thRegs.lr
  | .pc => .ok thRegs.pc
  | .cpsr => .ok thRegs.cpsr
  | .fpscr => .ok thRegs.fpscr
  | .dpr _ => .panic

/-- `vfp[dpr as usize]`. -/
def vfpValue (vfp : Fin 32 → U64) (dpr : U8) : Outcome TargetError U64 :=
  if h : dpr.toNat < 32 then .ok (vfp ⟨dpr.toNat, h⟩) else .panic

/-- `buf.copy_from_slice(..)` and `Ok(buf.len())`: the lengths must be equal. -/
def copyFromSlice (buf bytes : List U8) : Outcome TargetError (Nat × List U8) :=
  if buf.length = bytes.length then .ok (buf.length, bytes) else .panic

namespace VitaTarget

/-- `read_registers`. -/
def readRegisters (t : VitaTarget) (k : Kernel) (tid : SceUID) : Option Armv7Regs × Kernel :=
  if t.session.isNone then (none, k) else VitaGdb.readRegisters k tid

/-- `read_register`: the number of bytes, and the buffer. -/
def readRegister (t : VitaTarget) (k : Kernel) (tid : SceUID) (regId : Armv7RegId) (buf : List U8) :
    Outcome TargetError (Nat × List U8) × Kernel :=
  if t.session.isNone then (.ok (0, buf), k)
  else
    match regId with
    | .dpr dpr =>
      match k.sceCall "ksceKernelGetVfpRegisterForDebugger" id with
      | (.ok _, k) =>
        (vfpValue (k.vfp tid) dpr >>= fun value => copyFromSlice buf (toLeBytes 8 value), k)
      | (.error err, k) =>
        if err.code = 0x80020008#32 then
          (vfpValue (fun _ => 0x7ff8dead7f80dead#64) dpr >>= fun value =>
            copyFromSlice buf (toLeBytes 8 value), k)
        else (.err .nonFatal, k)
    | regId =>
      match k.sceCall "ksceKernelGetThreadCpuRegisters" id with
      | (.error _, k) => (.err .nonFatal, k)
      | (.ok _, k) =>
        (coreValue (userEntry (k.cpuRegs tid)) regId >>= fun value =>
          copyFromSlice buf (toLeBytes 4 value), k)

end VitaTarget

/-! ## A register of the packet -/

/-- The bytes of one of the registers that were read. -/
def registerBytes (regs : Armv7Regs) : Armv7RegId → Outcome TargetError (List U8)
  | .dpr dpr => vfpValue regs.d dpr >>= fun value => .ok (toLeBytes 8 value)
  | regId => coreValue regs.toSceArmCpuRegisters regId >>= fun value => .ok (toLeBytes 4 value)

/-- The size of a raw id, 0 where there is none. -/
def rawSize (id : Nat) : Nat := ((fromRawId id).map Prod.snd).getD 0

/-- The sizes of all smaller ids. -/
def rawOffset (id : Nat) : Nat := ((List.range id).map rawSize).sum

/-- The fields of the packet have the sizes of the raw ids. -/
theorem map_size_armv7Fields : armv7Fields.map Field.size = (List.range 50).map rawSize := by
  decide

/-- A field lies at the sizes of the smaller ids. -/
theorem totalSize_take (id : Nat) (h : id ≤ 50) :
    totalSize (armv7Fields.take id) = rawOffset id := by
  rw [totalSize, List.map_take, map_size_armv7Fields, ← List.map_take, List.take_range,
    Nat.min_eq_left h, rawOffset]

/-- The general-purpose register of a raw id. -/
theorem coreValue_gpr (thRegs : SceArmCpuRegisters) (i : Fin 13) :
    coreValue thRegs (.gpr (BitVec.ofNat 8 i.val)) = .ok (thRegs.r i) := by
  fin_cases i <;> rfl

/-- The VFP register of a raw id. -/
theorem vfpValue_ofNat (vfp : Fin 32 → U64) (i : Fin 32) :
    vfpValue vfp (BitVec.ofNat 8 i.val) = .ok (vfp i) := by
  have hval : (BitVec.ofNat 8 i.val).toNat = i.val := by
    rw [BitVec.toNat_ofNat]
    omega
  unfold vfpValue
  rw [dif_pos (by omega)]
  exact congrArg (fun j => Outcome.ok (vfp j)) (Fin.ext hval)

theorem armv7Fields_gpr (i : Fin 13) : armv7Fields[i.val]? = some (gprField i) := by
  fin_cases i <;> rfl

theorem armv7Fields_dpr (i : Fin 32) : armv7Fields[17 + i.val]? = some (dprField i) := by
  fin_cases i <;> rfl

theorem registerBytes_gpr (regs : Armv7Regs) (i : Fin 13) :
    registerBytes regs (.gpr (BitVec.ofNat 8 i.val)) = .ok ((gprField i).get regs) := by
  show (coreValue _ _ >>= fun value => Outcome.ok (toLeBytes 4 value)) = _
  rw [coreValue_gpr]
  rfl

theorem registerBytes_dpr (regs : Armv7Regs) (i : Fin 32) :
    registerBytes regs (.dpr (BitVec.ofNat 8 i.val)) = .ok ((dprField i).get regs) := by
  show (vfpValue _ _ >>= fun value => Outcome.ok (toLeBytes 8 value)) = _
  rw [vfpValue_ofNat]
  rfl

/-- The raw ids, with their registers and sizes. -/
inductive RawId : Nat → Armv7RegId → Nat → Prop where
  | gpr (i : Fin 13) : RawId i.val (.gpr (BitVec.ofNat 8 i.val)) 4
  | sp : RawId 13 .sp 4
  | lr : RawId 14 .lr 4
  | pc : RawId 15 .pc 4
  | cpsr : RawId 16 .cpsr 4
  | dpr (i : Fin 32) : RawId (17 + i.val) (.dpr (BitVec.ofNat 8 i.val)) 8
  | fpscr : RawId 49 .fpscr 4

theorem fromRawId_cases {id : Nat} {reg : Armv7RegId} {size : Nat}
    (h : fromRawId id = some (reg, size)) : RawId id reg size := by
  obtain ⟨reg', hreg, hpair⟩ := Option.map_eq_some_iff.mp h
  obtain ⟨rfl, rfl⟩ := Prod.mk.inj hpair
  -- one case per range of ids
  split at hreg
  · rename_i hid
    obtain rfl := Option.some.inj hreg
    exact .gpr ⟨id, by omega⟩
  split at hreg
  · obtain rfl := Option.some.inj hreg
    subst id
    exact .sp
  split at hreg
  · obtain rfl := Option.some.inj hreg
    subst id
    exact .lr
  split at hreg
  · obtain rfl := Option.some.inj hreg
    subst id
    exact .pc
  split at hreg
  · obtain rfl := Option.some.inj hreg
    subst id
    exact .cpsr
  split at hreg
  · obtain rfl := Option.some.inj hreg
    obtain ⟨j, rfl⟩ : ∃ j, id = 17 + j := ⟨id - 17, by omega⟩
    rw [Nat.add_sub_cancel_left]
    exact .dpr ⟨j, by omega⟩
  split at hreg
  · obtain rfl := Option.some.inj hreg
    subst id
    exact .fpscr
  · exact nomatch hreg

/-- The field of a raw id holds the register of that id. -/
theorem armv7Fields_rawId {id : Nat} {reg : Armv7RegId} {size : Nat}
    (h : fromRawId id = some (reg, size)) :
    ∃ f, armv7Fields[id]? = some f ∧ f.size = size ∧
      ∀ regs, registerBytes regs reg = .ok (f.get regs) := by
  cases fromRawId_cases h with
  | gpr i => exact ⟨gprField i, armv7Fields_gpr i, rfl, fun regs => registerBytes_gpr regs i⟩
  | sp => exact ⟨spField, rfl, rfl, fun _ => rfl⟩
  | lr => exact ⟨lrField, rfl, rfl, fun _ => rfl⟩
  | pc => exact ⟨pcField, rfl, rfl, fun _ => rfl⟩
  | cpsr => exact ⟨cpsrField, rfl, rfl, fun _ => rfl⟩
  | dpr i => exact ⟨dprField i, armv7Fields_dpr i, rfl, fun regs => registerBytes_dpr regs i⟩
  | fpscr => exact ⟨fpscrField, rfl, rfl, fun _ => rfl⟩

/-- The bytes of a raw id lie behind those of the smaller ids. -/
theorem slice_gdbSerialize {id : Nat} {reg : Armv7RegId} {size : Nat}
    (h : fromRawId id = some (reg, size)) (regs : Armv7Regs) :
    registerBytes regs reg = .ok (((gdbSerialize regs).drop (rawOffset id)).take size) := by
  obtain ⟨f, hf, rfl, hbytes⟩ := armv7Fields_rawId h
  have hid : id ≤ 50 := Nat.le_of_lt (List.getElem?_eq_some_iff.mp hf).1
  rw [hbytes, gdbSerialize_eq, ← totalSize_take id hid, slice_encode_getElem hf]

theorem length_registerBytes {id : Nat} {reg : Armv7RegId} {size : Nat}
    (h : fromRawId id = some (reg, size)) {regs : Armv7Regs} {bytes : List U8}
    (hbytes : registerBytes regs reg = .ok bytes) : bytes.length = size := by
  obtain ⟨f, _, rfl, hf⟩ := armv7Fields_rawId h
  rw [← Outcome.ok.inj ((hf regs).symm.trans hbytes), f.length_get]

/-! ## The two ways to read -/

/-- The getters answer for a thread in `k'` as they did in `k`, where all registers were read first:
    the same entries and VFP registers, and, where a VFP register is read, the same code for them.
    -/
structure SameAnswers (k k' : Kernel) (tid : SceUID) (reg : Armv7RegId) : Prop where
  cpuRegs : k'.cpuRegs tid = k.cpuRegs tid
  vfp : k'.vfp tid = k.vfp tid
  vfpCode : ∀ dpr, reg = .dpr dpr → k'.ret k'.calls = k.ret (k.calls + 1)

/-- There are fifty raw ids. -/
theorem fromRawId_none (id : Nat) (h : 50 ≤ id) : fromRawId id = none := by
  unfold fromRawId
  rw [if_neg (by omega), if_neg (by omega), if_neg (by omega), if_neg (by omega),
    if_neg (by omega), if_neg (by omega), if_neg (by omega)]
  rfl

/-- What a copy into the buffer gives. -/
theorem copyFromSlice_ok {buf bytes buf' : List U8} {n : Nat}
    (h : copyFromSlice buf bytes = .ok (n, buf')) : buf' = bytes ∧ n = bytes.length := by
  unfold copyFromSlice at h
  split at h
  · rename_i hlen
    obtain ⟨rfl, rfl⟩ := Prod.mk.inj (Outcome.ok.inj h)
    exact ⟨rfl, hlen⟩
  · exact nomatch h

/-- The registers that `read_registers` answers. -/
theorem readRegisters_eq {k k₁ : Kernel} {tid : SceUID} {regs : Armv7Regs}
    (h : VitaGdb.readRegisters k tid = (some regs, k₁)) :
    regs.toSceArmCpuRegisters = userEntry (k.cpuRegs tid) ∧
      ((k.ret (k.calls + 1)).slt 0#32 = false ∧ regs.d = k.vfp tid ∨
        (k.ret (k.calls + 1)).slt 0#32 = true ∧ k.ret (k.calls + 1) = 0x80020008#32 ∧
          regs.d = fun _ => 0x7ff8dead7f80dead#64) := by
  have hgoes := readRegisters_goes k tid
  rw [h] at hgoes
  cases hgoes with
  | whole hcore hvfp => exact ⟨rfl, .inl ⟨hvfp, rfl⟩⟩
  | noVfp hcore hvfp hcode => exact ⟨rfl, .inr ⟨hvfp, hcode, rfl⟩⟩

/-- A value, copied into the buffer, is the bytes of the register. -/
theorem copied_ok {w : Nat} {value : Outcome TargetError (BitVec w)} {size n : Nat}
    {buf buf' : List U8}
    (h : (value >>= fun value => copyFromSlice buf (toLeBytes size value)) = .ok (n, buf')) :
    (value >>= fun value => .ok (toLeBytes size value)) = .ok buf' ∧ n = buf'.length := by
  obtain ⟨value, rfl, hcopy⟩ := Outcome.bind_ok h
  obtain ⟨rfl, rfl⟩ := copyFromSlice_ok hcopy
  exact ⟨rfl, rfl⟩

/-- A successful `read_register` on an attached target answers the bytes of the register, of the
    user entry or of the VFP registers that `read_registers` saw. -/
theorem readRegister_eq {t : VitaTarget} {k k' k₁ k₂ : Kernel} {tid : SceUID} {regs : Armv7Regs}
    {reg : Armv7RegId} {buf buf' : List U8} {n : Nat} (hsession : t.session.isNone = false)
    (hsame : SameAnswers k k' tid reg) (hall : VitaGdb.readRegisters k tid = (some regs, k₁))
    (hone : t.readRegister k' tid reg buf = (.ok (n, buf'), k₂)) :
    registerBytes regs reg = .ok buf' ∧ n = buf'.length := by
  obtain ⟨hcore, hd⟩ := readRegisters_eq hall
  unfold VitaTarget.readRegister at hone
  rw [hsession, if_neg Bool.false_ne_true] at hone
  cases reg with
  | dpr dpr =>
    rw [← hsame.vfp, ← hsame.vfpCode dpr rfl] at hd
    obtain ⟨hvfp, hd⟩ | ⟨hvfp, hcode, hd⟩ := hd
    · rw [Kernel.sceCall_of_nonneg hvfp] at hone
      obtain ⟨hcopy, _⟩ := Prod.mk.inj hone
      exact copied_ok (hd ▸ hcopy)
    · rw [Kernel.sceCall_of_neg hvfp] at hone
      dsimp only at hone
      rw [if_pos hcode] at hone
      obtain ⟨hcopy, _⟩ := Prod.mk.inj hone
      exact copied_ok (hd ▸ hcopy)
  | _ =>
    dsimp only at hone
    cases hcpu : (k'.ret k'.calls).slt 0#32 with
    | true =>
      rw [Kernel.sceCall_of_neg hcpu] at hone
      exact absurd (congrArg Prod.fst hone) (by simp)
    | false =>
      rw [Kernel.sceCall_of_nonneg hcpu] at hone
      obtain ⟨hcopy, _⟩ := Prod.mk.inj hone
      dsimp only [id] at hcopy
      rw [hsame.cpuRegs, ← hcore] at hcopy
      exact copied_ok hcopy

/-- **A register read alone** has the bytes it has among all registers, and the packet is as long as
    the sizes of the raw ids together. -/
theorem readRegister_slice (t : VitaTarget) (k k' k₁ k₂ : Kernel) (tid : SceUID) (regs : Armv7Regs)
    (id size n : Nat) (reg : Armv7RegId) (buf buf' : List U8)
    (hid : fromRawId id = some (reg, size))
    (hsame : SameAnswers k k' tid reg)
    (hall : t.readRegisters k tid = (some regs, k₁))
    (hone : t.readRegister k' tid reg buf = (.ok (n, buf'), k₂)) :
    buf' = ((gdbSerialize regs).drop (rawOffset id)).take size ∧ n = size ∧
      (gdbSerialize regs).length = rawOffset 50 ∧ ∀ id', 50 ≤ id' → fromRawId id' = none := by
  have hsession : t.session.isNone = false := by
    cases hnone : t.session.isNone with
    | false => rfl
    | true =>
      rw [VitaTarget.readRegisters, if_pos hnone] at hall
      exact absurd (congrArg Prod.fst hall) (by simp)
  rw [VitaTarget.readRegisters, hsession, if_neg Bool.false_ne_true] at hall
  obtain ⟨hbytes, hn⟩ := readRegister_eq hsession hsame hall hone
  have hslice := slice_gdbSerialize hid regs
  have hsame' := Outcome.ok.inj (hbytes.symm.trans hslice)
  refine ⟨hsame', hn.trans (length_registerBytes hid hbytes), ?_, fromRawId_none⟩
  rw [length_gdbSerialize]
  decide

/-- A thread without VFP context: the second call, and every call from there on, says so. -/
def noVfp (calls : Nat) : Kernel :=
  { Kernel.quiet (fun _ _ => none) with
    ret := fun n => if n = 0 then 0#32 else 0x80020008#32
    calls := calls }

/-- A target with a session. -/
def withSession : VitaTarget := { VitaTarget.new ⟨3#32⟩ with session := some 0 }

/-- The registers of a thread without VFP context. -/
def patternRegs : Armv7Regs :=
  { userEntry ((noVfp 0).cpuRegs 9#32) with d := fun _ => 0x7ff8dead7f80dead#64 }

theorem readRegister_slice_noVfp :
    toLeBytes 8 0x7ff8dead7f80dead#64 = ((gdbSerialize patternRegs).drop (rawOffset 48)).take 8 :=
  (readRegister_slice withSession (noVfp 0) (noVfp 1) (noVfp 2) (noVfp 2) 9#32 patternRegs 48 8 8
    (.dpr 31#8) (List.replicate 8 0#8) (toLeBytes 8 0x7ff8dead7f80dead#64) rfl
    ⟨rfl, rfl, fun _ _ => rfl⟩ rfl rfl).1

end VitaGdb
