/-
  `gdb/multi_thread.rs`: writing the registers of a thread, one at a time and all at once.

  A setter of the kernel takes a register file and a mask, and writes the registers the mask names
  in place, into the entry in use: the first of the two saved entries where that is in user mode,
  else the second (`CoreSetter`).  `write_register` puts its value into one field of a zeroed file,
  and pairs the field with a bit of the mask by hand: `masked_coreField` says that each pair fits.

  Three things go wrong.  The conversion of the value to four bytes comes before the id is looked
  at, so a D register, whose value has eight, ends in a panic.  A CPSR whose mode is not user's is
  written into the first entry, and the getter then looks at the second
  (`writeRegister_roundTrips_iff`).  And `write_registers` sets the core registers before the VFP
  registers, which not every thread has: what `read_registers` tolerates is an error here, after
  half of the work (`writeRegisters_whole_iff`).
-/
import VitaGdb.Gdb.RegisterAccess

namespace VitaGdb

open RecordBytes

/-! ## The mask -/

def sceRegR0 : U32 := 1#32 <<< 0
def sceRegR1 : U32 := 1#32 <<< 1
def sceRegR2 : U32 := 1#32 <<< 2
def sceRegR3 : U32 := 1#32 <<< 3
def sceRegR4 : U32 := 1#32 <<< 4
def sceRegR5 : U32 := 1#32 <<< 5
def sceRegR6 : U32 := 1#32 <<< 6
def sceRegR7 : U32 := 1#32 <<< 7
def sceRegR8 : U32 := 1#32 <<< 8
def sceRegR9 : U32 := 1#32 <<< 9
def sceRegR10 : U32 := 1#32 <<< 10
def sceRegR11 : U32 := 1#32 <<< 11
def sceRegR12 : U32 := 1#32 <<< 12
def sceRegSp : U32 := 1#32 <<< 13
def sceRegLr : U32 := 1#32 <<< 14
def sceRegPc : U32 := 1#32 <<< 15
def sceRegCpsr : U32 := 1#32 <<< 16
def sceRegFpscr : U32 := 1#32 <<< 17

/-- The registers of `new` that the mask names, and the others of `old`. -/
def masked (old new : SceArmCpuRegisters) (mask : U32) : SceArmCpuRegisters where
  r i := if mask.getLsbD i.val then new.r i else old.r i
  sp := if mask.getLsbD 13 then new.sp else old.sp
  lr := if mask.getLsbD 14 then new.lr else old.lr
  pc := if mask.getLsbD 15 then new.pc else old.pc
  cpsr := if mask.getLsbD 16 then new.cpsr else old.cpsr
  fpscr := if mask.getLsbD 17 then new.fpscr else old.fpscr

/-- The mode bits of a user program. -/
def isUserMode (regs : SceArmCpuRegisters) : Bool := decide (regs.cpsr &&& 0x1F#32 = 0x10#32)

/-- A change to the entry in use, in place: the first where it is in user mode, else the second. -/
def onEntryInUse (change : SceArmCpuRegisters → SceArmCpuRegisters)
    (entries : SceArmCpuRegisters × SceArmCpuRegisters) : SceArmCpuRegisters × SceArmCpuRegisters :=
  if isUserMode entries.1 then (change entries.1, entries.2) else (entries.1, change entries.2)

/-- `ksceKernelSetThreadCpuRegisters`: what it makes of the two entries of a thread.  It writes
    exactly the registers named by the mask, in place. -/
structure CoreSetter where
  set : SceArmCpuRegisters × SceArmCpuRegisters → SceArmCpuRegisters → U32 →
    SceArmCpuRegisters × SceArmCpuRegisters
  writes : ∀ entries regs mask,
    set entries regs mask = onEntryInUse (fun old => masked old regs mask) entries

theorem userEntry_eq (entries : SceArmCpuRegisters × SceArmCpuRegisters) :
    userEntry entries = if isUserMode entries.1 then entries.1 else entries.2 := by
  simp only [isUserMode, userEntry, decide_eq_true_eq]

/-- What is changed in place is found there again, while the first entry stays in user mode. -/
theorem userEntry_onEntryInUse {change : SceArmCpuRegisters → SceArmCpuRegisters}
    {entries : SceArmCpuRegisters × SceArmCpuRegisters}
    (hstays : isUserMode entries.1 = true → isUserMode (change entries.1) = true) :
    userEntry (onEntryInUse change entries) = change (userEntry entries) := by
  rw [userEntry_eq, userEntry_eq, onEntryInUse]
  cases hfirst : isUserMode entries.1 with
  | true => simp [hstays hfirst]
  | false => simp [hfirst]

/-- Nothing is changed in place exactly where the entry in use is not. -/
theorem onEntryInUse_eq_self_iff (change : SceArmCpuRegisters → SceArmCpuRegisters)
    (entries : SceArmCpuRegisters × SceArmCpuRegisters) :
    onEntryInUse change entries = entries ↔ change (userEntry entries) = userEntry entries := by
  obtain ⟨first, second⟩ := entries
  rw [userEntry_eq, onEntryInUse]
  cases isUserMode first with
  | true => simp
  | false => simp

namespace CoreSetter

/-- The call. -/
def call (s : CoreSetter) (k : Kernel) (tid : SceUID) (regs : SceArmCpuRegisters) (mask : U32) :
    Except SceError I32 × Kernel :=
  k.sceCall "ksceKernelSetThreadCpuRegisters" fun k =>
    { k with cpuRegs := Function.update k.cpuRegs tid (s.set (k.cpuRegs tid) regs mask) }

/-- It fails and changes nothing, or writes what the mask names. -/
theorem call_goes (s : CoreSetter) (k : Kernel) (tid : SceUID) (regs : SceArmCpuRegisters)
    (mask : U32) : ∃ res k', s.call k tid regs mask = (res, k') ∧ k'.vfp = k.vfp ∧ k'.ret = k.ret ∧
      k'.calls = k.calls + 1 ∧
      ((k.ret k.calls).slt 0#32 = true ∧ (∃ err, res = .error err) ∧ k'.cpuRegs = k.cpuRegs ∨
        (k.ret k.calls).slt 0#32 = false ∧ (∃ code, res = .ok code) ∧
          k'.cpuRegs tid = onEntryInUse (fun old => masked old regs mask) (k.cpuRegs tid)) := by
  cases hcode : (k.ret k.calls).slt 0#32 with
  | true =>
    rw [call, Kernel.sceCall_of_neg hcode]
    exact ⟨_, _, rfl, rfl, rfl, rfl, .inl ⟨rfl, ⟨_, rfl⟩, rfl⟩⟩
  | false =>
    rw [call, Kernel.sceCall_of_nonneg hcode]
    refine ⟨_, _, rfl, rfl, rfl, rfl, .inr ⟨rfl, ⟨_, rfl⟩, ?_⟩⟩
    rw [← s.writes]
    exact Function.update_self tid _ k.cpuRegs

/-- The setter there is. -/
def inPlace : CoreSetter where
  set entries regs mask := onEntryInUse (fun old => masked old regs mask) entries
  writes _ _ _ := rfl

end CoreSetter

/-- `ksceKernelSetVfpRegisterForDebugger`. -/
def setVfpRegisters (k : Kernel) (tid : SceUID) (d : Fin 32 → U64) : Except SceError I32 × Kernel :=
  k.sceCall "ksceKernelSetVfpRegisterForDebugger" fun k =>
    { k with vfp := Function.update k.vfp tid d }

/-! ## The two ways to write -/

/-- `zeroed()`. -/
def zeroedRegs : SceArmCpuRegisters where
  r _ := 0#32
  sp := 0#32
  lr := 0#32
  pc := 0#32
  cpsr := 0#32
  fpscr := 0#32

/-- `match reg_id`, and `*reg = value`: the file and the mask. -/
def coreField (value : U32) : Armv7RegId → Outcome TargetError (SceArmCpuRegisters × U32)
  | .gpr n =>
    match n.toNat with
    | 0 => .ok ({ zeroedRegs with r := Function.update zeroedRegs.r 0 value }, sceRegR0)
    | 1 => .ok ({ zeroedRegs with r := Function.update zeroedRegs.r 1 value }, sceRegR1)
    | 2 => .ok ({ zeroedRegs with r := Function.update zeroedRegs.r 2 value }, sceRegR2)
    | 3 => .ok ({ zeroedRegs with r := Function.update zeroedRegs.r 3 value }, sceRegR3)
    | 4 => .ok ({ zeroedRegs with r := Function.update zeroedRegs.r 4 value }, sceRegR4)
    | 5 => .ok ({ zeroedRegs with r := Function.update zeroedRegs.r 5 value }, sceRegR5)
    | 6 => .ok ({ zeroedRegs with r := Function.update zeroedRegs.r 6 value }, sceRegR6)
    | 7 => .ok ({ zeroedRegs with r := Function.update zeroedRegs.r 7 value }, sceRegR7)
    | 8 => .ok ({ zeroedRegs with r := Function.update zeroedRegs.r 8 value }, sceRegR8)
    | 9 => .ok ({ zeroedRegs with r := Function.update zeroedRegs.r 9 value }, sceRegR9)
    | 10 => .ok ({ zeroedRegs with r := Function.update zeroedRegs.r 10 value }, sceRegR10)
    | 11 => .ok ({ zeroedRegs with r := Function.update zeroedRegs.r 11 value }, sceRegR11)
    | 12 => .ok ({ zeroedRegs with r := Function.update zeroedRegs.r 12 value }, sceRegR12)
    | _ => .panic
  | .sp => .ok ({ zeroedRegs with sp := value }, sceRegSp)
  | .lr => .ok ({ zeroedRegs with lr := value }, sceRegLr)
  | .pc => .ok ({ zeroedRegs with pc := value }, sceRegPc)
  | .cpsr => .ok ({ zeroedRegs with cpsr := value }, sceRegCpsr)
  | .fpscr => .ok ({ zeroedRegs with fpscr := value }, sceRegFpscr)
  | .dpr _ => .err .nonFatal

/-- `u32::from_le_bytes(val.try_into().unwrap())`. -/
def fourBytes (val : List U8) : Outcome TargetError U32 :=
  if val.length = 4 then .ok (ofLeBytes 32 val) else .panic

/-- `write_register`.  Unlike `read_register`, it does not ask for a session. -/
def writeRegister (s : CoreSetter) (k : Kernel) (tid : SceUID) (regId : Armv7RegId)
    (val : List U8) : Outcome TargetError Unit × Kernel :=
  match fourBytes val >>= fun value => coreField value regId with
  | .panic => (.panic, k)
  | .err err => (.err err, k)
  | .ok (regs, mask) =>
    match s.call k tid regs mask with
    | (.error _, k) => (.err .nonFatal, k)
    | (.ok _, k) => (.ok (), k)

/-- The mask of all registers. -/
def allRegisters : U32 :=
  sceRegR0 ||| sceRegR1 ||| sceRegR2 ||| sceRegR3 ||| sceRegR4 ||| sceRegR5 ||| sceRegR6 |||
    sceRegR7 ||| sceRegR8 ||| sceRegR9 ||| sceRegR10 ||| sceRegR11 ||| sceRegR12 ||| sceRegSp |||
    sceRegLr ||| sceRegPc ||| sceRegCpsr ||| sceRegFpscr

/-- `write_registers`. -/
def writeRegisters (s : CoreSetter) (k : Kernel) (regs : Armv7Regs) (tid : SceUID) :
    Outcome TargetError Unit × Kernel :=
  match s.call k tid regs.toSceArmCpuRegisters allRegisters with
  | (.error _, k) => (.err .nonFatal, k)
  | (.ok _, k) =>
    match setVfpRegisters k tid regs.d with
    | (.error _, k) => (.err .nonFatal, k)
    | (.ok _, k) => (.ok (), k)

/-! ## One register of the file -/

/-- The file with one register changed. -/
def putCore (old : SceArmCpuRegisters) (value : U32) : Armv7RegId → SceArmCpuRegisters
  | .gpr n => { old with r := fun i => if i.val = n.toNat then value else old.r i }
  | .sp => { old with sp := value }
  | .lr => { old with lr := value }
  | .pc => { old with pc := value }
  | .cpsr => { old with cpsr := value }
  | .fpscr => { old with fpscr := value }
  | .dpr _ => old

@[simp] theorem putCore_gpr_r (old : SceArmCpuRegisters) (value : U32) (n : U8) (i : Fin 13) :
    (putCore old value (.gpr n)).r i = if i.val = n.toNat then value else old.r i := rfl

@[simp] theorem toNat_gprId (i : Fin 13) : (BitVec.ofNat 8 i.val).toNat = i.val := by
  rw [BitVec.toNat_ofNat]
  omega

theorem coreField_gpr (value : U32) (i : Fin 13) :
    coreField value (.gpr (BitVec.ofNat 8 i.val)) =
      .ok ({ zeroedRegs with r := Function.update zeroedRegs.r i value }, 1#32 <<< i.val) := by
  fin_cases i <;> rfl

/-- A mask of one bit. -/
theorem getLsbD_oneBit {i j : Nat} (hj : j < 32) : (1#32 <<< i).getLsbD j = decide (j = i) := by
  simp only [BitVec.getLsbD_shiftLeft, BitVec.getLsbD_one, hj]
  by_cases h : j = i
  · simp [h]
  · by_cases hlt : j < i
    · simp [hlt, h]
    · simp [hlt, h]; omega

/-- **Field and mask fit**: what is written is the register of the id, and no other. -/
theorem masked_coreField {id size : Nat} {reg : Armv7RegId} (hid : fromRawId id = some (reg, size))
    (hcore : ∀ n, reg ≠ .dpr n) (value : U32) :
    ∃ regs mask, coreField value reg = .ok (regs, mask) ∧
      ∀ old, masked old regs mask = putCore old value reg := by
  cases fromRawId_cases hid with
  | gpr i =>
    refine ⟨_, _, coreField_gpr value i, fun old => ?_⟩
    have hbit : ∀ j, j < 32 → ((1#32 <<< i.val).getLsbD j = true ↔ j = i.val) := fun j hj => by
      rw [getLsbD_oneBit hj, decide_eq_true_eq]
    have hout : ∀ j, 13 ≤ j → j < 32 → ¬ (1#32 <<< i.val).getLsbD j = true := fun j hlow hj => by
      rw [hbit j hj]
      omega
    rw [masked, putCore, if_neg (hout 13 (by omega) (by omega)), if_neg (hout 14 (by omega) (by omega)),
      if_neg (hout 15 (by omega) (by omega)), if_neg (hout 16 (by omega) (by omega)),
      if_neg (hout 17 (by omega) (by omega))]
    congr 1
    funext j
    by_cases hj : j = i
    · subst hj
      rw [if_pos ((hbit j (by omega)).mpr rfl), toNat_gprId, if_pos rfl]
      exact Function.update_self ..
    · have hne : j.val ≠ i.val := fun h => hj (Fin.ext h)
      rw [if_neg (mt (hbit j (by omega)).mp hne), toNat_gprId, if_neg hne]
  | dpr i => exact absurd rfl (hcore _)
  | _ =>
    refine ⟨_, _, rfl, fun old => ?_⟩
    rw [masked, putCore]
    congr 1
    funext j
    refine if_neg fun h => ?_
    simp only [sceRegSp, sceRegLr, sceRegPc, sceRegCpsr, sceRegFpscr,
      getLsbD_oneBit (show j.val < 32 by omega), decide_eq_true_eq] at h
    omega

theorem coreValue_putCore_self {id size : Nat} {reg : Armv7RegId}
    (hid : fromRawId id = some (reg, size)) (hcore : ∀ n, reg ≠ .dpr n) (old : SceArmCpuRegisters)
    (value : U32) : coreValue (putCore old value reg) reg = .ok value := by
  cases fromRawId_cases hid with
  | gpr i =>
    rw [coreValue_gpr, putCore_gpr_r, toNat_gprId, if_pos rfl]
  | dpr i => exact absurd rfl (hcore _)
  | _ => rfl

/-- The other registers of the file are as they were. -/
theorem coreValue_putCore_ne {id size id' size' : Nat} {reg reg' : Armv7RegId}
    (hid : fromRawId id = some (reg, size)) (hid' : fromRawId id' = some (reg', size'))
    (hne : reg' ≠ reg) (old : SceArmCpuRegisters) (value : U32) :
    coreValue (putCore old value reg) reg' = coreValue old reg' := by
  cases fromRawId_cases hid' with
  | gpr j =>
    rw [coreValue_gpr, coreValue_gpr]
    cases fromRawId_cases hid with
    | gpr i =>
      rw [putCore_gpr_r, toNat_gprId, if_neg fun h => hne (by rw [h])]
    | _ => rfl
  | _ =>
    cases fromRawId_cases hid with
    | gpr i => rfl
    | dpr i => rfl
    | sp => first | rfl | exact absurd rfl hne
    | lr => first | rfl | exact absurd rfl hne
    | pc => first | rfl | exact absurd rfl hne
    | cpsr => first | rfl | exact absurd rfl hne
    | fpscr => first | rfl | exact absurd rfl hne

/-! ## A single register -/

/-- The kernel, where its next call answers this code. -/
def Kernel.answering (k : Kernel) (code : I32) : Kernel := { k with ret := fun _ => code, calls := 0 }

/-- What `read_register` answers depends on the register it reads. -/
theorem readRegister_congr {t : VitaTarget} {k k' : Kernel} {tid : SceUID} {reg : Armv7RegId}
    (hcore : coreValue (userEntry (k'.cpuRegs tid)) reg = coreValue (userEntry (k.cpuRegs tid)) reg)
    (hvfp : k'.vfp tid = k.vfp tid) (code : I32) (buf : List U8) :
    (t.readRegister (k'.answering code) tid reg buf).1 =
      (t.readRegister (k.answering code) tid reg buf).1 := by
  unfold VitaTarget.readRegister
  cases hnone : t.session.isNone with
  | true => rfl
  | false =>
    simp only [if_false, Bool.false_eq_true]
    cases reg with
    | dpr n =>
      cases hcode : code.slt 0#32 with
      | true =>
        rw [Kernel.sceCall_of_neg (k := k'.answering code) hcode,
          Kernel.sceCall_of_neg (k := k.answering code) hcode]
        dsimp only [Kernel.answering]
        by_cases habsent : code = 0x80020008#32
        · rw [if_pos habsent, if_pos habsent]
        · rw [if_neg habsent, if_neg habsent]
      | false =>
        rw [Kernel.sceCall_of_nonneg (k := k'.answering code) hcode,
          Kernel.sceCall_of_nonneg (k := k.answering code) hcode]
        dsimp only [id, Kernel.answering]
        rw [hvfp]
    | _ =>
      dsimp only
      cases hcode : code.slt 0#32 with
      | true =>
        rw [Kernel.sceCall_of_neg (k := k'.answering code) hcode,
          Kernel.sceCall_of_neg (k := k.answering code) hcode]
      | false =>
        rw [Kernel.sceCall_of_nonneg (k := k'.answering code) hcode,
          Kernel.sceCall_of_nonneg (k := k.answering code) hcode]
        dsimp only [id, Kernel.answering]
        rw [hcore]

/-- What a successful read of a core register answers. -/
theorem readRegister_core {t : VitaTarget} {k : Kernel} {tid : SceUID} {reg : Armv7RegId}
    {code : I32} {value : U32} {buf : List U8} (hsession : t.session.isNone = false)
    (hcore : ∀ n, reg ≠ .dpr n) (hcode : code.slt 0#32 = false)
    (hvalue : coreValue (userEntry (k.cpuRegs tid)) reg = .ok value) (hbuf : buf.length = 4) :
    (t.readRegister (k.answering code) tid reg buf).1 = .ok (4, toLeBytes 4 value) := by
  have hcopy : copyFromSlice buf (toLeBytes 4 value) = .ok (4, toLeBytes 4 value) := by
    rw [copyFromSlice, length_toLeBytes, if_pos hbuf, hbuf]
  unfold VitaTarget.readRegister
  rw [hsession, if_neg Bool.false_ne_true]
  cases reg with
  | dpr n => exact absurd rfl (hcore n)
  | _ =>
    dsimp only
    rw [Kernel.sceCall_of_nonneg (k := k.answering code) hcode]
    dsimp only [id, Kernel.answering]
    rw [hvalue, Outcome.ok_bind, hcopy]

/-- A write of a D register comes to nothing else. -/
theorem writeRegister_dpr (s : CoreSetter) (k : Kernel) (tid : SceUID) (n : U8) {val : List U8}
    (hval : val.length = 8) : writeRegister s k tid (.dpr n) val = (.panic, k) := by
  rw [writeRegister, fourBytes, if_neg (by omega), Outcome.panic_bind]

/-- A write of a core register is one call. -/
theorem writeRegister_core (s : CoreSetter) (k : Kernel) (tid : SceUID) {id size : Nat}
    {reg : Armv7RegId} {val : List U8} (hid : fromRawId id = some (reg, size))
    (hcore : ∀ n, reg ≠ .dpr n) (hval : val.length = 4) :
    ((k.ret k.calls).slt 0#32 = true ∧ ∃ k', writeRegister s k tid reg val = (.err .nonFatal, k') ∧
        k'.cpuRegs = k.cpuRegs ∧ k'.vfp = k.vfp) ∨
      (k.ret k.calls).slt 0#32 = false ∧ ∃ k', writeRegister s k tid reg val = (.ok (), k') ∧
        k'.cpuRegs tid =
          onEntryInUse (fun old => putCore old (ofLeBytes 32 val) reg) (k.cpuRegs tid) ∧
        k'.vfp = k.vfp := by
  obtain ⟨regs, mask, hfield, hmasked⟩ := masked_coreField hid hcore (ofLeBytes 32 val)
  rw [writeRegister, fourBytes, if_pos hval, Outcome.ok_bind, hfield]
  obtain ⟨_, k', hcall, hvfp, -, -, ⟨hcode, ⟨err, rfl⟩, hregs⟩ | ⟨hcode, ⟨code, rfl⟩, hregs⟩⟩ :=
    s.call_goes k tid regs mask
  · dsimp only
    rw [hcall]
    exact .inl ⟨hcode, k', rfl, hregs, hvfp⟩
  · dsimp only
    rw [hcall]
    refine .inr ⟨hcode, k', rfl, ?_, hvfp⟩
    rw [hregs]
    exact congrArg (fun change => onEntryInUse change (k.cpuRegs tid)) (funext hmasked)

/-- A write of one register round-trips: it returns, and after an `Ok` the register reads as it was
    written and every other as before, after an `Err` nothing has changed. -/
structure WriteRoundTrips (s : CoreSetter) (t : VitaTarget) (k : Kernel) (tid : SceUID)
    (reg : Armv7RegId) (val : List U8) : Prop where
  returns : (writeRegister s k tid reg val).1 ≠ .panic
  same : ∀ k', writeRegister s k tid reg val = (.ok (), k') → ∀ code buf, code.slt 0#32 = false →
    buf.length = val.length →
    (t.readRegister (k'.answering code) tid reg buf).1 = .ok (val.length, val)
  others : ∀ k', writeRegister s k tid reg val = (.ok (), k') → ∀ id' reg' size' code buf,
    fromRawId id' = some (reg', size') → reg' ≠ reg →
    (t.readRegister (k'.answering code) tid reg' buf).1 =
      (t.readRegister (k.answering code) tid reg' buf).1
  failed : ∀ err k', writeRegister s k tid reg val = (.err err, k') →
    k'.cpuRegs = k.cpuRegs ∧ k'.vfp = k.vfp

/-- A register of four bytes is a core register. -/
theorem core_of_size {id size : Nat} {reg : Armv7RegId} (hid : fromRawId id = some (reg, size))
    (hcore : ∀ n, reg ≠ .dpr n) : size = 4 := by
  cases fromRawId_cases hid with
  | dpr i => exact absurd rfl (hcore _)
  | _ => rfl

/-- A CPSR of another mode is not written into the first entry, unless the second has it already,
    with the same registers. -/
def StaysInUse (entries : SceArmCpuRegisters × SceArmCpuRegisters) (reg : Armv7RegId)
    (val : List U8) : Prop :=
  reg = .cpsr → isUserMode entries.1 = true →
    ofLeBytes 32 val &&& 0x1F#32 = 0x10#32 ∨
      entries.2 = { entries.1 with cpsr := ofLeBytes 32 val }

/-- The mode is that of the CPSR written, or as before. -/
theorem isUserMode_putCore {id size : Nat} {reg : Armv7RegId} (hid : fromRawId id = some (reg, size))
    (old : SceArmCpuRegisters) (value : U32) :
    isUserMode (putCore old value reg) =
      if reg = .cpsr then decide (value &&& 0x1F#32 = 0x10#32) else isUserMode old := by
  cases fromRawId_cases hid with
  | gpr i => rfl
  | dpr i => rfl
  | _ => rfl

/-- A core register has a value. -/
theorem coreValue_ok {id size : Nat} {reg : Armv7RegId} (hid : fromRawId id = some (reg, size))
    (hcore : ∀ n, reg ≠ .dpr n) (thRegs : SceArmCpuRegisters) :
    ∃ value, coreValue thRegs reg = .ok value := by
  cases fromRawId_cases hid with
  | gpr i => exact ⟨_, coreValue_gpr thRegs i⟩
  | dpr i => exact absurd rfl (hcore _)
  | _ => exact ⟨_, rfl⟩

/-- Files that agree on every register are the same. -/
theorem eq_of_coreValue {a b : SceArmCpuRegisters}
    (h : ∀ id reg, fromRawId id = some (reg, 4) → coreValue a reg = coreValue b reg) : a = b := by
  have hr : a.r = b.r := by
    funext i
    have hi := h i.val (.gpr (BitVec.ofNat 8 i.val)) (by fin_cases i <;> rfl)
    rw [coreValue_gpr, coreValue_gpr] at hi
    exact Outcome.ok.inj hi
  have hsp := Outcome.ok.inj (h 13 .sp rfl)
  have hlr := Outcome.ok.inj (h 14 .lr rfl)
  have hpc := Outcome.ok.inj (h 15 .pc rfl)
  have hcpsr := Outcome.ok.inj (h 16 .cpsr rfl)
  have hfpscr := Outcome.ok.inj (h 49 .fpscr rfl)
  cases a
  cases b
  simp_all

/-- What is written in place is what the getter finds, exactly where it looks there again. -/
theorem userEntry_put_iff {id size : Nat} {reg : Armv7RegId} (hid : fromRawId id = some (reg, size))
    (entries : SceArmCpuRegisters × SceArmCpuRegisters) (val : List U8) :
    userEntry (onEntryInUse (fun old => putCore old (ofLeBytes 32 val) reg) entries) =
        putCore (userEntry entries) (ofLeBytes 32 val) reg ↔ StaysInUse entries reg val := by
  have hmode := isUserMode_putCore hid entries.1 (ofLeBytes 32 val)
  by_cases hleaves : reg = .cpsr ∧ isUserMode entries.1 = true ∧
      ¬ ofLeBytes 32 val &&& 0x1F#32 = 0x10#32
  · -- the first entry leaves user mode, and the getter looks at the second
    obtain ⟨rfl, hfirst, hother⟩ := hleaves
    rw [if_pos rfl, decide_eq_false hother] at hmode
    rw [userEntry_eq, userEntry_eq, onEntryInUse, if_pos hfirst, hmode, if_neg Bool.false_ne_true,
      if_pos hfirst]
    exact ⟨fun h _ _ => .inr h, fun h => (h rfl hfirst).resolve_left hother⟩
  · refine iff_of_true (userEntry_onEntryInUse fun hfirst => ?_) fun hcpsr hfirst => .inl ?_
    · rw [hmode]
      split
      · next hcpsr =>
        rw [decide_eq_true_eq]
        exact not_not.mp fun hother => hleaves ⟨hcpsr, hfirst, hother⟩
      · exact hfirst
    · exact not_not.mp fun hother => hleaves ⟨hcpsr, hfirst, hother⟩

/-- A write that reads back, and leaves every other register as it reads, puts its value into the
    file that is read. -/
theorem putCore_of_roundTrips {s : CoreSetter} {t : VitaTarget} {k k' : Kernel} {tid : SceUID}
    {id : Nat} {reg : Armv7RegId} {val : List U8} (hsession : t.session.isNone = false)
    (hid : fromRawId id = some (reg, 4)) (hcore : ∀ n, reg ≠ .dpr n) (hval : val.length = 4)
    (hround : WriteRoundTrips s t k tid reg val)
    (hwrite : writeRegister s k tid reg val = (.ok (), k')) :
    userEntry (k'.cpuRegs tid) = putCore (userEntry (k.cpuRegs tid)) (ofLeBytes 32 val) reg := by
  have hzero : (0#32).slt 0#32 = false := rfl
  have hbuf : (List.replicate 4 0#8).length = 4 := List.length_replicate
  apply eq_of_coreValue
  intro id' reg' hid'
  have hcore' : ∀ n, reg' ≠ .dpr n := by
    rintro n rfl
    exact nomatch fromRawId_cases hid'
  obtain ⟨value', hvalue'⟩ := coreValue_ok hid' hcore' (userEntry (k'.cpuRegs tid))
  have hnow := readRegister_core hsession hcore' hzero hvalue' hbuf
  by_cases hsame : reg' = reg
  · subst hsame
    -- the register itself reads as the value
    have hread := hround.same k' hwrite 0#32 (List.replicate 4 0#8) hzero (by rw [hbuf, hval])
    have hbytes := (Prod.mk.inj (Outcome.ok.inj (hnow.symm.trans hread))).2
    rw [hvalue', coreValue_putCore_self hid hcore, ← hbytes, ofLeBytes_toLeBytes (by decide)]
  · rw [coreValue_putCore_ne hid hid' hsame]
    obtain ⟨value, hvalue⟩ := coreValue_ok hid' hcore' (userEntry (k.cpuRegs tid))
    have hbefore := readRegister_core hsession hcore' hzero hvalue hbuf
    have hread := hround.others k' hwrite id' reg' 4 0#32 (List.replicate 4 0#8) hid' hsame
    rw [hnow, hbefore] at hread
    have hbytes := (Prod.mk.inj (Outcome.ok.inj hread)).2
    rw [hvalue', hvalue, toLeBytes_inj (by decide) hbytes]

/-- A write that puts its value into the file that is read, and nothing else, round-trips. -/
theorem roundTrips_of_putCore {s : CoreSetter} {t : VitaTarget} {k k₁ : Kernel} {tid : SceUID}
    {id : Nat} {reg : Armv7RegId} {val : List U8} (hsession : t.session.isNone = false)
    (hid : fromRawId id = some (reg, 4)) (hcore : ∀ n, reg ≠ .dpr n) (hval : val.length = 4)
    (hwrite : writeRegister s k tid reg val = (.ok (), k₁)) (hvfp : k₁.vfp = k.vfp)
    (hput : userEntry (k₁.cpuRegs tid) =
      putCore (userEntry (k.cpuRegs tid)) (ofLeBytes 32 val) reg) :
    WriteRoundTrips s t k tid reg val := by
  refine ⟨by simp [hwrite], fun k' h code buf hok hbuf => ?_,
    fun k' h id' reg' size' code buf hid' hne => ?_, fun err k' h => ?_⟩
  · obtain ⟨-, rfl⟩ := Prod.mk.inj (hwrite.symm.trans h)
    have hvalue := coreValue_putCore_self hid hcore (userEntry (k.cpuRegs tid)) (ofLeBytes 32 val)
    rw [← hput] at hvalue
    have hbytes := toLeBytes_ofLeBytes (w := 32) val (by omega)
    rw [hval] at hbytes hbuf ⊢
    rw [readRegister_core hsession hcore hok hvalue hbuf, hbytes]
  · obtain ⟨-, rfl⟩ := Prod.mk.inj (hwrite.symm.trans h)
    refine readRegister_congr ?_ (congrFun hvfp tid) code buf
    rw [hput, coreValue_putCore_ne hid hid' hne]
  · exact absurd (hwrite.symm.trans h) (by simp)

/-- **Single writes round-trip** exactly for the core registers, where the setter fails, or there is
    a session and the entry in use stays in use. -/
theorem writeRegister_roundTrips_iff (s : CoreSetter) (t : VitaTarget) (k : Kernel) (tid : SceUID)
    (id size : Nat) (reg : Armv7RegId) (val : List U8) (hid : fromRawId id = some (reg, size))
    (hval : val.length = size) :
    WriteRoundTrips s t k tid reg val ↔ (∀ n, reg ≠ .dpr n) ∧
      ((k.ret k.calls).slt 0#32 = true ∨
        t.session.isSome = true ∧ StaysInUse (k.cpuRegs tid) reg val) := by
  constructor
  · intro h
    have hcore : ∀ n, reg ≠ .dpr n := by
      rintro n rfl
      obtain rfl : size = 8 := by
        cases fromRawId_cases hid with
        | dpr i => rfl
      exact h.returns (by rw [writeRegister_dpr s k tid n hval])
    obtain rfl := core_of_size hid hcore
    refine ⟨hcore, ?_⟩
    rcases writeRegister_core s k tid hid hcore hval with ⟨hcode, -⟩ | ⟨-, k', hwrite, hentries, -⟩
    · exact .inl hcode
    · right
      cases hsession : t.session with
      | some i =>
        refine ⟨rfl, (userEntry_put_iff hid _ val).mp ?_⟩
        rw [← hentries]
        exact putCore_of_roundTrips (by rw [hsession]; rfl) hid hcore hval h hwrite
      | none =>
        -- nothing is read back
        have hread := h.same k' hwrite 0#32 (List.replicate 4 0#8) (by decide) (by simp [hval])
        unfold VitaTarget.readRegister at hread
        rw [hsession, Option.isNone_none, if_pos rfl, hval] at hread
        exact absurd hread (by simp)
  · rintro ⟨hcore, hwhen⟩
    obtain rfl := core_of_size hid hcore
    rcases writeRegister_core s k tid hid hcore hval with
      ⟨-, k₁, hwrite, hregs, hvfp⟩ | ⟨hcode, k₁, hwrite, hentries, hvfp⟩
    · refine ⟨by simp [hwrite], fun k' h => ?_, fun k' h => ?_, fun err k' h => ?_⟩
      · exact absurd (hwrite.symm.trans h) (by simp)
      · exact absurd (hwrite.symm.trans h) (by simp)
      · obtain ⟨-, rfl⟩ := Prod.mk.inj (hwrite.symm.trans h)
        exact ⟨hregs, hvfp⟩
    · obtain ⟨hsome, hstays⟩ := hwhen.resolve_left (by rw [hcode]; exact Bool.false_ne_true)
      have hsession : t.session.isNone = false := by
        rw [← Option.not_isSome, hsome, Bool.not_true]
      refine roundTrips_of_putCore hsession hid hcore hval hwrite hvfp ?_
      rw [hentries]
      exact (userEntry_put_iff hid _ val).mpr hstays

/-- `r3`, of a thread with a session. -/
theorem writeRegister_roundTrips_r3 :
    WriteRoundTrips .inPlace withSession (.quiet fun _ _ => none) 9#32 (.gpr 3#8)
      [0x78#8, 0x56#8, 0x34#8, 0x12#8] :=
  (writeRegister_roundTrips_iff _ _ _ _ 3 4 _ _ rfl rfl).mpr ⟨by simp, .inr ⟨rfl, nofun⟩⟩

/-- **A write of `d0`** ends in a panic. -/
theorem writeRegister_panics :
    ¬ ∀ (s : CoreSetter) (t : VitaTarget) (k : Kernel) (tid : SceUID) (id size : Nat)
      (reg : Armv7RegId) (val : List U8), fromRawId id = some (reg, size) → val.length = size →
      WriteRoundTrips s t k tid reg val := by
  intro hclaim
  have hround := hclaim .inPlace withSession (.quiet fun _ _ => none) 9#32 17 8 (.dpr 0#8)
    (List.replicate 8 0#8) rfl rfl
  exact hround.returns rfl

/-! ## All registers -/

/-- What the VFP getter and setter answer for a thread: they fail, with this code, where it has no
    VFP context. -/
structure VfpAnswers (hasVfp : Prop) (code : I32) : Prop where
  present : hasVfp → code.slt 0#32 = false
  absent : ¬ hasVfp → code = 0x80020008#32

/-- The registers of a thread are as they were. -/
def SameRegs (k k' : Kernel) (tid : SceUID) : Prop :=
  k'.cpuRegs tid = k.cpuRegs tid ∧ k'.vfp tid = k.vfp tid

/-- Writing these registers succeeds and changes nothing. -/
def WritesBack (s : CoreSetter) (k : Kernel) (regs : Armv7Regs) (tid : SceUID) : Prop :=
  ∃ k', writeRegisters s k regs tid = (.ok (), k') ∧ SameRegs k k' tid

/-- Where writing these registers fails, nothing has changed. -/
def AllOrNothing (s : CoreSetter) (k : Kernel) (regs : Armv7Regs) (tid : SceUID) : Prop :=
  ∀ err k', writeRegisters s k regs tid = (.err err, k') → SameRegs k k' tid

/-- The mask of all registers names every register. -/
theorem masked_all (old new : SceArmCpuRegisters) : masked old new allRegisters = new := by
  have hbit : ∀ i < 18, allRegisters.getLsbD i = true := by decide
  rw [masked, if_pos (hbit 13 (by omega)), if_pos (hbit 14 (by omega)), if_pos (hbit 15 (by omega)),
    if_pos (hbit 16 (by omega)), if_pos (hbit 17 (by omega))]
  congr 1
  funext i
  rw [if_pos (hbit i.val (by omega))]

/-- The VFP setter fails and changes nothing, or sets the VFP registers. -/
theorem setVfpRegisters_goes (k : Kernel) (tid : SceUID) (d : Fin 32 → U64) :
    ∃ res k', setVfpRegisters k tid d = (res, k') ∧ k'.cpuRegs = k.cpuRegs ∧
      ((k.ret k.calls).slt 0#32 = true ∧ (∃ err, res = .error err) ∧ k'.vfp = k.vfp ∨
        (k.ret k.calls).slt 0#32 = false ∧ (∃ code, res = .ok code) ∧ k'.vfp tid = d) := by
  cases hcode : (k.ret k.calls).slt 0#32 with
  | true =>
    rw [setVfpRegisters, Kernel.sceCall_of_neg hcode]
    exact ⟨_, _, rfl, rfl, .inl ⟨rfl, ⟨_, rfl⟩, rfl⟩⟩
  | false =>
    rw [setVfpRegisters, Kernel.sceCall_of_nonneg hcode]
    exact ⟨_, _, rfl, rfl, .inr ⟨rfl, ⟨_, rfl⟩, Function.update_self tid d k.vfp⟩⟩

/-- The entries with all core registers set. -/
def setAll (regs : Armv7Regs) :
    SceArmCpuRegisters × SceArmCpuRegisters → SceArmCpuRegisters × SceArmCpuRegisters :=
  onEntryInUse fun _ => regs.toSceArmCpuRegisters

/-- Nothing is set exactly where the thread has these registers. -/
theorem setAll_eq_self_iff (regs : Armv7Regs) (entries : SceArmCpuRegisters × SceArmCpuRegisters) :
    setAll regs entries = entries ↔ regs.toSceArmCpuRegisters = userEntry entries :=
  onEntryInUse_eq_self_iff _ entries

/-- What `write_registers` can do: nothing, the core registers alone, or everything. -/
inductive WriteGoes (k : Kernel) (regs : Armv7Regs) (tid : SceUID) :
    Outcome TargetError Unit × Kernel → Prop where
  | nothing (k' : Kernel) (hcode : (k.ret k.calls).slt 0#32 = true)
      (hcore : k'.cpuRegs = k.cpuRegs) (hvfp : k'.vfp = k.vfp) :
      WriteGoes k regs tid (.err .nonFatal, k')
  | core (k' : Kernel) (hcode : (k.ret k.calls).slt 0#32 = false)
      (hcode' : (k.ret (k.calls + 1)).slt 0#32 = true)
      (hcore : k'.cpuRegs tid = setAll regs (k.cpuRegs tid)) (hvfp : k'.vfp = k.vfp) :
      WriteGoes k regs tid (.err .nonFatal, k')
  | all (k' : Kernel) (hcode : (k.ret k.calls).slt 0#32 = false)
      (hcode' : (k.ret (k.calls + 1)).slt 0#32 = false)
      (hcore : k'.cpuRegs tid = setAll regs (k.cpuRegs tid)) (hvfp : k'.vfp tid = regs.d) :
      WriteGoes k regs tid (.ok (), k')

theorem writeRegisters_goes (s : CoreSetter) (k : Kernel) (regs : Armv7Regs) (tid : SceUID) :
    WriteGoes k regs tid (writeRegisters s k regs tid) := by
  rw [writeRegisters]
  obtain ⟨_, k₁, hcall, hvfp, hret, hcalls, ⟨hcode, ⟨err, rfl⟩, hregs⟩ | ⟨hcode, ⟨code, rfl⟩, hregs⟩⟩ :=
    s.call_goes k tid regs.toSceArmCpuRegisters allRegisters
  · rw [hcall]
    exact .nothing k₁ hcode hregs hvfp
  · rw [hcall]
    dsimp only
    have hall : k₁.cpuRegs tid = setAll regs (k.cpuRegs tid) := by
      rw [hregs, setAll]
      exact congrArg (fun change => onEntryInUse change (k.cpuRegs tid))
        (funext fun old => masked_all old _)
    obtain ⟨_, k₂, hset, hsame, ⟨hcode', ⟨err, rfl⟩, hvfp'⟩ | ⟨hcode', ⟨_, rfl⟩, hvfp'⟩⟩ :=
      setVfpRegisters_goes k₁ tid regs.d
    · rw [hset]
      rw [hret, hcalls] at hcode'
      exact .core k₂ hcode hcode' (by rw [hsame, hall]) (hvfp'.trans hvfp)
    · rw [hset]
      rw [hret, hcalls] at hcode'
      exact .all k₂ hcode hcode' (by rw [hsame, hall]) hvfp'

/-- A failing write leaves something changed exactly where the core registers were set, to other
    values, and the VFP registers then were not. -/
theorem allOrNothing_iff (s : CoreSetter) (k : Kernel) (regs : Armv7Regs) (tid : SceUID) :
    AllOrNothing s k regs tid ↔ ¬ ((k.ret k.calls).slt 0#32 = false ∧
      (k.ret (k.calls + 1)).slt 0#32 = true ∧
      regs.toSceArmCpuRegisters ≠ userEntry (k.cpuRegs tid)) := by
  have hgoes := writeRegisters_goes s k regs tid
  rw [AllOrNothing]
  generalize writeRegisters s k regs tid = answer at hgoes
  cases hgoes with
  | nothing k' hcode hcore hvfp =>
    refine ⟨fun _ h => absurd (hcode.symm.trans h.1) (by simp), fun _ err k'' h => ?_⟩
    obtain ⟨-, rfl⟩ := Prod.mk.inj h
    exact ⟨by rw [hcore], by rw [hvfp]⟩
  | core k' hcode hcode' hcore hvfp =>
    constructor
    · rintro h ⟨-, -, hne⟩
      exact hne ((setAll_eq_self_iff regs _).mp (hcore.symm.trans (h _ _ rfl).1))
    · intro h err k'' heq
      obtain ⟨-, rfl⟩ := Prod.mk.inj heq
      have hown : regs.toSceArmCpuRegisters = userEntry (k.cpuRegs tid) :=
        not_not.mp fun hne => h ⟨hcode, hcode', hne⟩
      exact ⟨hcore.trans ((setAll_eq_self_iff regs _).mpr hown), by rw [hvfp]⟩
  | all k' hcode hcode' hcore hvfp =>
    refine ⟨fun _ h => absurd (hcode'.symm.trans h.2.1) (by simp), fun _ err k'' h => ?_⟩
    exact absurd h (by simp)

/-- `read_registers` leaves everything as it is. -/
theorem readRegisters_leaves {k k₁ : Kernel} {tid : SceUID} {regs : Armv7Regs}
    (h : VitaGdb.readRegisters k tid = (some regs, k₁)) :
    k₁ = { k with calls := k.calls + 2 } := by
  have hgoes := readRegisters_goes k tid
  rw [h] at hgoes
  cases hgoes with
  | whole hcore hvfp => rfl
  | noVfp hcore hvfp hcode => rfl

/-- **Bulk writes**: what was read can be written back exactly where the thread has a VFP context,
    and a failing write has left something changed exactly where the core registers were set, to
    other values, and the VFP registers then were not. -/
theorem writeRegisters_whole_iff (s : CoreSetter) (t : VitaTarget) (k k₁ : Kernel) (tid : SceUID)
    (own : Armv7Regs) (hasVfp : Prop) (hread : t.readRegisters k tid = (some own, k₁))
    (hget : VfpAnswers hasVfp (k.ret (k.calls + 1))) (hset : VfpAnswers hasVfp (k.ret (k.calls + 3)))
    (hcore : (k.ret (k.calls + 2)).slt 0#32 = false) :
    (WritesBack s k₁ own tid ↔ hasVfp) ∧ ∀ (k : Kernel) (regs : Armv7Regs),
      AllOrNothing s k regs tid ↔ ¬ ((k.ret k.calls).slt 0#32 = false ∧
        (k.ret (k.calls + 1)).slt 0#32 = true ∧
        regs.toSceArmCpuRegisters ≠ userEntry (k.cpuRegs tid)) := by
  refine ⟨?_, fun k regs => allOrNothing_iff s k regs tid⟩
  have hread' : VitaGdb.readRegisters k tid = (some own, k₁) := by
    rw [VitaTarget.readRegisters] at hread
    split at hread
    · exact absurd (congrArg Prod.fst hread) (by simp)
    · exact hread
  obtain ⟨hown, hd⟩ := readRegisters_eq hread'
  obtain rfl := readRegisters_leaves hread'
  have hgoes := writeRegisters_goes s { k with calls := k.calls + 2 } own tid
  rw [WritesBack]
  generalize writeRegisters s { k with calls := k.calls + 2 } own tid = answer at hgoes
  cases hgoes with
  | nothing k' hcode hcore' hvfp => exact absurd (hcore.symm.trans hcode) (by simp)
  | core k' hcode hcode' hcore' hvfp =>
    constructor
    · rintro ⟨k'', h, -⟩
      exact absurd h (by simp)
    · intro hhas
      exact absurd ((hset.present hhas).symm.trans hcode') (by simp)
  | all k' hcode hcode' hcore' hvfp =>
    have hhas : hasVfp := by
      by_contra hnot
      rw [show (k.ret (k.calls + 3)).slt 0#32 = true by rw [hset.absent hnot]; decide] at hcode'
      exact absurd hcode' (by simp)
    refine ⟨fun _ => hhas, fun _ => ⟨k', rfl, ?_, hvfp.trans ?_⟩⟩
    · exact hcore'.trans ((setAll_eq_self_iff own _).mpr hown)
    rcases hd with ⟨-, hd⟩ | ⟨hneg, -⟩
    · exact hd
    · exact absurd ((hget.present hhas).symm.trans hneg) (by simp)

/-- The target's own thread: read, and written back. -/
theorem writeRegisters_whole_quiet :
    WritesBack .inPlace { Kernel.quiet (fun _ _ => none) with calls := 2 }
      { userEntry (default, default) with d := fun _ => 0#64 } 9#32 :=
  (writeRegisters_whole_iff .inPlace withSession (.quiet fun _ _ => none) _ 9#32 _ True rfl
    ⟨fun _ => rfl, fun h => absurd trivial h⟩ ⟨fun _ => rfl, fun h => absurd trivial h⟩ rfl).1.mpr
    trivial

/-- A thread without VFP context: the core registers are set, and the call fails. -/
def noVfpSetter : Kernel :=
  { Kernel.quiet (fun _ _ => none) with
    ret := fun n => if n % 2 = 0 then 0#32 else 0x80020008#32 }

/-- Other registers than those of that thread. -/
def otherRegs : Armv7Regs := { zeroedRegs with pc := 0x81000000#32, d := fun _ => 0#64 }

/-- **Neither holds of a thread without VFP context**. -/
theorem writeRegisters_half :
    (¬ ∀ (s : CoreSetter) (t : VitaTarget) (k k₁ : Kernel) (tid : SceUID) (own : Armv7Regs)
      (hasVfp : Prop), t.readRegisters k tid = (some own, k₁) →
      VfpAnswers hasVfp (k.ret (k.calls + 1)) → VfpAnswers hasVfp (k.ret (k.calls + 3)) →
      (k.ret (k.calls + 2)).slt 0#32 = false → WritesBack s k₁ own tid) ∧
    ¬ ∀ (s : CoreSetter) (k : Kernel) (regs : Armv7Regs) (tid : SceUID),
      AllOrNothing s k regs tid := by
  constructor
  · intro hclaim
    have habsent : VfpAnswers False 0x80020008#32 := ⟨False.elim, fun _ => rfl⟩
    obtain ⟨k', hwrite, -⟩ := hclaim .inPlace withSession noVfpSetter
      { noVfpSetter with calls := 2 } 9#32
      { userEntry (default, default) with d := fun _ => 0x7ff8dead7f80dead#64 } False rfl habsent
      habsent rfl
    have hfails : (writeRegisters .inPlace { noVfpSetter with calls := 2 }
        { userEntry (default, default) with d := fun _ => 0x7ff8dead7f80dead#64 } 9#32).1 =
        .err .nonFatal := by decide
    exact absurd (hfails.symm.trans (congrArg Prod.fst hwrite)) (by simp)
  · intro hclaim
    have hsame := (hclaim .inPlace noVfpSetter otherRegs 9#32 .nonFatal _ rfl).1
    exact absurd (congrArg (fun entries => entries.2.pc) hsame) (by decide)

end VitaGdb
