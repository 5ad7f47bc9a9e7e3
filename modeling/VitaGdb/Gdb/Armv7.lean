/-
  `gdb/armv7.rs`: the registers gdb sees, their numbers and their packet.

  A register packet is the core registers, the VFP registers and the FPSCR, little-endian, one
  behind the other.  `gdb_serialize` writes it; `gdb_deserialize` checks the length and stores
  register by register what it takes off the input, so an error half way would leave some
  registers changed.

  The fifty registers are the fields of a layout (`armv7Layout`), in the order of their numbers.
  Both functions are the layout's (`gdbSerialize_eq`, `deserializeFields_eq`), which gives the
  round trips (`gdbDeserialize_roundTrip`).
-/
import VitaGdb.Kernel.Calls
import VitaGdb.Lib.RecordBytes

namespace VitaGdb

open RecordBytes

abbrev U64 := BitVec 64

/-! ## Register numbers -/

/-- `Armv7RegId`. -/
inductive Armv7RegId where
  | gpr (n : U8)
  | sp
  | lr
  | pc
  | cpsr
  | dpr (n : U8)
  | fpscr
  deriving DecidableEq, Repr

/-- The bytes of a register. -/
def Armv7RegId.size : Armv7RegId → Nat
  | .dpr _ => 8
  | _ => 4

/-- `Armv7RegId::from_raw_id`: the register and its size. -/
def fromRawId (id : Nat) : Option (Armv7RegId × Nat) :=
  let reg : Option Armv7RegId :=
    if id ≤ 12 then some (.gpr (BitVec.ofNat 8 id))
    else if id = 13 then some .sp
    else if id = 14 then some .lr
    else if id = 15 then some .pc
    else if id = 16 then some .cpsr
    else if id ≤ 48 then some (.dpr (BitVec.ofNat 8 (id - 17)))
    else if id = 49 then some .fpscr
    else none
  reg.map fun reg => (reg, reg.size)

/-! ## The packet -/

/-- `Armv7Regs`: the core registers and the VFP registers. -/
structure Armv7Regs extends SceArmCpuRegisters where
  d : Fin 32 → BitVec 64

/-- `Armv7Regs::gdb_serialize`: the bytes handed to `write_byte`. -/
def gdbSerialize (regs : Armv7Regs) : List U8 :=
  ((List.finRange 13).flatMap fun i => toLeBytes 4 (regs.r i)) ++
    toLeBytes 4 regs.sp ++ toLeBytes 4 regs.lr ++ toLeBytes 4 regs.pc ++ toLeBytes 4 regs.cpsr ++
    ((List.finRange 32).flatMap fun i => toLeBytes 8 (regs.d i)) ++
    toLeBytes 4 regs.fpscr

/-- `next_u32`: the word, and the unread bytes. -/
def nextU32 (bytes : List U8) : Option (U32 × List U8) :=
  if bytes.length < 4 then none else some (ofLeBytes 32 (bytes.take 4), bytes.drop 4)

/-- `next_u64`. -/
def nextU64 (bytes : List U8) : Option (U64 × List U8) :=
  if bytes.length < 8 then none else some (ofLeBytes 64 (bytes.take 8), bytes.drop 8)

/-- `*reg = next(&mut bytes)?`: an error leaves the registers as they are. -/
def storeNext {α : Type} (next : List U8 → Option (α × List U8)) (set : α → Armv7Regs → Armv7Regs)
    (regs : Armv7Regs) (bytes : List U8) : Except Armv7Regs (Armv7Regs × List U8) :=
  match next bytes with
  | none => .error regs
  | some (value, bytes) => .ok (set value regs, bytes)

/-- The loops over `r` and `d`. -/
def storeEach {α ι : Type} (next : List U8 → Option (α × List U8))
    (set : ι → α → Armv7Regs → Armv7Regs) :
    List ι → Armv7Regs → List U8 → Except Armv7Regs (Armv7Regs × List U8)
  | [], regs, bytes => .ok (regs, bytes)
  | i :: is, regs, bytes =>
    match storeNext next (set i) regs bytes with
    | .error regs => .error regs
    | .ok (regs, bytes) => storeEach next set is regs bytes

def Armv7Regs.setR (i : Fin 13) (v : U32) (regs : Armv7Regs) : Armv7Regs :=
  { regs with r := Function.update regs.r i v }
def Armv7Regs.setSp (v : U32) (regs : Armv7Regs) : Armv7Regs := { regs with sp := v }
def Armv7Regs.setLr (v : U32) (regs : Armv7Regs) : Armv7Regs := { regs with lr := v }
def Armv7Regs.setPc (v : U32) (regs : Armv7Regs) : Armv7Regs := { regs with pc := v }
def Armv7Regs.setCpsr (v : U32) (regs : Armv7Regs) : Armv7Regs := { regs with cpsr := v }
def Armv7Regs.setD (i : Fin 32) (v : U64) (regs : Armv7Regs) : Armv7Regs :=
  { regs with d := Function.update regs.d i v }
def Armv7Regs.setFpscr (v : U32) (regs : Armv7Regs) : Armv7Regs := { regs with fpscr := v }

open Armv7Regs in
/-- The body of `gdb_deserialize` behind the length check. -/
def deserializeFields (regs : Armv7Regs) (bytes : List U8) :
    Except Armv7Regs (Armv7Regs × List U8) := do
  let (regs, bytes) ← storeEach nextU32 setR (List.finRange 13) regs bytes
  let (regs, bytes) ← storeNext nextU32 setSp regs bytes
  let (regs, bytes) ← storeNext nextU32 setLr regs bytes
  let (regs, bytes) ← storeNext nextU32 setPc regs bytes
  let (regs, bytes) ← storeNext nextU32 setCpsr regs bytes
  let (regs, bytes) ← storeEach nextU64 setD (List.finRange 32) regs bytes
  storeNext nextU32 setFpscr regs bytes

/-- `EXPECTED_LEN`. -/
def expectedLen : Nat := 17 * 4 + 32 * 8 + 1 * 4

/-- `Armv7Regs::gdb_deserialize`: the registers afterwards, and the answer. -/
def gdbDeserialize (regs : Armv7Regs) (bytes : List U8) : Armv7Regs × Except Unit Unit :=
  if bytes.length ≠ expectedLen then (regs, .error ())
  else
    match deserializeFields regs bytes with
    | .error regs => (regs, .error ())
    | .ok (regs, bytes) => if bytes.isEmpty then (regs, .ok ()) else (regs, .error ())

/-! ## The packet as a layout -/

def gprField (i : Fin 13) : Field Armv7Regs U8 :=
  .word 4 rfl (fun regs => regs.r i) (Armv7Regs.setR i) fun _ _ => Function.update_self ..
def spField : Field Armv7Regs U8 :=
  .word 4 rfl (fun regs => regs.sp) Armv7Regs.setSp fun _ _ => rfl
def lrField : Field Armv7Regs U8 :=
  .word 4 rfl (fun regs => regs.lr) Armv7Regs.setLr fun _ _ => rfl
def pcField : Field Armv7Regs U8 :=
  .word 4 rfl (fun regs => regs.pc) Armv7Regs.setPc fun _ _ => rfl
def cpsrField : Field Armv7Regs U8 :=
  .word 4 rfl (fun regs => regs.cpsr) Armv7Regs.setCpsr fun _ _ => rfl
def dprField (i : Fin 32) : Field Armv7Regs U8 :=
  .word 8 rfl (fun regs => regs.d i) (Armv7Regs.setD i) fun _ _ => Function.update_self ..
def fpscrField : Field Armv7Regs U8 :=
  .word 4 rfl (fun regs => regs.fpscr) Armv7Regs.setFpscr fun _ _ => rfl

/-- The registers, by number. -/
def armv7Fields : List (Field Armv7Regs U8) :=
  (List.finRange 13).map gprField ++ [spField, lrField, pcField, cpsrField] ++
    (List.finRange 32).map dprField ++ [fpscrField]

theorem gprField_undisturbed {i j : Fin 13} (h : i ≠ j) :
    Undisturbed (gprField i) (gprField j) := by
  apply undisturbed_word
  intro v regs
  show Function.update regs.r j v i = regs.r i
  rw [Function.update_of_ne h]

theorem dprField_undisturbed {i j : Fin 32} (h : i ≠ j) :
    Undisturbed (dprField i) (dprField j) := by
  apply undisturbed_word
  intro v regs
  show Function.update regs.d j v i = regs.d i
  rw [Function.update_of_ne h]

/-- No register is disturbed by a later one. -/
theorem armv7Fields_apart : armv7Fields.Pairwise Undisturbed := by
  have hgpr : ((List.finRange 13).map gprField).Pairwise Undisturbed := by
    rw [List.pairwise_map]
    exact (List.nodup_finRange 13).imp gprField_undisturbed
  have hdpr : ((List.finRange 32).map dprField).Pairwise Undisturbed := by
    rw [List.pairwise_map]
    exact (List.nodup_finRange 32).imp dprField_undisturbed
  unfold armv7Fields
  simp only [List.append_assoc, List.cons_append, List.nil_append, List.pairwise_append,
    List.pairwise_cons, List.forall_mem_cons, List.forall_mem_append, List.forall_mem_map,
    List.not_mem_nil, false_implies, implies_true, List.Pairwise.nil, and_true]
  -- registers of different kinds are different components of the structure
  refine ⟨hgpr, ?_, ?_⟩
  · and_intros
    all_goals first
      | exact hdpr
      | trivial
      | exact fun _ _ => rfl
      | exact fun _ _ _ _ => rfl
  · intro i _
    and_intros
    all_goals first
      | exact fun _ _ => rfl
      | exact fun _ _ _ _ => rfl

/-- Registers that agree on all fields are equal. -/
theorem armv7Fields_whole (s t : Armv7Regs) (h : ∀ f ∈ armv7Fields, f.get s = f.get t) : s = t := by
  have hr : ∀ i, s.r i = t.r i := fun i =>
    toLeBytes_inj (by omega) (h (gprField i) (by simp [armv7Fields]))
  have hd : ∀ i, s.d i = t.d i := fun i =>
    toLeBytes_inj (by omega) (h (dprField i) (by simp [armv7Fields]))
  have hsp : s.sp = t.sp := toLeBytes_inj (by omega) (h spField (by simp [armv7Fields]))
  have hlr : s.lr = t.lr := toLeBytes_inj (by omega) (h lrField (by simp [armv7Fields]))
  have hpc : s.pc = t.pc := toLeBytes_inj (by omega) (h pcField (by simp [armv7Fields]))
  have hcpsr : s.cpsr = t.cpsr := toLeBytes_inj (by omega) (h cpsrField (by simp [armv7Fields]))
  have hfpscr : s.fpscr = t.fpscr := toLeBytes_inj (by omega) (h fpscrField (by simp [armv7Fields]))
  obtain ⟨⟨r, sp, lr, pc, cpsr, fpscr⟩, d⟩ := s
  obtain ⟨⟨r', sp', lr', pc', cpsr', fpscr'⟩, d'⟩ := t
  simp only at hr hd hsp hlr hpc hcpsr hfpscr
  rw [funext hr, funext hd, hsp, hlr, hpc, hcpsr, hfpscr]

/-- The register packet. -/
def armv7Layout : Layout Armv7Regs U8 := ⟨armv7Fields, armv7Fields_apart, armv7Fields_whole⟩

/-- `gdb_serialize` writes the registers by number. -/
theorem gdbSerialize_eq (regs : Armv7Regs) : gdbSerialize regs = encode armv7Fields regs := by
  have hr : encode ((List.finRange 13).map gprField) regs =
      (List.finRange 13).flatMap fun i => toLeBytes 4 (regs.r i) := by
    rw [encode, List.flatMap_map]
    rfl
  have hcore : encode [spField, lrField, pcField, cpsrField] regs =
      toLeBytes 4 regs.sp ++ (toLeBytes 4 regs.lr ++ (toLeBytes 4 regs.pc ++
        (toLeBytes 4 regs.cpsr ++ []))) := rfl
  have hd : encode ((List.finRange 32).map dprField) regs =
      (List.finRange 32).flatMap fun i => toLeBytes 8 (regs.d i) := by
    rw [encode, List.flatMap_map]
    rfl
  have hfpscr : encode [fpscrField] regs = toLeBytes 4 regs.fpscr ++ [] := rfl
  rw [armv7Fields, encode_append, encode_append, encode_append, hr, hcore, hd, hfpscr]
  simp only [gdbSerialize, List.append_nil, List.append_assoc]

/-- `next_u32` and a store are a word off the input. -/
theorem storeNext_u32 {get : Armv7Regs → U32} {set : U32 → Armv7Regs → Armv7Regs}
    {get_set : ∀ v s, get (set v s) = v} (regs : Armv7Regs) (bytes : List U8) :
    storeNext nextU32 set regs bytes = (Field.word 4 rfl get set get_set).decode regs bytes := by
  unfold storeNext nextU32 Field.decode
  by_cases hshort : bytes.length < 4
  · rw [if_pos hshort]
    exact (if_pos hshort).symm
  · rw [if_neg hshort]
    exact (if_neg hshort).symm

theorem storeNext_u64 {get : Armv7Regs → U64} {set : U64 → Armv7Regs → Armv7Regs}
    {get_set : ∀ v s, get (set v s) = v} (regs : Armv7Regs) (bytes : List U8) :
    storeNext nextU64 set regs bytes = (Field.word 8 rfl get set get_set).decode regs bytes := by
  unfold storeNext nextU64 Field.decode
  by_cases hshort : bytes.length < 8
  · rw [if_pos hshort]
    exact (if_pos hshort).symm
  · rw [if_neg hshort]
    exact (if_neg hshort).symm

/-- A loop of stores takes one field after the other. -/
theorem storeEach_eq {α ι : Type} {next : List U8 → Option (α × List U8)}
    {set : ι → α → Armv7Regs → Armv7Regs} {field : ι → Field Armv7Regs U8}
    (hfield : ∀ i regs bytes, storeNext next (set i) regs bytes = (field i).decode regs bytes)
    (is : List ι) (regs : Armv7Regs) (bytes : List U8) :
    storeEach next set is regs bytes = decode (is.map field) regs bytes := by
  induction is generalizing regs bytes with
  | nil => rfl
  | cons i is ih =>
    rw [storeEach, hfield, List.map_cons, decode]
    cases (field i).decode regs bytes with
    | error regs => rfl
    | ok rb => exact ih rb.1 rb.2

/-- The body of `gdb_deserialize` takes the registers by number. -/
theorem deserializeFields_eq (regs : Armv7Regs) (bytes : List U8) :
    deserializeFields regs bytes = decode armv7Fields regs bytes := by
  have hr : ∀ regs bytes, storeEach nextU32 Armv7Regs.setR (List.finRange 13) regs bytes =
      decode ((List.finRange 13).map gprField) regs bytes :=
    storeEach_eq (fun i => storeNext_u32) _
  have hd : ∀ regs bytes, storeEach nextU64 Armv7Regs.setD (List.finRange 32) regs bytes =
      decode ((List.finRange 32).map dprField) regs bytes :=
    storeEach_eq (fun i => storeNext_u64) _
  have hsp : ∀ regs bytes, storeNext nextU32 Armv7Regs.setSp regs bytes = spField.decode regs bytes :=
    storeNext_u32
  have hlr : ∀ regs bytes, storeNext nextU32 Armv7Regs.setLr regs bytes = lrField.decode regs bytes :=
    storeNext_u32
  have hpc : ∀ regs bytes, storeNext nextU32 Armv7Regs.setPc regs bytes = pcField.decode regs bytes :=
    storeNext_u32
  have hcpsr : ∀ regs bytes,
      storeNext nextU32 Armv7Regs.setCpsr regs bytes = cpsrField.decode regs bytes := storeNext_u32
  have hfpscr : ∀ regs bytes,
      storeNext nextU32 Armv7Regs.setFpscr regs bytes = fpscrField.decode regs bytes := storeNext_u32
  have hcore : [spField, lrField, pcField, cpsrField] =
      [spField] ++ [lrField] ++ [pcField] ++ [cpsrField] := rfl
  unfold deserializeFields armv7Fields
  simp only [hcore, hr, hd, hsp, hlr, hpc, hcpsr, hfpscr, decode_append, decode_singleton, bind_assoc]

/-! ## Round trips -/

/-- The accepted length is the size of the fifty registers. -/
theorem totalSize_armv7Fields : totalSize armv7Fields = expectedLen := by decide

@[simp] theorem length_gdbSerialize (regs : Armv7Regs) :
    (gdbSerialize regs).length = expectedLen := by
  rw [gdbSerialize_eq, length_encode, totalSize_armv7Fields]

/-- An input of the accepted length is taken off register by register, to its end. -/
theorem gdbDeserialize_of_length {bytes : List U8} (h : bytes.length = expectedLen)
    {regs regs' : Armv7Regs} (hdecode : decode armv7Fields regs bytes = .ok (regs', [])) :
    gdbDeserialize regs bytes = (regs', .ok ()) := by
  unfold gdbDeserialize
  rw [if_neg (not_not.mpr h), deserializeFields_eq, hdecode]
  rfl

/-- **Register packets round-trip**, both ways, and an input of another length changes nothing. -/
theorem gdbDeserialize_roundTrip :
    (∀ r s : Armv7Regs, gdbDeserialize s (gdbSerialize r) = (r, .ok ())) ∧
      (∀ (s : Armv7Regs) (bytes : List U8), bytes.length = expectedLen →
        ∃ r, gdbDeserialize s bytes = (r, .ok ()) ∧ gdbSerialize r = bytes) ∧
      ∀ (s : Armv7Regs) (bytes : List U8), bytes.length ≠ expectedLen →
        gdbDeserialize s bytes = (s, .error ()) := by
  refine ⟨?_, ?_, ?_⟩
  · intro r s
    apply gdbDeserialize_of_length (length_gdbSerialize r)
    rw [gdbSerialize_eq]
    exact armv7Layout.decode_encode r s
  · intro s bytes hlen
    obtain ⟨r, hdecode, hencode⟩ := armv7Layout.encode_decode s
      (hlen.trans totalSize_armv7Fields.symm)
    exact ⟨r, gdbDeserialize_of_length hlen hdecode, (gdbSerialize_eq r).trans hencode⟩
  · intro s bytes hlen
    unfold gdbDeserialize
    rw [if_pos hlen]

/-- Registers that are all zero. -/
def zeroRegs : Armv7Regs where
  r := fun _ => 0#32
  sp := 0#32
  lr := 0#32
  pc := 0#32
  cpsr := 0#32
  fpscr := 0#32
  d := fun _ => 0#64

/-- Registers that are all different, and a packet whose bytes count up. -/
def countedRegs : Armv7Regs where
  r := fun i => BitVec.ofNat 32 (0x1000 + i)
  sp := 0x81000000#32
  lr := 0x81000101#32
  pc := 0x81000202#32
  cpsr := 0x60000010#32
  fpscr := 0x03000000#32
  d := fun i => BitVec.ofNat 64 (0x4000000000000000 + i)

def countedPacket : List U8 := (List.range expectedLen).map (BitVec.ofNat 8)

theorem gdbDeserialize_roundTrip_counted :
    gdbDeserialize zeroRegs (gdbSerialize countedRegs) = (countedRegs, .ok ()) ∧
      (∃ r, gdbDeserialize zeroRegs countedPacket = (r, .ok ()) ∧ gdbSerialize r = countedPacket) ∧
      gdbDeserialize countedRegs (countedPacket.take 327) = (countedRegs, .error ()) := by
  obtain ⟨hthere, hback, hother⟩ := gdbDeserialize_roundTrip
  have hlen : countedPacket.length = expectedLen := by
    rw [countedPacket, List.length_map, List.length_range]
  refine ⟨hthere countedRegs zeroRegs, hback zeroRegs countedPacket hlen, hother countedRegs _ ?_⟩
  rw [List.length_take, hlen]
  decide

end VitaGdb
