/-
  `kernel/utils.rs` and `mep.rs`: words of physical memory, read and written for the monitor.

  The kernel reaches a physical address by mapping its page as a memory block, for one access; the
  block is freed behind it.  The secure processor reaches more of them: a copy function that it runs
  is given its arguments in a block of shared memory, which is mapped once and kept
  (`FUD_COMMS`), and the word is handed over behind the arguments, in the place of the fourth.

  Any of the kernel's calls may fail, and a block whose base is not answered, or whose freeing
  fails, stays behind.  An access that leaves its block, is not aligned, or is of an address where
  nothing answers ends in a fault, written as `none` and then as a panic.

  `Spl` is the code on the secure processor, which is not part of this program.
-/
import VitaGdb.Kernel.Basic
import VitaGdb.Lib.HandleTable
import VitaGdb.Lib.RecordBytes

namespace VitaGdb

open HandleTable (Handles)
open RecordBytes (toLeBytes ofLeBytes)

/-! ## Words of memory -/

/-- Physical memory: the content of the addresses where something answers. -/
abbrev PhysMem := ByteMem.Mem 32 U8

namespace PhysMem

/-- A load of a word. -/
def loadWord (m : PhysMem) (addr : U32) : Option U32 := (ByteMem.read m addr 4).map (ofLeBytes 32)

/-- The word takes this value. -/
def setWord (m : PhysMem) (addr value : U32) : PhysMem := ByteMem.write m addr (toLeBytes 4 value)

/-- A store to a word. -/
def storeWord (m : PhysMem) (addr value : U32) : Option PhysMem :=
  if (ByteMem.read m addr 4).isSome then some (m.setWord addr value) else none

/-- Stores to the words from `addr` on. -/
def storeWords (m : PhysMem) (addr : U32) : List U32 → Option PhysMem
  | [] => some m
  | value :: values => (m.storeWord addr value).bind fun m => storeWords m (addr + 4#32) values

/-- A word that was set is loaded again. -/
theorem loadWord_setWord (m : PhysMem) (addr value : U32) :
    (m.setWord addr value).loadWord addr = some value := by
  have hlen : (toLeBytes 4 value).length = 4 := RecordBytes.length_toLeBytes 4 value
  have hfits : (toLeBytes 4 value).length ≤ 2 ^ 32 := by rw [hlen]; decide
  have hread := ByteMem.read_write_same m addr hfits
  rw [hlen] at hread
  rw [loadWord, setWord, hread, Option.map_some, RecordBytes.ofLeBytes_toLeBytes (by omega)]

/-- Every other cell stays as it is. -/
theorem setWord_apart (m : PhysMem) {addr value a : U32} (h : ¬ ByteMem.InRange addr 4 a) :
    m.setWord addr value a = m a :=
  ByteMem.write_of_not_inRange m (by rwa [RecordBytes.length_toLeBytes])

/-- Where the cells of the word agree, the loads do. -/
theorem loadWord_congr {m m' : PhysMem} {addr : U32}
    (h : ∀ a, ByteMem.InRange addr 4 a → m a = m' a) : m.loadWord addr = m'.loadWord addr := by
  rw [loadWord, loadWord, ByteMem.read_congr (by decide) h]

/-- A word that is set to what it holds. -/
theorem setWord_loadWord {m : PhysMem} {addr : U32} {bytes : List U8}
    (h : ByteMem.read m addr 4 = some bytes) (m' : PhysMem) (dst : U32) :
    ByteMem.write m' dst bytes = m'.setWord dst (ofLeBytes 32 bytes) := by
  have hlen : bytes.length = 4 := ByteMem.read_length h
  have hbytes := RecordBytes.toLeBytes_ofLeBytes (w := 32) bytes (by omega)
  rw [hlen] at hbytes
  rw [setWord, hbytes]

theorem storeWord_eq {m m' : PhysMem} {addr value : U32} (h : m.storeWord addr value = some m') :
    m' = m.setWord addr value := by
  rw [storeWord] at h
  split at h
  · exact (Option.some.inj h).symm
  · exact absurd h (by simp)

/-- **The stored words**, and every cell outside. -/
theorem storeWords_spec {values : List U32} :
    ∀ {m m' : PhysMem} {addr : U32}, 4 * values.length ≤ 2 ^ 32 →
      m.storeWords addr values = some m' →
      (∀ i value, values[i]? = some value →
        m'.loadWord (addr + BitVec.ofNat 32 (4 * i)) = some value) ∧
      ∀ a, ¬ ByteMem.InRange addr (4 * values.length) a → m' a = m a := by
  induction values with
  | nil =>
    intro m m' addr _ h
    obtain rfl := Option.some.inj h
    exact ⟨fun i value hi => absurd hi (by simp), fun _ _ => rfl⟩
  | cons value values ih =>
    intro m m' addr hfits h
    have hlen : 4 * (value :: values).length = 4 * values.length + 4 := by
      rw [List.length_cons]; omega
    obtain ⟨m₁, hm₁, hrest⟩ := Option.bind_eq_some_iff.mp h
    obtain rfl := storeWord_eq hm₁
    obtain ⟨hwords, hapart⟩ := ih (by omega) hrest
    have hoff : ∀ a : U32, ByteMem.InRange (addr + 4#32) (4 * values.length) a →
        4 ≤ (a - addr).toNat ∧ (a - addr).toNat < 4 * values.length + 4 := by
      intro a ha
      have hsum : a - addr = (a - (addr + 4#32)) + 4#32 := by
        rw [BitVec.sub_eq_iff_eq_add, BitVec.add_assoc, BitVec.add_comm 4#32,
          BitVec.sub_add_cancel]
      have hlt : (a - (addr + 4#32)).toNat < 4 * values.length := ha
      rw [hsum]
      generalize a - (addr + 4#32) = x at hlt
      have hadd : (x + 4#32).toNat = x.toNat + 4 := by
        rw [BitVec.toNat_add_of_lt]
        · rfl
        · show x.toNat + 4 < 2 ^ 32
          omega
      omega
    refine ⟨fun i value' hi => ?_, fun a ha => ?_⟩
    · cases i with
      | zero =>
        obtain rfl : value = value' := by simpa using hi
        have hsame : ∀ a, ByteMem.InRange addr 4 a → m' a = m.setWord addr value a := by
          intro a ha
          refine hapart a fun hin => ?_
          have hlt : (a - addr).toNat < 4 := ha
          have hge := (hoff a hin).1
          omega
        show m'.loadWord (addr + 0#32) = some value
        rw [BitVec.add_zero, loadWord_congr hsame, loadWord_setWord]
      | succ i =>
        have hnext := hwords i value' (by simpa using hi)
        have haddr : addr + 4#32 + BitVec.ofNat 32 (4 * i) =
            addr + BitVec.ofNat 32 (4 * (i + 1)) := by
          rw [BitVec.add_assoc, Nat.mul_succ, Nat.add_comm, BitVec.ofNat_add]
        rwa [haddr] at hnext
    · rw [hlen] at ha
      have hword : ¬ ByteMem.InRange addr 4 a := fun hin => ha (by
        have hlt : (a - addr).toNat < 4 := hin
        show (a - addr).toNat < 4 * values.length + 4
        omega)
      rw [hapart a fun hin => ha (hoff a hin).2, setWord_apart m hword]

end PhysMem

/-! ## Memory blocks -/

/-- A mapped block: `size` bytes of physical memory from `paddr` on. -/
structure MemBlock where
  uid : SceUID
  paddr : U32
  size : Nat

namespace MemBlock

/-- The word at an offset, where it is one of the block. -/
def word (b : MemBlock) (offset : U32) : Option U32 :=
  if offset.toNat % 4 = 0 ∧ offset.toNat + 4 ≤ b.size then some (b.paddr + offset) else none

/-- `read_volatile`. -/
def readVolatile (b : MemBlock) (offset : U32) (m : PhysMem) : Option U32 :=
  (b.word offset).bind m.loadWord

/-- `write_volatile`. -/
def writeVolatile (b : MemBlock) (offset value : U32) (m : PhysMem) : Option PhysMem :=
  (b.word offset).bind fun addr => m.storeWord addr value

end MemBlock

/-- What the kernel answers to the calls of `map_paddr`, and to the freeing of the block. -/
structure MapAnswers where
  alloc : I32
  base : I32
  free : I32

/-- `map_paddr`. -/
def mapPaddr (blocks : Handles SceUID) (paddr : U32) (size : Nat) (a : MapAnswers) :
    Except SceError MemBlock × Handles SceUID :=
  if a.alloc.slt 0#32 then (.error ⟨a.alloc, "ksceKernelAllocMemBlock"⟩, blocks)
  else if a.base.slt 0#32 then
    (.error ⟨a.base, "ksceKernelGetMemBlockBase"⟩, blocks.give a.alloc)
  else (.ok ⟨a.alloc, paddr, size⟩, blocks.give a.alloc)

/-- Physical memory, the memory blocks in use, and `FUD_COMMS`. -/
structure Physical where
  mem : PhysMem
  blocks : Handles SceUID
  fudComms : Option MemBlock

/-- An access to the page of `addr`, mapped for it. -/
def withPage {α : Type} (p : Physical) (addr : U32) (a : MapAnswers)
    (access : MemBlock → U32 → PhysMem → Option (α × PhysMem)) : Outcome SceError α × Physical :=
  match mapPaddr p.blocks (addr &&& ~~~0xfff#32) 0x1000 a with
  | (.error err, blocks) => (.err err, { p with blocks := blocks })
  | (.ok block, blocks) =>
    match access block (addr &&& 0xfff#32) p.mem with
    | none => (.panic, { p with blocks := blocks })
    | some (value, mem) =>
      if a.free.slt 0#32 then
        (.err ⟨a.free, "ksceKernelFreeMemBlock"⟩, { p with mem := mem, blocks := blocks })
      else (.ok value, { p with mem := mem, blocks := blocks.take block.uid })

/-- `phys_read32`. -/
def physRead32 (p : Physical) (addr : U32) (a : MapAnswers) : Outcome SceError U32 × Physical :=
  withPage p addr a fun block offset m => (block.readVolatile offset m).map fun value => (value, m)

/-- `phys_write32`. -/
def physWrite32 (p : Physical) (addr value : U32) (a : MapAnswers) :
    Outcome SceError Unit × Physical :=
  withPage p addr a fun block offset m => (block.writeVolatile offset value m).map fun m => ((), m)

/-! ## The secure processor -/

/-- `BRIDGE_NMP`. -/
def bridgeNmp : List U8 := [
  0x80, 0x6f, 0x1a, 0x7b, 0x16, 0x4b, 0x1e, 0xc9, 0x20, 0x00, 0x1e, 0xc4, 0x10, 0x00, 0x1e, 0xc3,
  0x0c, 0x00, 0x1e, 0xc2, 0x08, 0x00, 0x1e, 0xc0, 0x04, 0x00, 0x0e, 0x49, 0x1e, 0xc9, 0x1c, 0x00,
  0x0a, 0x49, 0x1e, 0xc9, 0x18, 0x00, 0x06, 0x49, 0x1e, 0xc9, 0x14, 0x00, 0xfa, 0x09, 0x1e, 0x09,
  0x00, 0x01, 0x9f, 0x10, 0x17, 0x4b, 0x20, 0x4f, 0xbe, 0x10, 0x00, 0x00, 0x00, 0x00, 0x00, 0x00,
  0xf0, 0xff, 0x1f, 0x00]

/-- `FUD_COMMS_PA`. -/
def fudCommsPa : U32 := 0x1F85C000#32

/-- `FUD_COMMS_SIZE`. -/
def fudCommsSize : Nat := 0x4000

/-- The code on the secure processor: whether it is there (`spl_is_loaded`), and what becomes of the
    memory when it executes a buffer with an argument (`spl_exec_code`), with the answer; `none`
    where it does not come back. -/
structure Spl where
  isLoaded : Bool
  execCode : List U8 → U32 → PhysMem → Option (PhysMem × U32)

/-- `fud_init`. -/
def fudInit (p : Physical) (a : MapAnswers) : Except SceError MemBlock × Physical :=
  match mapPaddr p.blocks fudCommsPa fudCommsSize a with
  | (.error err, blocks) => (.error err, { p with blocks := blocks })
  | (.ok block, blocks) => (.ok block, { p with blocks := blocks, fudComms := some block })

/-- The shared memory, mapped where it is not yet. -/
def fudCommsOf (p : Physical) (a : MapAnswers) : Except SceError MemBlock × Physical :=
  match p.fudComms with
  | some block => (.ok block, p)
  | none => fudInit p a

/-- `fud_bridge_exec`: `FudBridgeData` is the function's address with up to eight arguments behind
    it, at the base of the shared memory. -/
def fudBridgeExec (spl : Spl) (p : Physical) (execAddr : U32) (args : List U32) (a : MapAnswers) :
    Outcome SceError U32 × Physical :=
  if !spl.isLoaded then (.err ⟨-1, "fud_bridge_exec: psp2spl not loaded"⟩, p)
  else
    match fudCommsOf p a with
    | (.error err, p) => (.err err, p)
    | (.ok comms, p) =>
      match p.mem.storeWords comms.paddr (execAddr :: args.take 8) with
      | none => (.panic, p)
      | some mem =>
        match spl.execCode bridgeNmp fudCommsPa mem with
        | none => (.panic, { p with mem := mem })
        | some (mem, val) =>
          (match val with
            | 1#32 => .err ⟨-1, "fud_bridge_exec"⟩
            | 2#32 => .err ⟨-2, "fud_bridge_exec"⟩
            | 3#32 => .err ⟨-3, "fud_bridge_exec"⟩
            | val => .ok val, { p with mem := mem })

/-- `mep_write32`. -/
def mepWrite32 (spl : Spl) (p : Physical) (dst val : U32) (a : MapAnswers) :
    Outcome SceError Unit × Physical :=
  match fudBridgeExec spl p 0x00807262#32 [dst, fudCommsPa + 0x10#32, 0x4#32, val] a with
  | (.ok _, p) => (.ok (), p)
  | (.err err, p) => (.err err, p)
  | (.panic, p) => (.panic, p)

/-- `mep_read32`. -/
def mepRead32 (spl : Spl) (p : Physical) (addr : U32) (a : MapAnswers) :
    Outcome SceError U32 × Physical :=
  match fudBridgeExec spl p 0x00807262#32 [fudCommsPa + 0x10#32, addr, 0x4#32] a with
  | (.ok _, p) =>
    match p.fudComms.bind fun comms => comms.readVolatile 0x10#32 p.mem with
    | none => (.panic, p)
    | some value => (.ok value, p)
  | (.err err, p) => (.err err, p)
  | (.panic, p) => (.panic, p)

/-! ## What an access does -/

/-- The page and the offset make the address, and the word is one of the page where it is aligned. -/
theorem page_word (uid : SceUID) (addr : U32) :
    (⟨uid, addr &&& ~~~0xfff#32, 0x1000⟩ : MemBlock).word (addr &&& 0xfff#32) =
      if addr.toNat % 4 = 0 then some addr else none := by
  have hsum : (addr &&& ~~~0xfff#32) + (addr &&& 0xfff#32) = addr := by
    rw [BitVec.add_eq_or_of_and_eq_zero]
    · have hmask : ~~~0xfff#32 ||| 0xfff#32 = BitVec.allOnes 32 := by decide
      rw [← BitVec.and_or_distrib_left, hmask, BitVec.and_allOnes]
    · have hmask : addr &&& ~~~0xfff#32 &&& (addr &&& 0xfff#32) =
          addr &&& addr &&& (~~~0xfff#32 &&& 0xfff#32) := by ac_rfl
      have hzero : ~~~0xfff#32 &&& 0xfff#32 = 0#32 := by decide
      rw [hmask, hzero, BitVec.and_zero]
  have hoffset : (addr &&& 0xfff#32).toNat = addr.toNat % 4096 := by
    rw [BitVec.toNat_and]
    exact Nat.and_two_pow_sub_one_eq_mod addr.toNat 12
  show (if (addr &&& 0xfff#32).toNat % 4 = 0 ∧ (addr &&& 0xfff#32).toNat + 4 ≤ 0x1000 then
    some ((addr &&& ~~~0xfff#32) + (addr &&& 0xfff#32)) else none) = _
  rw [hsum, hoffset]
  by_cases haligned : addr.toNat % 4 = 0
  · rw [if_pos haligned, if_pos]
    omega
  · rw [if_neg haligned, if_neg]
    omega

/-- A block that is got is a new one. -/
def MapAnswers.Fresh (a : MapAnswers) (blocks : Handles SceUID) : Prop :=
  a.alloc.slt 0#32 = false → blocks.used a.alloc = false

instance MapAnswers.Fresh.decidable (a : MapAnswers) (blocks : Handles SceUID) :
    Decidable (a.Fresh blocks) :=
  inferInstanceAs (Decidable (_ → _))

/-- **How an access to a page goes**: the block is not got, or has no base and is left behind; the
    access faults; or it is carried out, and the block freed, or left behind. -/
inductive PageEffect {α : Type} (p : Physical) (addr : U32) (a : MapAnswers)
    (access : PhysMem → Option (α × PhysMem)) : Outcome SceError α → Physical → Prop where
  | noBlock (halloc : a.alloc.slt 0#32 = true) :
    PageEffect p addr a access (.err ⟨a.alloc, "ksceKernelAllocMemBlock"⟩) p
  | noBase (halloc : a.alloc.slt 0#32 = false) (hbase : a.base.slt 0#32 = true) :
    PageEffect p addr a access (.err ⟨a.base, "ksceKernelGetMemBlockBase"⟩)
      { p with blocks := p.blocks.give a.alloc }
  | fault (q : Physical) : PageEffect p addr a access .panic q
  | left (value : α) (mem : PhysMem) (halloc : a.alloc.slt 0#32 = false)
      (hbase : a.base.slt 0#32 = false) (hfree : a.free.slt 0#32 = true)
      (haccess : access p.mem = some (value, mem)) :
    PageEffect p addr a access (.err ⟨a.free, "ksceKernelFreeMemBlock"⟩)
      { p with mem := mem, blocks := p.blocks.give a.alloc }
  | freed (value : α) (mem : PhysMem) (halloc : a.alloc.slt 0#32 = false)
      (hbase : a.base.slt 0#32 = false) (hfree : a.free.slt 0#32 = false)
      (haccess : access p.mem = some (value, mem)) :
    PageEffect p addr a access (.ok value) { p with mem := mem }

theorem withPage_effect {α : Type} {p : Physical} (addr : U32) {a : MapAnswers}
    (hfresh : a.Fresh p.blocks) (access : MemBlock → U32 → PhysMem → Option (α × PhysMem)) :
    PageEffect p addr a
      (access ⟨a.alloc, addr &&& ~~~0xfff#32, 0x1000⟩ (addr &&& 0xfff#32))
      (withPage p addr a access).1 (withPage p addr a access).2 := by
  rw [withPage, mapPaddr]
  by_cases halloc : a.alloc.slt 0#32 = true
  · rw [if_pos halloc]
    exact .noBlock halloc
  rw [if_neg halloc]
  rw [Bool.not_eq_true] at halloc
  by_cases hbase : a.base.slt 0#32 = true
  · rw [if_pos hbase]
    exact .noBase halloc hbase
  rw [if_neg hbase]
  rw [Bool.not_eq_true] at hbase
  dsimp only
  cases haccess : access ⟨a.alloc, addr &&& ~~~0xfff#32, 0x1000⟩ (addr &&& 0xfff#32) p.mem with
  | none => exact .fault _
  | some res =>
    obtain ⟨value, mem⟩ := res
    dsimp only
    by_cases hfree : a.free.slt 0#32 = true
    · rw [if_pos hfree]
      exact .left value mem halloc hbase hfree haccess
    · rw [if_neg hfree]
      rw [Bool.not_eq_true] at hfree
      rw [HandleTable.Handles.give_take (hfresh halloc)]
      exact .freed value mem halloc hbase hfree haccess

/-- `phys_read32` loads the word. -/
theorem physRead32_effect {p : Physical} (addr : U32) {a : MapAnswers} (hfresh : a.Fresh p.blocks) :
    PageEffect p addr a
      (fun m => if addr.toNat % 4 = 0 then (m.loadWord addr).map fun value => (value, m) else none)
      (physRead32 p addr a).1 (physRead32 p addr a).2 := by
  have heffect := withPage_effect addr hfresh fun block offset m =>
    (block.readVolatile offset m).map fun value => (value, m)
  have haccess : (fun m => if addr.toNat % 4 = 0 then
      (PhysMem.loadWord m addr).map fun value => (value, m) else none) =
      fun m => (MemBlock.readVolatile ⟨a.alloc, addr &&& ~~~0xfff#32, 0x1000⟩ (addr &&& 0xfff#32)
        m).map fun value => (value, m) := by
    funext m
    rw [MemBlock.readVolatile, page_word]
    by_cases haligned : addr.toNat % 4 = 0 <;> simp [haligned]
  rw [haccess]
  exact heffect

/-- `phys_write32` sets the word. -/
theorem physWrite32_effect {p : Physical} (addr value : U32) {a : MapAnswers}
    (hfresh : a.Fresh p.blocks) :
    PageEffect p addr a
      (fun m => if addr.toNat % 4 = 0 then (m.storeWord addr value).map fun m => ((), m) else none)
      (physWrite32 p addr value a).1 (physWrite32 p addr value a).2 := by
  have heffect := withPage_effect addr hfresh fun block offset m =>
    (block.writeVolatile offset value m).map fun m => ((), m)
  have haccess : (fun m => if addr.toNat % 4 = 0 then
      (PhysMem.storeWord m addr value).map fun m => ((), m) else none) =
      fun m => (MemBlock.writeVolatile ⟨a.alloc, addr &&& ~~~0xfff#32, 0x1000⟩ (addr &&& 0xfff#32)
        value m).map fun m => ((), m) := by
    funext m
    rw [MemBlock.writeVolatile, page_word]
    by_cases haligned : addr.toNat % 4 = 0 <;> simp [haligned]
  rw [haccess]
  exact heffect

/-! ## What the bridge does -/

/-- The 36 bytes of `FudBridgeData`. -/
def InBridge (a : U32) : Prop := ByteMem.InRange fudCommsPa 36 a

/-- The word has no byte in common with them. -/
def ClearOfBridge (addr : U32) : Prop :=
  Disjoint (ByteMem.range addr 4) (ByteMem.range fudCommsPa 36)

/-- Two memories agree outside the bridge's data. -/
def AgreeOutside (m m' : PhysMem) : Prop := ∀ a, ¬ InBridge a → m a = m' a

/-- **What the program relies on**: the secure processor answers 1, 2 or 3 and has done nothing, or
    has called the function with the arguments; the function at `0x00807262` copies memory. -/
structure Spl.Copies (spl : Spl) : Prop where
  refuses : ∀ {m m' : PhysMem} {val : U32}, spl.execCode bridgeNmp fudCommsPa m = some (m', val) →
    val = 1#32 ∨ val = 2#32 ∨ val = 3#32 → m' = m
  copies : ∀ {m m' : PhysMem} {val dst src n : U32},
    spl.execCode bridgeNmp fudCommsPa m = some (m', val) →
    ¬ (val = 1#32 ∨ val = 2#32 ∨ val = 3#32) →
    m.loadWord fudCommsPa = some 0x00807262#32 →
    m.loadWord (fudCommsPa + 4#32) = some dst → m.loadWord (fudCommsPa + 8#32) = some src →
    m.loadWord (fudCommsPa + 12#32) = some n →
    Disjoint (ByteMem.range dst n.toNat) (ByteMem.range src n.toNat) →
    ∃ bytes, ByteMem.read m src n.toNat = some bytes ∧ m' = ByteMem.write m dst bytes

/-- `FUD_COMMS` is the shared memory, where it is mapped. -/
def Physical.CommsMapped (p : Physical) : Prop :=
  ∀ comms, p.fudComms = some comms → comms.paddr = fudCommsPa ∧ comms.size = fudCommsSize

/-- How the shared memory is found. -/
inductive CommsEffect (p : Physical) (a : MapAnswers) :
    Except SceError MemBlock → Physical → Prop where
  | mapped (comms : MemBlock) (hcomms : p.fudComms = some comms) : CommsEffect p a (.ok comms) p
  | noBlock (hcomms : p.fudComms = none) (halloc : a.alloc.slt 0#32 = true) :
    CommsEffect p a (.error ⟨a.alloc, "ksceKernelAllocMemBlock"⟩) p
  | noBase (hcomms : p.fudComms = none) (halloc : a.alloc.slt 0#32 = false)
      (hbase : a.base.slt 0#32 = true) :
    CommsEffect p a (.error ⟨a.base, "ksceKernelGetMemBlockBase"⟩)
      { p with blocks := p.blocks.give a.alloc }
  | init (hcomms : p.fudComms = none) (halloc : a.alloc.slt 0#32 = false)
      (hbase : a.base.slt 0#32 = false) :
    CommsEffect p a (.ok ⟨a.alloc, fudCommsPa, fudCommsSize⟩) { p with
      blocks := p.blocks.give a.alloc
      fudComms := some ⟨a.alloc, fudCommsPa, fudCommsSize⟩ }

theorem fudCommsOf_effect (p : Physical) (a : MapAnswers) :
    CommsEffect p a (fudCommsOf p a).1 (fudCommsOf p a).2 := by
  rw [fudCommsOf]
  cases hcomms : p.fudComms with
  | some comms => exact .mapped comms hcomms
  | none =>
    dsimp only
    rw [fudInit, mapPaddr]
    by_cases halloc : a.alloc.slt 0#32 = true
    · rw [if_pos halloc]
      have hsame : { p with fudComms := none } = p := by rw [← hcomms]
      dsimp only
      have heffect := CommsEffect.noBlock hcomms halloc
      exact heffect
    rw [if_neg halloc]
    rw [Bool.not_eq_true] at halloc
    by_cases hbase : a.base.slt 0#32 = true
    · rw [if_pos hbase]
      have heffect := CommsEffect.noBase hcomms halloc hbase
      exact heffect
    · rw [if_neg hbase]
      rw [Bool.not_eq_true] at hbase
      exact .init hcomms halloc hbase

/-- The shared memory is where it should be, however it was found. -/
theorem CommsEffect.commsMapped {p q : Physical} {a : MapAnswers} {res : Except SceError MemBlock}
    (h : CommsEffect p a res q) (hp : p.CommsMapped) :
    q.CommsMapped ∧ q.mem = p.mem ∧
      ∀ comms, res = .ok comms →
        q.fudComms = some comms ∧ comms.paddr = fudCommsPa ∧ comms.size = fudCommsSize := by
  cases h with
  | mapped comms hcomms =>
    refine ⟨hp, rfl, fun comms' heq => ?_⟩
    obtain rfl := Except.ok.inj heq
    exact ⟨hcomms, hp comms hcomms⟩
  | noBlock | noBase => exact ⟨hp, rfl, fun comms heq => absurd heq (by simp)⟩
  | init =>
    refine ⟨fun comms heq => ?_, rfl, fun comms heq => ?_⟩
    · obtain rfl := Option.some.inj heq
      exact ⟨rfl, rfl⟩
    · obtain rfl := Except.ok.inj heq
      exact ⟨rfl, rfl, rfl⟩

/-- **How a call through the bridge goes**: it faults or does not come back; it fails, and has touched
    nothing but the bridge's data; or the arguments are stored and the function has been called. -/
inductive BridgeEffect (spl : Spl) (p : Physical) (words : List U32) :
    Outcome SceError U32 → Physical → Prop where
  | fault (q : Physical) : BridgeEffect spl p words .panic q
  | failed (err : SceError) (q : Physical) (hfunc : err.func ≠ "ksceKernelFreeMemBlock")
      (hmem : AgreeOutside q.mem p.mem) : BridgeEffect spl p words (.err err) q
  | called (val : U32) (q : Physical) (mem : PhysMem) (comms : MemBlock)
      (hstored : p.mem.storeWords fudCommsPa words = some mem)
      (hexec : spl.execCode bridgeNmp fudCommsPa mem = some (q.mem, val))
      (hval : ¬ (val = 1#32 ∨ val = 2#32 ∨ val = 3#32)) (hcomms : q.fudComms = some comms)
      (hpaddr : comms.paddr = fudCommsPa) (hsize : comms.size = fudCommsSize) :
    BridgeEffect spl p words (.ok val) q

/-- The bridge's data are 36 bytes. -/
theorem storeWords_agree {m m' : PhysMem} {words : List U32} (hlen : words.length ≤ 9)
    (h : m.storeWords fudCommsPa words = some m') : AgreeOutside m' m := by
  intro a ha
  refine (PhysMem.storeWords_spec (by omega) h).2 a fun hin => ha ?_
  have hlt : (a - fudCommsPa).toNat < 4 * words.length := hin
  show (a - fudCommsPa).toNat < 36
  omega

theorem fudBridgeExec_effect {spl : Spl} (hspl : spl.Copies) {p : Physical} (hp : p.CommsMapped)
    (execAddr : U32) (args : List U32) (hargs : args.length ≤ 8) (a : MapAnswers) :
    BridgeEffect spl p (execAddr :: args) (fudBridgeExec spl p execAddr args a).1
      (fudBridgeExec spl p execAddr args a).2 := by
  have hwords : execAddr :: args.take 8 = execAddr :: args := by rw [List.take_of_length_le hargs]
  have hlen : (execAddr :: args).length ≤ 9 := by rw [List.length_cons]; omega
  rw [fudBridgeExec, hwords]
  split
  · exact .failed _ _ (by decide) fun _ _ => rfl
  have heffect := fudCommsOf_effect p a
  cases hres : fudCommsOf p a with
  | mk res q =>
    rw [hres] at heffect
    obtain ⟨-, hmem, hmapped⟩ := heffect.commsMapped hp
    cases res with
    | error err =>
      refine .failed err q ?_ fun c _ => by rw [show q.mem = p.mem from hmem]
      cases heffect with
      | noBlock | noBase => simp
    | ok comms =>
      obtain ⟨hcomms, hpaddr, hsize⟩ := hmapped comms rfl
      dsimp only
      rw [hpaddr, show q.mem = p.mem from hmem]
      cases hstored : p.mem.storeWords fudCommsPa (execAddr :: args) with
      | none => exact .fault _
      | some mem =>
        dsimp only
        cases hexec : spl.execCode bridgeNmp fudCommsPa mem with
        | none => exact .fault _
        | some res =>
          obtain ⟨mem', val⟩ := res
          have hagree : ¬ ¬ (val = 1#32 ∨ val = 2#32 ∨ val = 3#32) → AgreeOutside mem' p.mem := by
            intro hval
            rw [hspl.refuses hexec (not_not.mp hval)]
            exact storeWords_agree hlen hstored
          dsimp only
          split
          · exact .failed _ _ (by decide) (hagree (by simp))
          · exact .failed _ _ (by decide) (hagree (by simp))
          · exact .failed _ _ (by decide) (hagree (by simp))
          · next h₁ h₂ h₃ =>
            have hval : ¬ (val = 1#32 ∨ val = 2#32 ∨ val = 3#32) := by
              rintro (h | h | h)
              · exact h₁ h
              · exact h₂ h
              · exact h₃ h
            exact .called val _ mem comms hstored hexec hval hcomms hpaddr hsize

/-- The memory blocks and the shared memory after a call through the bridge. -/
theorem fudBridgeExec_blocks (spl : Spl) (p : Physical) (execAddr : U32) (args : List U32)
    (a : MapAnswers) :
    let q := if spl.isLoaded then (fudCommsOf p a).2 else p
    (fudBridgeExec spl p execAddr args a).2.blocks = q.blocks ∧
      (fudBridgeExec spl p execAddr args a).2.fudComms = q.fudComms := by
  rw [fudBridgeExec]
  cases spl.isLoaded with
  | false => exact ⟨rfl, rfl⟩
  | true =>
    simp only [Bool.not_true, Bool.false_eq_true, if_false, if_true]
    cases fudCommsOf p a with
    | mk res q =>
      cases res with
      | error err => exact ⟨rfl, rfl⟩
      | ok comms =>
        dsimp only
        split
        · exact ⟨rfl, rfl⟩
        · split
          · exact ⟨rfl, rfl⟩
          · exact ⟨rfl, rfl⟩

/-! ## Words through the bridge -/

/-- **How `mep_write32` goes**: what it writes, where it answers `Ok`, is the word. -/
inductive MepWriteEffect (p : Physical) (dst val : U32) :
    Outcome SceError Unit → Physical → Prop where
  | fault (q : Physical) : MepWriteEffect p dst val .panic q
  | failed (err : SceError) (q : Physical) (hfunc : err.func ≠ "ksceKernelFreeMemBlock")
      (hmem : AgreeOutside q.mem p.mem) : MepWriteEffect p dst val (.err err) q
  | written (q : Physical) (hmem : AgreeOutside q.mem (p.mem.setWord dst val)) :
    MepWriteEffect p dst val (.ok ()) q

/-- **How `mep_read32` goes**: what it answers is the word. -/
inductive MepReadEffect (p : Physical) (addr : U32) : Outcome SceError U32 → Physical → Prop where
  | fault (q : Physical) : MepReadEffect p addr .panic q
  | failed (err : SceError) (q : Physical) (hfunc : err.func ≠ "ksceKernelFreeMemBlock")
      (hmem : AgreeOutside q.mem p.mem) : MepReadEffect p addr (.err err) q
  | read (value : U32) (q : Physical) (hmem : AgreeOutside q.mem p.mem)
      (hvalue : p.mem.loadWord addr = some value) : MepReadEffect p addr (.ok value) q

/-- Two memories that agree outside the bridge have the same words there. -/
theorem AgreeOutside.loadWord {m m' : PhysMem} (h : AgreeOutside m m') {addr : U32}
    (hclear : ClearOfBridge addr) : m.loadWord addr = m'.loadWord addr :=
  PhysMem.loadWord_congr fun a ha => h a fun hin => Set.disjoint_left.mp hclear ha hin

theorem AgreeOutside.setWord {m m' : PhysMem} (h : AgreeOutside m m') (addr value : U32) :
    AgreeOutside (m.setWord addr value) (m'.setWord addr value) := by
  intro a ha
  show ByteMem.write m addr _ a = ByteMem.write m' addr _ a
  rw [ByteMem.write_apply, ByteMem.write_apply, h a ha]

theorem AgreeOutside.trans {m₁ m₂ m₃ : PhysMem} (h : AgreeOutside m₁ m₂) (h' : AgreeOutside m₂ m₃) :
    AgreeOutside m₁ m₃ := fun a ha => (h a ha).trans (h' a ha)

/-- The place where the word is handed over lies in the bridge's data. -/
theorem handover_inBridge {a : U32} (ha : ByteMem.InRange (fudCommsPa + 0x10#32) 4 a) :
    InBridge a := by
  have hlt : (a - (fudCommsPa + 0x10#32)).toNat < 4 := ha
  show (a - fudCommsPa).toNat < 36
  have hsum : a - fudCommsPa = (a - (fudCommsPa + 0x10#32)) + 0x10#32 := by
    rw [BitVec.sub_eq_iff_eq_add, BitVec.add_assoc, BitVec.add_comm 0x10#32, BitVec.sub_add_cancel]
  rw [hsum]
  generalize a - (fudCommsPa + 0x10#32) = x at hlt
  have hadd : (x + 0x10#32).toNat = x.toNat + 16 := by
    rw [BitVec.toNat_add_of_lt]
    · rfl
    · show x.toNat + 16 < 2 ^ 32
      omega
  omega

theorem mepWrite32_effect {spl : Spl} (hspl : spl.Copies) {p : Physical} (hp : p.CommsMapped)
    {dst : U32} (hclear : ClearOfBridge dst) (val : U32) (a : MapAnswers) :
    MepWriteEffect p dst val (mepWrite32 spl p dst val a).1 (mepWrite32 spl p dst val a).2 := by
  have heffect := fudBridgeExec_effect hspl hp 0x00807262#32
    [dst, fudCommsPa + 0x10#32, 0x4#32, val] (by simp) a
  rw [mepWrite32]
  cases hres : fudBridgeExec spl p 0x00807262#32 [dst, fudCommsPa + 0x10#32, 0x4#32, val] a with
  | mk res q =>
    rw [hres] at heffect
    cases heffect with
    | fault => exact .fault q
    | failed err _ hfunc hmem => exact .failed err q hfunc hmem
    | called ret _ mem comms hstored hexec hret =>
      have hwords := (PhysMem.storeWords_spec (by simp) hstored).1
      have hdisjoint : Disjoint (ByteMem.range dst 4) (ByteMem.range (fudCommsPa + 0x10#32) 4) :=
        hclear.mono_right fun c hc => handover_inBridge hc
      obtain ⟨bytes, hbytes, hcopied⟩ := hspl.copies hexec hret (hwords 0 _ rfl) (hwords 1 _ rfl)
        (hwords 2 _ rfl) (hwords 3 _ rfl) hdisjoint
      have hvalue : mem.loadWord (fudCommsPa + 0x10#32) = some val := hwords 4 _ rfl
      rw [PhysMem.loadWord, show ByteMem.read mem (fudCommsPa + 0x10#32) 4 = some bytes from hbytes,
        Option.map_some, Option.some.injEq] at hvalue
      refine .written q ?_
      rw [hcopied, PhysMem.setWord_loadWord hbytes, hvalue]
      exact (storeWords_agree (by simp) hstored).setWord dst val

theorem mepRead32_effect {spl : Spl} (hspl : spl.Copies) {p : Physical} (hp : p.CommsMapped)
    {addr : U32} (hclear : ClearOfBridge addr) (a : MapAnswers) :
    MepReadEffect p addr (mepRead32 spl p addr a).1 (mepRead32 spl p addr a).2 := by
  have heffect := fudBridgeExec_effect hspl hp 0x00807262#32
    [fudCommsPa + 0x10#32, addr, 0x4#32] (by simp) a
  rw [mepRead32]
  cases hres : fudBridgeExec spl p 0x00807262#32 [fudCommsPa + 0x10#32, addr, 0x4#32] a with
  | mk res q =>
    rw [hres] at heffect
    cases heffect with
    | fault => exact .fault q
    | failed err _ hfunc hmem => exact .failed err q hfunc hmem
    | called ret _ mem comms hstored hexec hret hcomms hpaddr hsize =>
      have hwords := (PhysMem.storeWords_spec (by simp) hstored).1
      have hdisjoint : Disjoint (ByteMem.range (fudCommsPa + 0x10#32) 4) (ByteMem.range addr 4) :=
        (hclear.mono_right fun c hc => handover_inBridge hc).symm
      obtain ⟨bytes, hbytes, hcopied⟩ := hspl.copies hexec hret (hwords 0 _ rfl) (hwords 1 _ rfl)
        (hwords 2 _ rfl) (hwords 3 _ rfl) hdisjoint
      have hstored' : AgreeOutside mem p.mem := storeWords_agree (by simp) hstored
      rw [PhysMem.setWord_loadWord hbytes] at hcopied
      -- the word is handed over in the bridge's data, and read there
      have hread : (comms.readVolatile 0x10#32 q.mem) = some (ofLeBytes 32 bytes) := by
        have hword : comms.word 0x10#32 = some (fudCommsPa + 0x10#32) := by
          rw [MemBlock.word, hsize, hpaddr]
          rfl
        rw [MemBlock.readVolatile, hword, Option.bind_some, hcopied, PhysMem.loadWord_setWord]
      have hvalue : p.mem.loadWord addr = some (ofLeBytes 32 bytes) := by
        rw [← hstored'.loadWord hclear, PhysMem.loadWord,
          show ByteMem.read mem addr 4 = some bytes from hbytes, Option.map_some]
      dsimp only
      rw [hcomms, Option.bind_some, hread]
      refine .read _ q (fun c hc => ?_) hvalue
      rw [hcopied, PhysMem.setWord_apart mem fun hin => hc (handover_inBridge hin)]
      exact hstored' c hc

end VitaGdb
