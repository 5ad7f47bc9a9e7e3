/-
  `next_pc` looks only at what the processor looks at: the instruction's own bytes and the data it
  loads.

  The processor needs two bytes for a narrow Thumb instruction and four for every other, and from
  data memory the word, halfword or byte at the architecture's address (`footprint`).  `next_pc`
  always fetches four, and finds the data of a load relative to the program counter and of a table
  branch by halfwords behind that address, by the `slip` (`looksAt`).  So a memory where the bytes
  outside are not mapped is told apart, and `nextPc_footprint_iff` says when.

  The law itself, for any function that fails on an unmapped cell, is `ByteMem.LooksAt.local_iff`.
-/
import VitaGdb.ArmNextPc.DataReads

namespace VitaGdb.ArmNextPc

open ArmArch ByteMem

/-! ## The instruction and its data -/

/-- Two bytes long. -/
def Instruction.narrow (insn : Instruction) : Bool := insn.thumb && !insn.wide

/-- A narrow Thumb instruction is decoded from its halfword. -/
def NarrowByHalfword (decoder : InstDecoder) : Prop :=
  ∀ b₀ b₁ b₂ b₃ c₂ c₃ insn, decoder true [b₀, b₁, b₂, b₃] = .ok insn → insn.narrow = true →
    decoder true [b₀, b₁, c₂, c₃] = .ok insn

/-- The narrow Thumb instruction in the two bytes where the thread is. -/
def narrowAt (decoder : InstDecoder) (regs : RegContext) (mem : UserMem) : Option Instruction :=
  if regs.thumb then
    match ByteMem.read mem (insnAddr regs) 2 with
    | none => none
    | some bytes =>
      match decoder true (bytes ++ [0#8, 0#8]) with
      | .error _ => none
      | .ok insn => if insn.narrow then some insn else none
  else none

/-- The instruction where the thread is. -/
def insnAt (decoder : InstDecoder) (regs : RegContext) (mem : UserMem) : Option Instruction :=
  match narrowAt decoder regs mem with
  | some insn => some insn
  | none =>
    (ByteMem.read mem (insnAddr regs) 4).bind fun bytes => (decoder regs.thumb bytes).toOption

/-- The bytes the instruction occupies. -/
def insnSize (decoder : InstDecoder) (regs : RegContext) (mem : UserMem) : Nat :=
  if (narrowAt decoder regs mem).isSome then 2 else 4

/-- The data an instruction loads to find where it goes: the word of a load into the program
    counter, the last word of a load-multiple, the entry of a table branch. -/
def loadsFrom (insn : Instruction) (regs : RegContext) : Option (U32 × Nat) :=
  match insn.opcode with
  | .LDR | .LDRT =>
    if isPcDestination (insn.operands 0) then
      (archAddress (insn.operands 1) regs).map fun address => (address, 4)
    else none
  | .LDM increment before _ _ =>
    match baseAndList insn with
    | .ok (base, list) =>
      ((loadMultiple increment before (regs.reg base) list).lookup 15).map fun address =>
        (address, 4)
    | _ => none
  | .POP =>
    match baseAndList insn with
    | .ok (base, list) =>
      ((loadMultiple true false (regs.reg base) list).lookup 15).map fun address => (address, 4)
    | _ => none
  | .TBB =>
    match tableBranchAddress insn.operands regs with
    | .ok (base, index) => some (tableEntry 1 base index, 1)
    | _ => none
  | .TBH =>
    match tableBranchAddress insn.operands regs with
    | .ok (base, index) => some (tableEntry 2 base index, 2)
    | _ => none
  | _ => none

/-- How far behind the architecture's address `next_pc` looks: a program counter as the base is not
    aligned, and the index of a halfword table is doubled twice. -/
def slip (insn : Instruction) (regs : RegContext) : U32 :=
  match insn.opcode with
  | .LDR | .LDRT =>
    match addressBase (insn.operands 1) with
    | some base => if base.val = 15 then regs.pc &&& 3#32 else 0#32
    | none => 0#32
  | .TBH =>
    match tableBranchAddress insn.operands regs with
    | .ok (_, index) => 2#32 * index
    | _ => 0#32
  | _ => 0#32

/-- The cells of some data of the instruction, where its condition holds. -/
def dataCells (insn : Option Instruction) (regs : RegContext)
    (data : Instruction → RegContext → Option (U32 × Nat)) : Set U32 :=
  {a | ∃ i address n, insn = some i ∧ evalCond i.condition regs = true ∧
    data i regs = some (address, n) ∧ InRange address n a}

/-- What the processor looks at. -/
def footprint (decoder : InstDecoder) (regs : RegContext) (mem : UserMem) : Set U32 :=
  range (insnAddr regs) (insnSize decoder regs mem) ∪
    dataCells (insnAt decoder regs mem) regs loadsFrom

/-- What `next_pc` looks at. -/
def looksAt (decoder : InstDecoder) (regs : RegContext) (mem : UserMem) : Set U32 :=
  range (insnAddr regs) 4 ∪
    dataCells (insnAt decoder regs mem) regs fun i regs =>
      (loadsFrom i regs).map fun data => (data.1 + slip i regs, data.2)

/-- In every memory with the same footprint the answer is the same; and a narrow instruction is
    predicted where its footprint can be read. -/
structure FootprintDecides (decoder : InstDecoder) (regs : RegContext) (mem : UserMem) : Prop where
  same : ∀ mem' : UserMem, (∀ a ∈ footprint decoder regs mem, mem' a = mem a) →
    nextPc decoder regs mem' = nextPc decoder regs mem
  predicted : (narrowAt decoder regs mem).isSome →
    (∀ a ∈ footprint decoder regs mem, mem a ≠ none) → nextPc decoder regs mem ≠ .err .memoryRead

/-! ## The read of `next_pc` -/

theorem and_not_add_and (x mask : U32) : (x &&& ~~~mask) + (x &&& mask) = x := by
  have hdisjoint : (x &&& ~~~mask) &&& (x &&& mask) = 0#32 := by
    ext i hi
    simp only [BitVec.getElem_and, BitVec.getElem_not, BitVec.getElem_zero]
    cases x[i] <;> cases mask[i] <;> rfl
  rw [BitVec.add_eq_or_of_and_eq_zero _ _ hdisjoint]
  ext i hi
  simp only [BitVec.getElem_or, BitVec.getElem_and, BitVec.getElem_not]
  cases x[i] <;> cases mask[i] <;> rfl

/-- A base register is the architecture's base and what it is not aligned by. -/
theorem reg_eq_archBase_add (base : Reg) (regs : RegContext) :
    regs.reg base = archBase base regs + (if base.val = 15 then regs.pc &&& 3#32 else 0#32) := by
  rw [archBase]
  split
  · next h => rw [reg_of_val_eq_15 h, align4, and_not_add_and]
  · rw [BitVec.add_zero]

/-- The address of a load, by the architecture's. -/
theorem effectiveAddress_slip {insn : Instruction}
    (hop : insn.opcode = .LDR ∨ insn.opcode = .LDRT) (regs : RegContext) :
    effectiveAddress (insn.operands 1) regs =
      match archAddress (insn.operands 1) regs with
      | some address => .ok (address + slip insn regs)
      | none => .panic := by
  have hslip : slip insn regs =
      match addressBase (insn.operands 1) with
      | some base => if base.val = 15 then regs.pc &&& 3#32 else 0#32
      | none => 0#32 := by
    rw [slip]
    obtain hop | hop := hop <;> rw [hop]
  rw [hslip]
  cases insn.operands 1 with
  | regDeref base => exact congrArg Outcome.ok (reg_eq_archBase_add base regs)
  | regDerefPreindexOffset base offset add wback =>
    have hbase := reg_eq_archBase_add base regs
    cases add with
    | true =>
      refine congrArg Outcome.ok ?_
      rw [hbase]
      simp only [addressBase]
      ring
    | false =>
      refine congrArg Outcome.ok ?_
      rw [hbase]
      simp only [addressBase]
      ring
  | regDerefPostindexOffset base offset add wback =>
    exact congrArg Outcome.ok (reg_eq_archBase_add base regs)
  | _ => rfl

/-- The word of a load-multiple, by its loop. -/
theorem loadMultiple_slot {increment before : Bool} {opcode : Opcode}
    (hop : (∃ wback usermode, opcode = .LDM increment before wback usermode) ∨
      opcode = .POP ∧ increment = true ∧ before = false) (baseAddr : U32) (list : U16) :
    (if list &&& (1#16 <<< 15) = 0#16 then none
      else
        match pcSlot opcode baseAddr list with
        | .ok address => some (address, 4)
        | _ => none) =
      ((loadMultiple increment before baseAddr list).lookup 15).map fun address =>
        (address, 4) := by
  rw [loadMultiple_last]
  cases hpc : list.getLsbD 15 with
  | false =>
    rw [if_pos ((and_bit15_eq_zero_iff list).mpr hpc)]
    rfl
  | true =>
    have hbit : ¬ list &&& (1#16 <<< 15) = 0#16 := by
      rw [and_bit15_eq_zero_iff, hpc]
      exact Bool.true_eq_false_eq_False
    rw [if_neg hbit, if_pos rfl]
    -- the slot depends on the opcode alone, so any instruction with it will do
    obtain ⟨wback, usermode, rfl⟩ | ⟨rfl, rfl, rfl⟩ := hop
    · have hloads : LoadsList ⟨.AL, .LDM increment before wback usermode,
          fun i => if i = 0 then .reg 0 else .regList list, false, true⟩ increment before 0 list :=
        .ldm rfl (.inl rfl) rfl
      rw [pcSlot_eq_loop hloads hpc]
      rfl
    · have hloads : LoadsList ⟨.AL, .POP, fun i => if i = 0 then .reg 13 else .regList list, false,
          true⟩ true false 13 list := by
        refine .popBehind rfl ?_ rfl
        rintro r (h | ⟨wb, h⟩)
        · exact (Operand.reg.inj h).symm
        · exact absurd h (by simp)
      rw [pcSlot_eq_loop hloads hpc]
      rfl

/-- **`next_pc` reads the data the instruction loads**, too far by the slip. -/
theorem dataRead_slip (insn : Instruction) (regs : RegContext) :
    dataRead insn regs =
      (loadsFrom insn regs).map fun data => (data.1 + slip insn regs, data.2) := by
  cases hop : insn.opcode with
  | LDR | LDRT =>
    -- off by the misalignment of the program counter
    have hload : insn.opcode = .LDR ∨ insn.opcode = .LDRT := by simp [hop]
    have haddr := effectiveAddress_slip hload regs
    simp only [dataRead, loadsFrom, hop, haddr]
    cases isPcDestination (insn.operands 0) with
    | false => rfl
    | true =>
      rw [if_pos rfl, if_pos rfl]
      cases archAddress (insn.operands 1) regs <;> rfl
  | LDM increment before wback usermode =>
    simp only [dataRead, loadsFrom, slip, hop]
    cases baseAndList insn with
    | ok bl =>
      refine (loadMultiple_slot (.inl ⟨wback, usermode, rfl⟩) _ _).trans ?_
      simp [Function.comp_def]
    | err e => rfl
    | panic => rfl
  | POP =>
    simp only [dataRead, loadsFrom, slip, hop]
    cases baseAndList insn with
    | ok bl =>
      refine (loadMultiple_slot (.inr ⟨rfl, rfl, rfl⟩) _ _).trans ?_
      simp [Function.comp_def]
    | err e => rfl
    | panic => rfl
  | TBB =>
    simp only [dataRead, loadsFrom, slip, hop]
    cases tableBranchAddress insn.operands regs with
    | ok bi => simp [tableEntry]
    | err e => rfl
    | panic => rfl
  | TBH =>
    simp only [dataRead, loadsFrom, slip, hop]
    cases tableBranchAddress insn.operands regs with
    | ok bi =>
      -- four times the index where the entry is at twice
      have htwice : bi.2 <<< 2 = 2#32 * bi.2 + 2#32 * bi.2 := by
        rw [BitVec.shiftLeft_eq_mul_twoPow, BitVec.mul_comm, ← BitVec.add_mul]
        rfl
      simp only [Option.map_some, tableEntry, htwice, ← BitVec.add_assoc]
    | err e => rfl
    | panic => rfl
  | _ => simp only [dataRead, loadsFrom, slip, hop]; rfl

/-! ## Two memories -/

variable {decoder : InstDecoder} {regs : RegContext} {mem mem' : UserMem}

/-- What was fetched is decoded as the instruction there is. -/
theorem insnAt_fetched (hnarrow : NarrowByHalfword decoder) {bytes : List U8}
    (hread : ByteMem.read mem (insnAddr regs) 4 = some bytes) :
    insnAt decoder regs mem = (decoder regs.thumb bytes).toOption := by
  rw [insnAt]
  cases hat : narrowAt decoder regs mem with
  | none =>
    rw [hread]
    rfl
  | some insn =>
    have hhalf : ByteMem.read mem (insnAddr regs) 2 = some (bytes.take 2) :=
      read_take hread (by decide)
    match bytes, read_length hread with
    | [b₀, b₁, b₂, b₃], _ =>
      cases hthumb : regs.thumb with
      | false =>
        rw [narrowAt, hthumb] at hat
        exact absurd hat (by simp)
      | true =>
        -- decoded with zeros behind it, it is decoded the same with what is there
        rw [narrowAt, hthumb, if_pos rfl, hhalf] at hat
        dsimp only [List.take_succ_cons, List.take_zero, List.cons_append, List.nil_append] at hat
        cases hdecode : decoder true [b₀, b₁, 0#8, 0#8] with
        | error e =>
          rw [hdecode] at hat
          exact absurd hat (by simp)
        | ok i =>
          rw [hdecode] at hat
          dsimp only at hat
          split at hat
          · next hsmall =>
            rw [hnarrow b₀ b₁ 0#8 0#8 b₂ b₃ i hdecode hsmall, ← hat]
            rfl
          · exact absurd hat (by simp)

/-- Two memories with the same footprint have the same instruction, of the same size. -/
theorem insnAt_congr (hagree : ∀ a ∈ footprint decoder regs mem, mem' a = mem a) :
    insnAt decoder regs mem' = insnAt decoder regs mem ∧
      insnSize decoder regs mem' = insnSize decoder regs mem := by
  have hread : ∀ n ≤ insnSize decoder regs mem,
      ByteMem.read mem' (insnAddr regs) n = ByteMem.read mem (insnAddr regs) n := by
    intro n hn
    refine read_congr ?_ fun a ha => hagree a (.inl (Nat.lt_of_lt_of_le ha hn))
    refine Nat.le_trans hn ?_
    rw [insnSize]
    split <;> decide
  have hhalf : narrowAt decoder regs mem' = narrowAt decoder regs mem := by
    rw [narrowAt, narrowAt, hread 2 (by rw [insnSize]; split <;> decide)]
  have hsize : insnSize decoder regs mem' = insnSize decoder regs mem := by
    rw [insnSize, insnSize, hhalf]
  refine ⟨?_, hsize⟩
  -- an instruction that is not narrow has its four bytes in the footprint
  rw [insnAt, insnAt, hhalf]
  cases hat : narrowAt decoder regs mem with
  | some insn => rfl
  | none => rw [hread 4 (by rw [insnSize, hat]; rfl)]

theorem readLe_congr {n : Nat} {address : U32} (hn : n ≤ 4)
    (hagree : ∀ a, InRange address n a → mem' a = mem a) :
    readLe mem' n address = readLe mem n address := by
  rw [readLe, readLe, read_congr (Nat.le_trans hn (by decide)) hagree]

theorem read_of_mapped {n : Nat} {address : U32} (hn : n ≤ 4)
    (hmapped : ∀ a, InRange address n a → mem a ≠ none) :
    ∃ bytes, ByteMem.read mem address n = some bytes := by
  refine Option.isSome_iff_exists.mp ((read_isSome_iff (Nat.le_trans hn (by decide))).mpr ?_)
  intro a ha
  exact Option.isSome_iff_ne_none.mpr (hmapped a ha)

theorem read_of_unmapped {n : Nat} {address a : U32} (hn : n ≤ 4) (ha : InRange address n a)
    (hunmapped : mem a = none) : ByteMem.read mem address n = none := by
  by_contra hread
  have hsome := (read_isSome_iff (Nat.le_trans hn (by decide))).mp
    (Option.isSome_iff_ne_none.mpr hread) a ha
  rw [hunmapped] at hsome
  exact absurd hsome (by simp)

/-- `next_pc` looks at the four bytes and at the data it reads. -/
theorem looksAt_eq (decoder : InstDecoder) (regs : RegContext) (mem : UserMem) :
    looksAt decoder regs mem =
      range (insnAddr regs) 4 ∪ dataCells (insnAt decoder regs mem) regs dataRead := by
  have hdata : dataRead = fun i regs =>
      (loadsFrom i regs).map fun data => (data.1 + slip i regs, data.2) := by
    funext i regs
    exact dataRead_slip i regs
  rw [looksAt, hdata]

theorem dataCells_eq_empty {insn : Option Instruction}
    (h : ∀ i, insn = some i → evalCond i.condition regs = true → dataRead i regs = none) :
    dataCells insn regs dataRead = ∅ := by
  refine Set.eq_empty_of_forall_notMem ?_
  rintro a ⟨i, address, n, hi, hcond, hdata, -⟩
  rw [h i hi hcond] at hdata
  exact absurd hdata (by simp)

theorem dataCells_eq_range {i : Instruction} (hcond : evalCond i.condition regs = true)
    {address : U32} {n : Nat} (hdata : dataRead i regs = some (address, n)) :
    dataCells (some i) regs dataRead = range address n := by
  ext a
  constructor
  · rintro ⟨i', address', n', hi, -, hdata', ha⟩
    obtain rfl := Option.some.inj hi
    obtain ⟨rfl, rfl⟩ := Prod.mk.inj (Option.some.inj (hdata.symm.trans hdata'))
    exact ha
  · intro ha
    exact ⟨i, address, n, rfl, hcond, hdata, ha⟩

/-- **What `next_pc` does with what it fetched**: it looks no further and answers the same in every
    memory, not with `MemoryRead`; or its answer is a function of one more read. -/
theorem nextPc_exits (hnarrow : NarrowByHalfword decoder) {bytes : List U8}
    (hread : ByteMem.read mem (insnAddr regs) 4 = some bytes) :
    (∃ result, result ≠ .err .memoryRead ∧ looksAt decoder regs mem = range (insnAddr regs) 4 ∧
      ∀ mem', ByteMem.read mem' (insnAddr regs) 4 = some bytes →
        nextPc decoder regs mem' = result) ∨
    ∃ address n, ∃ answer : U32 → Target, n ≤ 4 ∧
      looksAt decoder regs mem = range (insnAddr regs) 4 ∪ range address n ∧
      ∀ mem', ByteMem.read mem' (insnAddr regs) 4 = some bytes →
        nextPc decoder regs mem' = readLe mem' n address >>= fun value => .ok (answer value) := by
  rw [looksAt_eq, insnAt_fetched hnarrow hread]
  cases hdecode : decoder regs.thumb bytes with
  | error e =>
    refine .inl ⟨.err (.decodeError e), by simp, ?_, fun mem' hread' => ?_⟩
    · rw [dataCells_eq_empty (fun i hi => absurd hi (by simp [Except.toOption])), Set.union_empty]
    · rw [nextPc]
      simp only [hread', hdecode]
  | ok i =>
    have hi : (Except.ok i : Except DecodeError Instruction).toOption = some i := rfl
    rw [hi]
    cases hcond : evalCond i.condition regs with
    | false =>
      refine .inl ⟨.ok (fallthroughOf i (insnAddr regs)), by simp, ?_, fun mem' hread' => ?_⟩
      · rw [dataCells_eq_empty fun i' hi' hcond' => ?_, Set.union_empty]
        obtain rfl := Option.some.inj hi'
        exact absurd (hcond.symm.trans hcond') Bool.false_ne_true
      · rw [nextPc_decoded hread' hdecode, hcond]
        rfl
    | true =>
      rcases taken_cases i regs (fallthroughOf i (insnAddr regs)) with
        ⟨hdata, result, hne, hresult⟩ | ⟨address, n, answer, hdata, hn, hanswer⟩
      · refine .inl ⟨result, hne _, ?_, fun mem' hread' => ?_⟩
        · rw [dataCells_eq_empty fun i' hi' _ => Option.some.inj hi' ▸ hdata, Set.union_empty]
        · rw [nextPc_taken hread' hdecode hcond, hresult]
      · refine .inr ⟨address, n, answer, hn, ?_, fun mem' hread' => ?_⟩
        · rw [dataCells_eq_range hcond hdata]
        · rw [nextPc_taken hread' hdecode hcond, hanswer]

theorem nextPc_notFetched (h : ByteMem.read mem (insnAddr regs) 4 = none) :
    nextPc decoder regs mem = .err .memoryRead := by
  rw [nextPc]
  simp only [h]

/-- **`next_pc` looks at four bytes and the data**, and is a function of them. -/
theorem nextPc_looksAt (hnarrow : NarrowByHalfword decoder) (regs : RegContext) :
    LooksAt (nextPc decoder regs) (.err .memoryRead) (footprint decoder regs)
      (looksAt decoder regs) where
  faults := by
    intro m a ha hunmapped
    cases hread : ByteMem.read m (insnAddr regs) 4 with
    | none => exact nextPc_notFetched hread
    | some bytes =>
      have hfetched : ¬ InRange (insnAddr regs) 4 a := fun hin => by
        rw [read_of_unmapped (by decide) hin hunmapped] at hread
        exact absurd hread (by simp)
      rcases nextPc_exits hnarrow hread with ⟨result, -, hlooks, -⟩ |
        ⟨address, n, answer, hn, hlooks, hanswer⟩ <;> rw [hlooks] at ha
      · exact absurd ha hfetched
      · -- the unmapped cell is one of the data
        have hin : InRange address n a := ha.resolve_left hfetched
        rw [hanswer m hread, readLe, read_of_unmapped hn hin hunmapped]
        rfl
  answers := by
    intro m hmapped
    obtain ⟨bytes, hread⟩ := read_of_mapped (by decide) fun a ha => hmapped a (.inl ha)
    rcases nextPc_exits hnarrow hread with ⟨result, hne, -, hresult⟩ |
      ⟨address, n, answer, hn, hlooks, hanswer⟩
    · rw [hresult m hread]
      exact hne
    · rw [hlooks] at hmapped
      obtain ⟨value, hvalue⟩ := read_of_mapped hn fun a ha => hmapped a (.inr ha)
      rw [hanswer m hread, readLe, hvalue]
      simp
  congr := by
    intro m m' hagree
    have hfetch : ByteMem.read m' (insnAddr regs) 4 = ByteMem.read m (insnAddr regs) 4 :=
      read_congr (by decide) fun a ha => hagree a (.inl (.inl ha))
    cases hread : ByteMem.read m (insnAddr regs) 4 with
    | none => rw [nextPc_notFetched hread, nextPc_notFetched (hfetch.trans hread)]
    | some bytes =>
      rcases nextPc_exits hnarrow hread with ⟨result, -, -, hresult⟩ |
        ⟨address, n, answer, hn, hlooks, hanswer⟩
      · rw [hresult m hread, hresult m' (hfetch.trans hread)]
      · rw [hanswer m hread, hanswer m' (hfetch.trans hread), readLe_congr hn fun a ha => ?_]
        refine hagree a (.inl ?_)
        rw [hlooks]
        exact .inr ha
  looks_congr := by
    intro m m' hagree
    rw [looksAt, looksAt, (insnAt_congr hagree).1]

/-- **`next_pc` looks only at what the processor looks at** exactly where the bytes it looks at are
    in the footprint, or one that is there cannot be read. -/
theorem nextPc_footprint_iff (decoder : InstDecoder) (hnarrow : NarrowByHalfword decoder)
    (regs : RegContext) (mem : UserMem) :
    FootprintDecides decoder regs mem ↔
      looksAt decoder regs mem ⊆ footprint decoder regs mem ∨
        ∃ a ∈ looksAt decoder regs mem ∩ footprint decoder regs mem, mem a = none := by
  have hlooks := nextPc_looksAt hnarrow regs
  rw [← hlooks.local_iff mem]
  constructor
  · intro h
    exact h.same
  · intro hlocal
    refine ⟨hlocal, fun _ hreadable => ?_⟩
    obtain hinside | ⟨a, ⟨_, hin⟩, hunmapped⟩ := (hlooks.local_iff mem).mp hlocal
    · exact hlooks.answers fun a ha => hreadable a (hinside ha)
    · exact absurd hunmapped (hreadable a hin)

/-- A decoder that knows a wide instruction only. -/
theorem knowing_narrow {encoding : List U8} {known : Instruction} (hwide : known.narrow = false) :
    NarrowByHalfword (knowing encoding known) := by
  intro b₀ b₁ b₂ b₃ c₂ c₃ insn hdecode hsmall
  rw [knowing] at hdecode
  split at hdecode
  · obtain rfl := Except.ok.inj hdecode
    rw [hwide] at hsmall
    exact absurd hsmall Bool.false_ne_true
  · exact absurd hdecode (by simp)

theorem nextPc_footprint_iff_ldrPcPc4 :
    FootprintDecides (knowing [0xDF#8, 0xF8#8, 0x04#8, 0xF0#8] ldrPcPc4)
      (standingAt 0x1000#32 true 0#32 0#32)
      (textAt 0x1000#32 [0xDF#8, 0xF8#8, 0x04#8, 0xF0#8]) := by
  refine (nextPc_footprint_iff _ (knowing_narrow rfl) _ _).mpr (.inl ?_)
  rintro a (ha | ⟨i, address, n, hi, hcond, hdata, ha⟩)
  · exact .inl ha
  · obtain rfl : ldrPcPc4 = i := Option.some.inj hi
    refine .inr ⟨ldrPcPc4, address, n, hi, hcond, ?_, ha⟩
    exact hdata

/-- `nop`. -/
def nopInsn : Instruction := ⟨.AL, .other, fun _ => .nothing, true, false⟩

/-- **`nop` in the last two readable bytes** is `MemoryRead`. -/
theorem nextPc_not_footprint :
    ¬ ∀ (decoder : InstDecoder), NarrowByHalfword decoder → ∀ (regs : RegContext) (mem : UserMem),
      FootprintDecides decoder regs mem := by
  intro hclaim
  have hnarrow : NarrowByHalfword (knowing [0x00#8, 0xBF#8] nopInsn) := by
    intro b₀ b₁ b₂ b₃ c₂ c₃ insn hdecode _
    exact hdecode
  have hdecides := hclaim _ hnarrow (standingAt 0x1000#32 true 0#32 0#32)
    (ByteMem.write (fun _ => none) 0x1000#32 [0x00#8, 0xBF#8])
  refine hdecides.predicted (by decide) ?_ (by decide)
  rintro a (ha | ⟨i, address, n, hi, hcond, hdata, ha⟩)
  · have hin : InRange 0x1000#32 [0x00#8, 0xBF#8].length a := ha
    rw [write_of_inRange _ hin, List.getElem?_eq_getElem hin]
    simp
  · obtain rfl : nopInsn = i := Option.some.inj hi
    exact absurd hdata (by simp [loadsFrom, nopInsn])

end VitaGdb.ArmNextPc
