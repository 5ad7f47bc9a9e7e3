/-
  Byte-addressed memory over a wrapping address space.

  Addresses are `BitVec w`, so `addr + i` wraps exactly as machine addresses do; a cell is
  `none` where nothing is mapped.  A range of `n` cells from `addr` is described by the OFFSET
  `a - addr`: `InRange addr n a ↔ (a - addr).toNat < n`.  This is one comparison whatever wraps,
  and it makes a block write a single lookup (`write`) instead of a loop.

  `read` is the loop a block copy performs (fails on the first unmapped cell).  The bridge between
  the two is `read_eq_some_iff`; the rules the proofs use are
    * `write_of_not_inRange`, `write_of_inRange` — a write, cell by cell,
    * `read_of_cells`     — a read, off the cells of its range,
    * `read_write_same`   — what was written is read back,
    * `write_eq_self_iff` — a write that changes nothing,
    * `read_isSome_iff`   — a read succeeds on a range that is mapped throughout.
-/
import Mathlib

namespace ByteMem

variable {w : Nat} {β : Type}

/-- Memory: the content of each mapped address. -/
abbrev Mem (w : Nat) (β : Type) := BitVec w → Option β

/-- `a` is one of the `n` addresses from `addr` on (wrapping). -/
def InRange (addr : BitVec w) (n : Nat) (a : BitVec w) : Prop := (a - addr).toNat < n

instance (addr : BitVec w) (n : Nat) (a : BitVec w) : Decidable (InRange addr n a) :=
  inferInstanceAs (Decidable (_ < _))

/-- The set of the `n` addresses from `addr` on. -/
def range (addr : BitVec w) (n : Nat) : Set (BitVec w) := {a | InRange addr n a}

@[simp] theorem mem_range {addr : BitVec w} {n : Nat} {a : BitVec w} :
    a ∈ range addr n ↔ InRange addr n a := Iff.rfl

/-- Block write: the cells of the range take the bytes, every other cell keeps its content. -/
def write (m : Mem w β) (addr : BitVec w) (bs : List β) : Mem w β := fun a =>
  match bs[(a - addr).toNat]? with
  | some b => some b
  | none => m a

/-- Block read: the `n` cells from `addr` on, or `none` when one of them is not mapped. -/
def read (m : Mem w β) : BitVec w → Nat → Option (List β)
  | _, 0 => some []
  | addr, n + 1 => do
    let b ← m addr
    let bs ← read m (addr + 1#w) n
    return b :: bs

/-! ## Ranges -/

theorem add_ofNat_sub (addr : BitVec w) (i : Nat) :
    addr + BitVec.ofNat w i - addr = BitVec.ofNat w i := by
  rw [BitVec.add_comm, BitVec.add_sub_cancel]

/-- The offset of the `i`-th address of a range that does not wrap onto itself. -/
theorem toNat_add_ofNat_sub (addr : BitVec w) {i : Nat} (hi : i < 2 ^ w) :
    (addr + BitVec.ofNat w i - addr).toNat = i := by
  rw [add_ofNat_sub, BitVec.toNat_ofNat, Nat.mod_eq_of_lt hi]

theorem inRange_add_ofNat (addr : BitVec w) {n i : Nat} (hi : i < n) (hn : n ≤ 2 ^ w) :
    InRange addr n (addr + BitVec.ofNat w i) := by
  rw [InRange, toNat_add_ofNat_sub addr (Nat.lt_of_lt_of_le hi hn)]
  exact hi

/-- An address is `addr` plus its offset. -/
theorem add_offset (addr a : BitVec w) : addr + BitVec.ofNat w (a - addr).toNat = a := by
  rw [BitVec.ofNat_toNat, BitVec.setWidth_eq, BitVec.add_comm, BitVec.sub_add_cancel]

/-- A non-empty range contains its first address. -/
theorem inRange_self (addr : BitVec w) {n : Nat} (hn : 0 < n) : InRange addr n addr := by
  rw [InRange, BitVec.sub_self]
  simpa using hn

/-- Two ranges are disjoint when each starts past the other's end, counted from its own start. -/
theorem range_disjoint {addr addr' : BitVec w} {n n' : Nat} (h : n ≤ (addr' - addr).toNat)
    (h' : n' ≤ (addr - addr').toNat) : Disjoint (range addr n) (range addr' n') := by
  rw [Set.disjoint_left]
  intro a (ha : (a - addr).toNat < n) (ha' : (a - addr').toNat < n')
  -- the later start lies between the other one and `a`
  have hsub : ∀ b c : BitVec w, (a - b) - (a - c) = c - b := by
    intro b c
    rw [BitVec.sub_eq_iff_eq_add, BitVec.sub_add_comm, BitVec.add_comm c, BitVec.sub_add_cancel]
  rcases Nat.le_total (a - addr').toNat (a - addr).toNat with hle | hle
  · rw [← hsub, BitVec.toNat_sub_of_le hle] at h
    omega
  · rw [← hsub, BitVec.toNat_sub_of_le hle] at h'
    omega

/-! ## Writes, cell by cell -/

theorem write_of_not_inRange (m : Mem w β) {addr a : BitVec w} {bs : List β}
    (h : ¬ InRange addr bs.length a) : write m addr bs a = m a := by
  rw [write, List.getElem?_eq_none (Nat.le_of_not_lt h)]

theorem write_of_inRange (m : Mem w β) {addr a : BitVec w} {bs : List β}
    (h : InRange addr bs.length a) : write m addr bs a = bs[(a - addr).toNat]? := by
  have h' : (a - addr).toNat < bs.length := h
  rw [write, List.getElem?_eq_getElem h']

/-! ## Reads -/

/-- A write, cell by cell: the byte of the cell's offset, if there is one. -/
theorem write_apply (m : Mem w β) (addr a : BitVec w) (bs : List β) :
    write m addr bs a = (bs[(a - addr).toNat]?).or (m a) := by
  rw [write]
  split
  · next h => rw [h, Option.some_or]
  · next h => rw [h, Option.none_or]

theorem read_length {m : Mem w β} {addr : BitVec w} {n : Nat} {bs : List β}
    (h : read m addr n = some bs) : bs.length = n := by
  induction n generalizing addr bs with
  | zero =>
    obtain rfl : [] = bs := by rwa [read, Option.some.injEq] at h
    rfl
  | succ n ih =>
    simp only [read, Option.bind_eq_bind, Option.bind_eq_some_iff, Option.pure_def,
      Option.some.injEq] at h
    obtain ⟨b, _, bs', hbs', rfl⟩ := h
    rw [List.length_cons, ih hbs']

/-- A block read is the list of the cells of the range. -/
theorem read_eq_some_iff {m : Mem w β} {addr : BitVec w} {n : Nat} {bs : List β} :
    read m addr n = some bs ↔
      bs.length = n ∧ ∀ i, i < n → m (addr + BitVec.ofNat w i) = bs[i]? := by
  induction n generalizing addr bs with
  | zero =>
    rw [read, Option.some.injEq]
    constructor
    · rintro rfl
      exact ⟨rfl, fun i hi => absurd hi (Nat.not_lt_zero i)⟩
    · rintro ⟨hlen, -⟩
      exact (List.length_eq_zero_iff.mp hlen).symm
  | succ n ih =>
    -- the tail of the range starts one address further on
    have hshift : ∀ i, addr + 1#w + BitVec.ofNat w i = addr + BitVec.ofNat w (i + 1) := by
      intro i
      rw [BitVec.add_assoc, Nat.add_comm i 1, BitVec.ofNat_add]
    simp only [read, Option.bind_eq_bind, Option.bind_eq_some_iff, Option.pure_def,
      Option.some.injEq, ih, hshift]
    constructor
    · rintro ⟨b, hb, bs', ⟨hlen, hcells⟩, rfl⟩
      refine ⟨by rw [List.length_cons, hlen], ?_⟩
      intro i hi
      cases i with
      | zero => simpa using hb
      | succ i => simpa using hcells i (by omega)
    · rintro ⟨hlen, hcells⟩
      cases bs with
      | nil => exact absurd hlen (by simp)
      | cons b bs' =>
        refine ⟨b, by simpa using hcells 0 (by omega), bs', ⟨by simpa using hlen, ?_⟩, rfl⟩
        intro i hi
        simpa using hcells (i + 1) (by omega)

/-- Two memories with the same cells in a range read the same. -/
theorem read_congr {m m' : Mem w β} {addr : BitVec w} {n : Nat} (hn : n ≤ 2 ^ w)
    (h : ∀ a, InRange addr n a → m a = m' a) : read m addr n = read m' addr n := by
  have hcells : ∀ bs, read m addr n = some bs ↔ read m' addr n = some bs := by
    intro bs
    rw [read_eq_some_iff, read_eq_some_iff]
    constructor <;> rintro ⟨hlen, hcells⟩ <;> refine ⟨hlen, fun i hi => ?_⟩
    · rw [← h _ (inRange_add_ofNat addr hi hn)]
      exact hcells i hi
    · rw [h _ (inRange_add_ofNat addr hi hn)]
      exact hcells i hi
  cases hread : read m addr n with
  | some bs => exact ((hcells bs).mp hread).symm
  | none =>
    cases hread' : read m' addr n with
    | none => rfl
    | some bs =>
      rw [(hcells bs).mpr hread'] at hread
      exact absurd hread (by simp)

/-- A cell of a range that was read, by its offset. -/
theorem read_inRange {m : Mem w β} {addr a : BitVec w} {n : Nat} {bs : List β}
    (h : read m addr n = some bs) (ha : InRange addr n a) : m a = bs[(a - addr).toNat]? := by
  have hcell := (read_eq_some_iff.mp h).2 _ ha
  rwa [add_offset] at hcell

/-- A shorter read is a prefix of a longer one. -/
theorem read_take {m : Mem w β} {addr : BitVec w} {n k : Nat} {bs : List β}
    (h : read m addr n = some bs) (hk : k ≤ n) : read m addr k = some (bs.take k) := by
  obtain ⟨hlen, hcells⟩ := read_eq_some_iff.mp h
  refine read_eq_some_iff.mpr ⟨?_, fun i hi => ?_⟩
  · rw [List.length_take, hlen, Nat.min_eq_left hk]
  · rw [hcells i (Nat.lt_of_lt_of_le hi hk), List.getElem?_take_of_lt hi]

/-- What a read returned, read off the memory: the cells of the range and nothing else matter. -/
theorem read_of_cells {m : Mem w β} {addr : BitVec w} {bs : List β} (hlen : bs.length ≤ 2 ^ w)
    (h : ∀ a, InRange addr bs.length a → m a = bs[(a - addr).toNat]?) :
    read m addr bs.length = some bs := by
  refine read_eq_some_iff.mpr ⟨rfl, fun i hi => ?_⟩
  rw [h _ (inRange_add_ofNat addr hi hlen),
    toNat_add_ofNat_sub addr (Nat.lt_of_lt_of_le hi hlen)]

/-- What was written is read back. -/
theorem read_write_same (m : Mem w β) (addr : BitVec w) {bs : List β} (hlen : bs.length ≤ 2 ^ w) :
    read (write m addr bs) addr bs.length = some bs :=
  read_of_cells hlen fun _ ha => write_of_inRange m ha

/-- A write changes nothing exactly where what it writes is there already. -/
theorem write_eq_self_iff {m : Mem w β} {addr : BitVec w} {bs old : List β}
    (hlen : bs.length ≤ 2 ^ w) (hread : read m addr bs.length = some old) :
    write m addr bs = m ↔ old = bs := by
  constructor
  · intro h
    have hsame := read_write_same m addr hlen
    rw [h, hread, Option.some.injEq] at hsame
    exact hsame
  · rintro rfl
    funext a
    by_cases ha : InRange addr old.length a
    · rw [write_of_inRange m ha, read_inRange hread ha]
    · exact write_of_not_inRange m ha

/-- A read succeeds exactly when every cell of its range is mapped. -/
theorem read_isSome_iff {m : Mem w β} {addr : BitVec w} {n : Nat} (hn : n ≤ 2 ^ w) :
    (read m addr n).isSome ↔ ∀ a, InRange addr n a → (m a).isSome := by
  constructor
  · intro h a ha
    obtain ⟨bs, hbs⟩ := Option.isSome_iff_exists.mp h
    have ha' : (a - addr).toNat < bs.length := by rw [read_length hbs]; exact ha
    rw [read_inRange hbs ha, List.getElem?_eq_getElem ha']
    rfl
  · induction n generalizing addr with
    | zero => intro _; rfl
    | succ n ih =>
      intro h
      obtain ⟨b, hb⟩ := Option.isSome_iff_exists.mp (h addr (inRange_self addr (by omega)))
      have htail : (read m (addr + 1#w) n).isSome := by
        refine ih (by omega) fun a ha => h a ?_
        -- an offset below `n` from the second cell is one below `n + 1` from the first
        have hoff : a - addr = (a - (addr + 1#w)) + 1#w := by
          rw [BitVec.sub_eq_iff_eq_add, BitVec.add_assoc, BitVec.add_comm 1#w,
            BitVec.sub_add_cancel]
        have hlt : (a - (addr + 1#w)).toNat < n := ha
        show (a - addr).toNat < n + 1
        rw [hoff, BitVec.toNat_add]
        have h1 : (1#w).toNat ≤ 1 := by
          rw [BitVec.toNat_ofNat]
          exact Nat.mod_le 1 _
        have hmod := Nat.mod_le ((a - (addr + 1#w)).toNat + (1#w).toNat) (2 ^ w)
        omega
      obtain ⟨bs, hbs⟩ := Option.isSome_iff_exists.mp htail
      rw [read, hb, hbs]
      rfl

/-! ## What a function of memory looks at -/

/-- `f` looks at the cells of `looks m`: it ends in `fault` exactly where one of them is not mapped.
    Which they are is known from the cells of `footprint m`, and `f` depends on no other cell. -/
structure LooksAt {α : Type} (f : Mem w β → α) (fault : α)
    (footprint looks : Mem w β → Set (BitVec w)) : Prop where
  faults : ∀ {m a}, a ∈ looks m → m a = none → f m = fault
  answers : ∀ {m}, (∀ a ∈ looks m, m a ≠ none) → f m ≠ fault
  congr : ∀ {m m'}, (∀ a ∈ looks m ∪ footprint m, m' a = m a) → f m' = f m
  looks_congr : ∀ {m m'}, (∀ a ∈ footprint m, m' a = m a) → looks m' = looks m

/-- **A function depends on its footprint only** exactly where it looks at nothing outside, or a
    cell inside is not mapped and it ends there. -/
theorem LooksAt.local_iff {α : Type} [Nonempty β] {f : Mem w β → α} {fault : α}
    {footprint looks : Mem w β → Set (BitVec w)} (h : LooksAt f fault footprint looks)
    (m : Mem w β) :
    (∀ m', (∀ a ∈ footprint m, m' a = m a) → f m' = f m) ↔
      looks m ⊆ footprint m ∨ ∃ a ∈ looks m ∩ footprint m, m a = none := by
  classical
  constructor
  · intro hlocal
    by_contra hneither
    obtain ⟨houtside, hmapped⟩ := not_or.mp hneither
    obtain ⟨x, hx, hxout⟩ := Set.not_subset.mp houtside
    obtain ⟨b⟩ := ‹Nonempty β›
    -- outside the footprint nothing is mapped, or everything
    let fill : Option β → Mem w β := fun c a => if a ∈ footprint m then m a else c
    have hagree : ∀ c, ∀ a ∈ footprint m, fill c a = m a := fun c a ha => if_pos ha
    have hnone : f (fill none) = fault := by
      refine h.faults (a := x) ?_ (if_neg hxout)
      rwa [h.looks_congr (hagree none)]
    have hsome : f (fill (some b)) ≠ fault := by
      refine h.answers fun a ha hunmapped => ?_
      rw [h.looks_congr (hagree (some b))] at ha
      by_cases hin : a ∈ footprint m
      · rw [hagree (some b) a hin] at hunmapped
        exact hmapped ⟨a, ⟨ha, hin⟩, hunmapped⟩
      · exact absurd ((if_neg hin).symm.trans hunmapped) (by simp)
    rw [hlocal _ (hagree (some b)), ← hlocal _ (hagree none)] at hsome
    exact hsome hnone
  · rintro (hinside | ⟨a, ⟨hlooks, hin⟩, hunmapped⟩) m' hagree
    · refine h.congr fun a ha => hagree a ?_
      exact ha.elim (fun hl => hinside hl) id
    · rw [h.faults hlooks hunmapped]
      refine h.faults (a := a) ?_ ((hagree a hin).trans hunmapped)
      rwa [h.looks_congr hagree]

end ByteMem
