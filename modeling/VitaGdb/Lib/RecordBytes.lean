/-
  Records as bytes: little-endian words, and the fields of a record one behind the other.

  A `Field` is a fixed number of cells of a record, read by `get` and written by `set`.  A
  `Layout` is a list of fields that together make up the record: no field is disturbed by a later
  one, and two records that agree on all fields are equal.  `encode` is the concatenation of the
  fields, `decode` takes them off the input one after the other and keeps, when the input runs
  out, what it has set.

    * `Layout.decode_encode` — what a record was encoded to decodes to it, whatever was there
      before,
    * `Layout.encode_decode` — an input that decodes is the encoding of the outcome,
    * `slice_encode` — a field lies behind the sizes of the fields before it.
-/
import Mathlib

namespace RecordBytes

/-! ## Little-endian words -/

/-- The low `n` bytes of a word, lowest first. -/
def toLeBytes {w : Nat} (n : Nat) (x : BitVec w) : List (BitVec 8) :=
  (List.range n).map fun k => x.extractLsb' (8 * k) 8

/-- The word of some bytes, lowest first. -/
def ofLeBytes (w : Nat) (bytes : List (BitVec 8)) : BitVec w :=
  bytes.foldr (fun b acc => (acc <<< 8) ||| b.setWidth w) 0#w

@[simp] theorem length_toLeBytes {w : Nat} (n : Nat) (x : BitVec w) :
    (toLeBytes n x).length = n := by
  rw [toLeBytes, List.length_map, List.length_range]

/-- A bit of the word is a bit of the byte it lies in. -/
theorem getLsbD_ofLeBytes (w : Nat) (bytes : List (BitVec 8)) (i : Nat) :
    (ofLeBytes w bytes).getLsbD i =
      (decide (i < w) && (bytes[i / 8]?.getD 0#8).getLsbD (i % 8)) := by
  induction bytes generalizing i with
  | nil => simp [ofLeBytes]
  | cons b bytes ih =>
    have hcons : ofLeBytes w (b :: bytes) = (ofLeBytes w bytes <<< 8) ||| b.setWidth w := rfl
    rw [hcons, BitVec.getLsbD_or, BitVec.getLsbD_shiftLeft, BitVec.getLsbD_setWidth, ih]
    by_cases hlow : i < 8
    · have hzero : i / 8 = 0 := by omega
      have hsame : i % 8 = i := by omega
      simp [hlow, hzero, hsame]
    · have hdiv : i / 8 = (i - 8) / 8 + 1 := by omega
      have hmod : i % 8 = (i - 8) % 8 := by omega
      have hout : b.getLsbD i = false := BitVec.getLsbD_of_ge b i (by omega)
      by_cases hw : i < w
      · have hw' : i - 8 < w := by omega
        simp [hlow, hw, hw', hout, hdiv, hmod]
      · simp [hw]

/-- Taking a word apart and putting it together. -/
theorem ofLeBytes_toLeBytes {w n : Nat} (h : w ≤ 8 * n) (x : BitVec w) :
    ofLeBytes w (toLeBytes n x) = x := by
  apply BitVec.eq_of_getLsbD_eq
  intro i hi
  have hbyte : i / 8 < n := by omega
  have hsplit : 8 * (i / 8) + i % 8 = i := by omega
  rw [getLsbD_ofLeBytes, toLeBytes, List.getElem?_map, List.getElem?_range hbyte]
  simp [hi, Nat.mod_lt, hsplit]

/-- A word is known by its bytes. -/
theorem toLeBytes_inj {w n : Nat} (h : w ≤ 8 * n) {x y : BitVec w}
    (hsame : toLeBytes n x = toLeBytes n y) : x = y := by
  rw [← ofLeBytes_toLeBytes h x, hsame, ofLeBytes_toLeBytes h]

/-- Putting bytes together and taking the word apart. -/
theorem toLeBytes_ofLeBytes {w : Nat} (bytes : List (BitVec 8)) (h : 8 * bytes.length ≤ w) :
    toLeBytes bytes.length (ofLeBytes w bytes) = bytes := by
  apply List.ext_getElem (length_toLeBytes _ _)
  intro k hk hk'
  simp only [toLeBytes, List.getElem_map, List.getElem_range]
  apply BitVec.eq_of_getLsbD_eq
  intro j hj
  have hbyte : (8 * k + j) / 8 = k := by omega
  have hbit : (8 * k + j) % 8 = j := by omega
  have hin : 8 * k + j < w := by omega
  rw [BitVec.getLsbD_extractLsb', getLsbD_ofLeBytes, hbyte, hbit, List.getElem?_eq_getElem hk']
  simp [hj, hin]

/-! ## Fields -/

variable {σ β : Type}

/-- A fixed number of cells of a record. -/
structure Field (σ β : Type) where
  size : Nat
  get : σ → List β
  set : List β → σ → σ
  length_get : ∀ s, (get s).length = size
  get_set : ∀ cells s, cells.length = size → get (set cells s) = cells

/-- A word of the record, as `n` little-endian bytes. -/
def Field.word {w : Nat} (n : Nat) (hw : w = 8 * n) (get : σ → BitVec w)
    (set : BitVec w → σ → σ) (get_set : ∀ v s, get (set v s) = v) : Field σ (BitVec 8) where
  size := n
  get s := toLeBytes n (get s)
  set bytes s := set (ofLeBytes w bytes) s
  length_get _ := length_toLeBytes n _
  get_set bytes s hlen := by
    subst hlen
    rw [get_set, toLeBytes_ofLeBytes bytes (Nat.le_of_eq hw.symm)]

/-- Writing `g` does not change what `f` reads. -/
def Undisturbed (f g : Field σ β) : Prop := ∀ cells s, f.get (g.set cells s) = f.get s

/-- Words of the record do not disturb each other where their components do not. -/
theorem undisturbed_word {w w' n n' : Nat} {hw : w = 8 * n} {hw' : w' = 8 * n'}
    {get : σ → BitVec w} {set : BitVec w → σ → σ} {get_set : ∀ v s, get (set v s) = v}
    {get' : σ → BitVec w'} {set' : BitVec w' → σ → σ} {get_set' : ∀ v s, get' (set' v s) = v}
    (h : ∀ v s, get (set' v s) = get s) :
    Undisturbed (Field.word n hw get set get_set) (Field.word n' hw' get' set' get_set') :=
  fun _ s => congrArg (toLeBytes n) (h _ s)

/-- The cells of some fields. -/
def totalSize (fields : List (Field σ β)) : Nat := (fields.map Field.size).sum

/-- The fields of a record, one behind the other. -/
def encode (fields : List (Field σ β)) (s : σ) : List β := fields.flatMap fun f => f.get s

/-- Take a field off the input. -/
def Field.decode (f : Field σ β) (s : σ) (input : List β) : Except σ (σ × List β) :=
  if input.length < f.size then .error s
  else .ok (f.set (input.take f.size) s, input.drop f.size)

/-- Take the fields off the input, one after the other. -/
def decode : List (Field σ β) → σ → List β → Except σ (σ × List β)
  | [], s, input => .ok (s, input)
  | f :: fields, s, input =>
    match f.decode s input with
    | .error s => .error s
    | .ok (s, rest) => decode fields s rest

@[simp] theorem length_encode (fields : List (Field σ β)) (s : σ) :
    (encode fields s).length = totalSize fields := by
  induction fields with
  | nil => rfl
  | cons f fields ih =>
    rw [encode, List.flatMap_cons, List.length_append, f.length_get, totalSize, List.map_cons,
      List.sum_cons]
    exact congrArg (f.size + ·) ih

theorem encode_append (fields fields' : List (Field σ β)) (s : σ) :
    encode (fields ++ fields') s = encode fields s ++ encode fields' s :=
  List.flatMap_append

/-- A field lies behind the sizes of the fields before it. -/
theorem slice_encode (fields fields' : List (Field σ β)) (f : Field σ β) (s : σ) :
    ((encode (fields ++ f :: fields') s).drop (totalSize fields)).take f.size = f.get s := by
  rw [encode_append, List.drop_left' (length_encode fields s), encode, List.flatMap_cons,
    List.take_left' (f.length_get s)]

/-- The same for the field at an index. -/
theorem slice_encode_getElem {fields : List (Field σ β)} {i : Nat} {f : Field σ β}
    (h : fields[i]? = some f) (s : σ) :
    ((encode fields s).drop (totalSize (fields.take i))).take f.size = f.get s := by
  obtain ⟨hi, hget⟩ := List.getElem?_eq_some_iff.mp h
  have hsplit : fields.take i ++ f :: fields.drop (i + 1) = fields := by
    rw [← hget, List.cons_getElem_drop_succ, List.take_append_drop]
  have hslice := slice_encode (fields.take i) (fields.drop (i + 1)) f s
  rwa [hsplit] at hslice

theorem decode_singleton (f : Field σ β) (s : σ) (input : List β) :
    decode [f] s input = f.decode s input := by
  rw [decode]
  cases f.decode s input <;> rfl

theorem decode_append (fields fields' : List (Field σ β)) (s : σ) (input : List β) :
    decode (fields ++ fields') s input =
      decode fields s input >>= fun sr => decode fields' sr.1 sr.2 := by
  induction fields generalizing s input with
  | nil => rfl
  | cons f fields ih =>
    rw [List.cons_append, decode, decode]
    cases f.decode s input with
    | error s => rfl
    | ok sr => exact ih sr.1 sr.2

/-- What is read behind a field's set cells, once the later fields are decoded too. -/
theorem get_decode {f : Field σ β} {fields : List (Field σ β)}
    (hapart : ∀ g ∈ fields, Undisturbed f g) {s s' : σ} {input rest : List β}
    (h : decode fields s input = .ok (s', rest)) : f.get s' = f.get s := by
  induction fields generalizing s input with
  | nil =>
    obtain ⟨rfl, _⟩ := Prod.mk.inj (Except.ok.inj h)
    rfl
  | cons g fields ih =>
    rw [decode, Field.decode] at h
    split at h
    · exact nomatch h
    · rename_i s₁ rest₁ hstep
      split at hstep
      · exact nomatch hstep
      · obtain ⟨rfl, rfl⟩ := Prod.mk.inj (Except.ok.inj hstep)
        rw [ih (fun g' hg' => hapart g' (List.mem_cons_of_mem g hg')) h]
        exact hapart g List.mem_cons_self _ s

/-- Enough input decodes, and what is behind the fields is left. -/
theorem decode_of_le (fields : List (Field σ β)) (s : σ) {input : List β}
    (h : totalSize fields ≤ input.length) :
    ∃ s', decode fields s input = .ok (s', input.drop (totalSize fields)) := by
  induction fields generalizing s input with
  | nil => exact ⟨s, rfl⟩
  | cons f fields ih =>
    have hsize : totalSize (f :: fields) = f.size + totalSize fields := by
      rw [totalSize, List.map_cons, List.sum_cons]
      rfl
    rw [hsize] at h
    have hrest : totalSize fields ≤ (input.drop f.size).length := by
      rw [List.length_drop]
      omega
    obtain ⟨s', hs'⟩ := ih (f.set (input.take f.size) s) hrest
    refine ⟨s', ?_⟩
    rw [decode, Field.decode, if_neg (by omega), hsize, ← List.drop_drop]
    exact hs'

/-- An input that decodes starts with the encoding of the outcome. -/
theorem encode_of_decode {fields : List (Field σ β)} (hapart : fields.Pairwise Undisturbed)
    {s s' : σ} {input rest : List β} (h : decode fields s input = .ok (s', rest)) :
    input = encode fields s' ++ rest := by
  induction fields generalizing s input with
  | nil =>
    obtain ⟨_, rfl⟩ := Prod.mk.inj (Except.ok.inj h)
    rfl
  | cons f fields ih =>
    obtain ⟨hf, hrest⟩ := List.pairwise_cons.mp hapart
    rw [decode, Field.decode] at h
    split at h
    · exact nomatch h
    · rename_i s₁ rest₁ hstep
      split at hstep
      · exact nomatch hstep
      · rename_i hlong
        obtain ⟨rfl, rfl⟩ := Prod.mk.inj (Except.ok.inj hstep)
        have hget : f.get s' = input.take f.size := by
          rw [get_decode hf h]
          exact f.get_set _ _ (by rw [List.length_take]; omega)
        calc input = input.take f.size ++ input.drop f.size := (List.take_append_drop _ _).symm
          _ = f.get s' ++ (encode fields s' ++ rest) := by rw [hget, ← ih hrest h]
          _ = encode (f :: fields) s' ++ rest := by
            rw [← List.append_assoc]
            rfl

/-! ## Layouts -/

/-- Fields that make up the record. -/
structure Layout (σ β : Type) where
  fields : List (Field σ β)
  apart : fields.Pairwise Undisturbed
  whole : ∀ s t, (∀ f ∈ fields, f.get s = f.get t) → s = t

namespace Layout

/-- Records with the same encoding are equal. -/
theorem encode_inj (layout : Layout σ β) {s t : σ}
    (h : encode layout.fields s = encode layout.fields t) : s = t := by
  apply layout.whole
  intro f hf
  obtain ⟨before, behind, hfields⟩ := List.append_of_mem hf
  rw [hfields] at h
  rw [← slice_encode before behind f s, h, slice_encode before behind f t]

/-- **Decoding an encoding** gives the record back. -/
theorem decode_encode (layout : Layout σ β) (r s : σ) :
    decode layout.fields s (encode layout.fields r) = .ok (r, []) := by
  have hlong : totalSize layout.fields ≤ (encode layout.fields r).length :=
    Nat.le_of_eq (length_encode _ _).symm
  obtain ⟨s', hs'⟩ := decode_of_le layout.fields s hlong
  have hnil : (encode layout.fields r).drop (totalSize layout.fields) = [] :=
    List.drop_eq_nil_of_le (Nat.le_of_eq (length_encode _ _))
  rw [hnil] at hs'
  have hsame := encode_of_decode layout.apart hs'
  rw [List.append_nil] at hsame
  rw [hs', layout.encode_inj hsame]

/-- **Encoding what was decoded** gives the input back. -/
theorem encode_decode (layout : Layout σ β) (s : σ) {input : List β}
    (h : input.length = totalSize layout.fields) :
    ∃ r, decode layout.fields s input = .ok (r, []) ∧ encode layout.fields r = input := by
  obtain ⟨r, hr⟩ := decode_of_le layout.fields s (Nat.le_of_eq h.symm)
  have hnil : input.drop (totalSize layout.fields) = [] := List.drop_eq_nil_of_le (Nat.le_of_eq h)
  rw [hnil] at hr
  have hinput := encode_of_decode layout.apart hr
  rw [List.append_nil] at hinput
  exact ⟨r, hr, hinput.symm⟩

end Layout

end RecordBytes
