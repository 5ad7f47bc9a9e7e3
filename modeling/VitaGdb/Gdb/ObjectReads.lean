/-
  `gdb/target.rs`: the two objects gdb reads in chunks, the library list and the executable's path.

  gdb asks for `length` bytes from `offset` on, and hands over a buffer that may be longer than
  that.  The library list is generated anew for every chunk and goes through a `StreamWriter`, so
  the buffer is filled with a window of the document, whatever `length` says (`getLibraries_eq`).
  The path is copied out of the array the kernel has filled, zeros behind its end included.

  `objectReads_iff` says for both exactly when the chunk is the one that was asked for.
-/
import VitaGdb.Gdb.Attaching
import VitaGdb.Kernel.StreamWriter
import VitaGdb.Gdb.RegisterAccess

namespace VitaGdb

open Windows

/-! ## Modules -/

/-- `SceKernelSegmentInfo`, as far as it is read. -/
structure SegmentInfo where
  size : U32
  vaddr : U32
  deriving DecidableEq

/-- `SceKernelModuleInfo`, as far as it is read.  The kernel ends the path with a zero. -/
structure ModuleInfo where
  path : List U8
  segments : List SegmentInfo
  terminated : 0#8 ∈ path

/-- What the kernel answers about the modules of a process: `get_module_ids`, `get_module_info`, and
    `ksceKernelGetModuleIdByPid`. -/
structure ModuleQueries where
  ids : SceUID → Except SceError (List SceUID)
  info : SceUID → SceUID → Except SceError ModuleInfo
  idByPid : SceUID → Except SceError SceUID

/-- `CStr::from_ptr`: the bytes before the first zero. -/
def cStr (path : List U8) : List U8 := path.takeWhile (· ≠ 0#8)

/-- `str::from_utf8`. -/
def toStr (bytes : List U8) : Option String :=
  String.fromUTF8? ⟨(bytes.map UInt8.ofBitVec).toArray⟩

/-- `{:x}`. -/
def lowerHex (n : Nat) : String := String.ofList (Nat.toDigits 16 n)

/-- `write!` of some texts, whose result is ignored. -/
def StreamWriter.write (w : StreamWriter) (pieces : List String) : StreamWriter :=
  (w.writeFmt (pieces.map bytesOf)).2

/-! ## The two reads -/

/-- The loop over the segments: it ends with the first one of size 0. -/
def writeSegments (w : StreamWriter) : List SegmentInfo → StreamWriter
  | [] => w
  | seg :: segments =>
    if seg.size = 0#32 then w
    else
      writeSegments (w.write ["<segment address=\"0x", lowerHex seg.vaddr.toNat, "\"/>"]) segments

/-- One round of the loop over the modules. -/
def writeModule (info : SceUID → Except SceError ModuleInfo) (w : StreamWriter) (modid : SceUID) :
    StreamWriter :=
  match info modid with
  | .error _ => w
  | .ok info =>
    match toStr (cStr info.path) with
    | none => w
    | some path =>
      (writeSegments (w.write ["<library name=\"", path, "\">"]) info.segments).write ["</library>"]

namespace VitaTarget

/-- `get_libraries`: the number of bytes, and the buffer. -/
def getLibraries (t : VitaTarget) (pool : SessionPool) (m : ModuleQueries) (offset : U64)
    (_length : Nat) (buf : List U8) : Outcome TargetError (Nat × List U8) :=
  match t.getPid pool with
  | none => .ok (0, buf)
  | some pid =>
    match m.ids pid with
    | .error _ => .err .nonFatal
    | .ok modids =>
      let w := (StreamWriter.new buf (offset.setWidth 32).toNat).write
        ["<library-list version=\"1.0\">"]
      let w := modids.foldl (writeModule (m.info pid)) w
      let w := w.write ["</library-list>"]
      .ok (w.written, w.buf)

/-- `get_exec_file`: the number of bytes, and the buffer. -/
def getExecFile (t : VitaTarget) (pool : SessionPool) (m : ModuleQueries) (pid : Option SceUID)
    (offset : U64) (length : Nat) (buf : List U8) : Outcome TargetError (Nat × List U8) :=
  match pid.or (t.getPid pool) with
  | none => .err .nonFatal
  | some pid =>
    match m.idByPid pid with
    | .error _ => .err .nonFatal
    | .ok modid =>
      match m.info pid modid with
      | .error _ => .err .nonFatal
      | .ok info =>
        let offset := (offset.setWidth 32).toNat
        let copyLen := min length buf.length
        if info.path.length ≤ offset ∨ copyLen = 0 then .ok (0, buf)
        else
          let count := min (info.path.length - offset) copyLen
          .ok (count, (info.path.drop offset).take count ++ buf.drop count)

end VitaTarget

/-! ## The library document -/

/-- What the loop over the segments writes. -/
def segmentsText : List SegmentInfo → String
  | [] => ""
  | seg :: segments =>
    if seg.size = 0#32 then ""
    else "<segment address=\"0x" ++ lowerHex seg.vaddr.toNat ++ "\"/>" ++ segmentsText segments

/-- What one round writes. -/
def moduleText (info : SceUID → Except SceError ModuleInfo) (modid : SceUID) : String :=
  match info modid with
  | .error _ => ""
  | .ok info =>
    match toStr (cStr info.path) with
    | none => ""
    | some path => "<library name=\"" ++ path ++ "\">" ++ segmentsText info.segments ++ "</library>"

/-- What the loop over the modules writes. -/
def modulesText (info : SceUID → Except SceError ModuleInfo) : List SceUID → String
  | [] => ""
  | modid :: modids => moduleText info modid ++ modulesText info modids

/-- The whole document. -/
def librariesText (info : SceUID → Except SceError ModuleInfo) (modids : List SceUID) : String :=
  "<library-list version=\"1.0\">" ++ modulesText info modids ++ "</library-list>"

/-! ## Text and its bytes -/

theorem toList_loop (bs : ByteArray) (i : Nat) (r : List UInt8) :
    ByteArray.toList.loop bs i r = r.reverse ++ bs.data.toList.drop i := by
  fun_induction ByteArray.toList.loop bs i r with
  | case1 i r h ih =>
    have hlt : i < bs.data.toList.length := by simpa using h
    rw [ih, List.reverse_cons, List.append_assoc, List.drop_eq_getElem_cons hlt,
      List.singleton_append]
    simp [ByteArray.get!, h]
  | case2 i r h =>
    rw [List.drop_eq_nil_of_le (by simpa using h), List.append_nil]

theorem bytesOf_eq (s : String) : bytesOf s = s.toByteArray.data.toList.map UInt8.toBitVec := by
  rw [bytesOf, ByteArray.toList, toList_loop]
  rfl

@[simp] theorem bytesOf_append (s t : String) : bytesOf (s ++ t) = bytesOf s ++ bytesOf t := by
  rw [bytesOf_eq, bytesOf_eq, bytesOf_eq, String.toByteArray_append, ByteArray.toList_data_append,
    List.map_append]

@[simp] theorem bytesOf_empty : bytesOf "" = [] := by
  rw [bytesOf_eq]
  rfl

theorem bytesOf_join (texts : List String) :
    bytesOf (String.join texts) = (texts.map bytesOf).flatten := by
  induction texts with
  | nil => simp [String.join_nil]
  | cons s texts ih => rw [String.join_cons, bytesOf_append, ih, List.map_cons, List.flatten_cons]

/-- The bytes of a text are that text. -/
theorem toStr_bytesOf (s : String) : toStr (bytesOf s) = some s := by
  have hbytes : (⟨((bytesOf s).map UInt8.ofBitVec).toArray⟩ : ByteArray) = s.toByteArray := by
    have hid : UInt8.ofBitVec ∘ UInt8.toBitVec = id := rfl
    rw [bytesOf_eq, List.map_map, hid, List.map_id]
  rw [toStr, hbytes, String.fromUTF8?, dif_pos s.isValidUTF8]
  rfl

theorem bytesOf_of_toStr {bytes : List U8} {s : String} (h : toStr bytes = some s) :
    bytesOf s = bytes := by
  rw [toStr, String.fromUTF8?] at h
  split at h
  · obtain rfl := Option.some.inj h
    have hid : UInt8.toBitVec ∘ UInt8.ofBitVec = id := rfl
    rw [bytesOf_eq]
    show (bytes.map UInt8.ofBitVec).toArray.toList.map UInt8.toBitVec = bytes
    rw [List.map_map, hid, List.map_id]
  · exact absurd h (by simp)

/-! ## What is written -/

namespace StreamWriter

variable {w : StreamWriter} {buf : List U8} {skip : Nat} {doc : String}

/-- The number of bytes and the buffer. -/
theorem Shows.answer {doc : List U8} (h : Shows w buf skip doc) : (w.written, w.buf) =
    ((window doc skip buf.length).length,
      window doc skip buf.length ++ buf.drop (window doc skip buf.length).length) := by
  have hcursor : w.written = (window doc skip buf.length).length := by rw [length_window, h.cursor]
  rw [← hcursor, ← h.bytes]

/-- A `write!` adds its texts. -/
theorem Shows.write (h : Shows w buf skip (bytesOf doc)) (pieces : List String) :
    Shows (w.write pieces) buf skip (bytesOf (doc ++ String.join pieces)) := by
  rw [bytesOf_append, bytesOf_join]
  exact h.writeFmt _

theorem Shows.write_single (h : Shows w buf skip (bytesOf doc)) (piece : String) :
    Shows (w.write [piece]) buf skip (bytesOf (doc ++ piece)) := by
  have hpiece := h.write [piece]
  rwa [String.join_cons, String.join_nil, String.append_empty] at hpiece

/-- The loop over the segments adds their text. -/
theorem Shows.writeSegments (h : Shows w buf skip (bytesOf doc)) (segments : List SegmentInfo) :
    Shows (writeSegments w segments) buf skip (bytesOf (doc ++ segmentsText segments)) := by
  induction segments generalizing w doc with
  | nil =>
    rw [segmentsText, String.append_empty]
    exact h
  | cons seg segments ih =>
    rw [VitaGdb.writeSegments, segmentsText]
    split
    · rw [String.append_empty]
      exact h
    · have hrest := ih (h.write ["<segment address=\"0x", lowerHex seg.vaddr.toNat, "\"/>"])
      simpa only [String.join_cons, String.join_nil, String.append_empty, String.append_assoc]
        using hrest

/-- A round adds the text of its module. -/
theorem Shows.writeModule (h : Shows w buf skip (bytesOf doc))
    (info : SceUID → Except SceError ModuleInfo) (modid : SceUID) :
    Shows (writeModule info w modid) buf skip (bytesOf (doc ++ moduleText info modid)) := by
  rw [VitaGdb.writeModule, moduleText]
  split
  · rw [String.append_empty]
    exact h
  · split
    · rw [String.append_empty]
      exact h
    · rename_i info _ _ path _
      have hmodule := ((h.write ["<library name=\"", path, "\">"]).writeSegments info.segments).write
        ["</library>"]
      simpa only [String.join_cons, String.join_nil, String.append_empty, String.append_assoc]
        using hmodule

/-- The loop over the modules adds the text of each. -/
theorem Shows.writeModules (h : Shows w buf skip (bytesOf doc))
    (info : SceUID → Except SceError ModuleInfo) (modids : List SceUID) :
    Shows (modids.foldl (VitaGdb.writeModule info) w) buf skip
      (bytesOf (doc ++ modulesText info modids)) := by
  induction modids generalizing w doc with
  | nil =>
    rw [modulesText, String.append_empty]
    exact h
  | cons modid modids ih =>
    rw [modulesText, ← String.append_assoc]
    exact ih (h.writeModule info modid)

end StreamWriter

/-- The answer is the requested part of the document: its number of bytes, and the buffer that
    starts with it. -/
def WindowRead (answer : Outcome TargetError (Nat × List U8)) (doc : List U8) (offset length : Nat)
    (buf : List U8) : Prop :=
  answer = .ok ((window doc offset (min length buf.length)).length,
    window doc offset (min length buf.length) ++
      buf.drop (window doc offset (min length buf.length)).length)

variable {t : VitaTarget} {pool : SessionPool} {m : ModuleQueries}

/-- **`get_libraries` fills the buffer** with a window of the document. -/
theorem getLibraries_eq {pid : SceUID} {modids : List SceUID} (hpid : t.getPid pool = some pid)
    (hids : m.ids pid = .ok modids) (offset : U64) (length : Nat) (buf : List U8) :
    t.getLibraries pool m offset length buf =
      let doc := bytesOf (librariesText (m.info pid) modids)
      let shown := window doc (offset.setWidth 32).toNat buf.length
      .ok (shown.length, shown ++ buf.drop shown.length) := by
  have hstart := StreamWriter.shows_new buf (offset.setWidth 32).toNat
  rw [← bytesOf_empty] at hstart
  have hlist := hstart.write_single "<library-list version=\"1.0\">"
  rw [String.empty_append] at hlist
  unfold VitaTarget.getLibraries librariesText
  simp only [hpid, hids]
  exact congrArg Outcome.ok
    ((hlist.writeModules (m.info pid) modids).write_single "</library-list>").answer

/-- `get_exec_file` copies out of the whole array. -/
theorem getExecFile_eq {reqPid : Option SceUID} {pid modid : SceUID} {info : ModuleInfo}
    (hpid : reqPid.or (t.getPid pool) = some pid) (hmod : m.idByPid pid = .ok modid)
    (hinfo : m.info pid modid = .ok info) (offset : U64) (length : Nat) (buf : List U8) :
    t.getExecFile pool m reqPid offset length buf =
      let shown := window info.path (offset.setWidth 32).toNat (min length buf.length)
      .ok (shown.length, shown ++ buf.drop shown.length) := by
  rw [VitaTarget.getExecFile, hpid]
  dsimp only
  rw [hmod]
  dsimp only
  rw [hinfo]
  dsimp only
  split
  · rename_i hnone
    have hempty := window_eq_nil_iff.mpr (hnone.symm : min length buf.length = 0 ∨ _)
    rw [hempty]
    rfl
  · have htake : (info.path.drop (offset.setWidth 32).toNat).take
        (min (info.path.length - (offset.setWidth 32).toNat) (min length buf.length)) =
        window info.path (offset.setWidth 32).toNat (min length buf.length) := by
      rw [window, ← List.length_drop, Nat.min_comm, ← List.take_take, List.take_length]
    rw [htake, length_window, Nat.min_comm]

/-- An answer with a longer window is another answer. -/
theorem windowRead_iff {doc shown buf : List U8} {offset length : Nat} :
    WindowRead (.ok (shown.length, shown ++ buf.drop shown.length)) doc offset length buf ↔
      shown = window doc offset (min length buf.length) := by
  rw [WindowRead, Outcome.ok.injEq, Prod.mk.injEq]
  constructor
  · rintro ⟨hlength, hbytes⟩
    rw [hlength] at hbytes
    exact List.append_cancel_right hbytes
  · intro h
    rw [← h]
    exact ⟨rfl, rfl⟩

/-- The path is a part of its array, and a zero comes behind it. -/
theorem cStr_append (info : ModuleInfo) :
    ∃ rest, info.path = cStr info.path ++ 0#8 :: rest := by
  have hsplit := List.takeWhile_append_dropWhile (p := (· ≠ 0#8)) (l := info.path)
  cases hdrop : info.path.dropWhile (· ≠ 0#8) with
  | nil =>
    rw [List.dropWhile_eq_nil_iff] at hdrop
    exact absurd (hdrop _ info.terminated) (by simp)
  | cons byte rest =>
    have hbyte := List.head_dropWhile_not (p := (· ≠ 0#8)) (w := by rw [hdrop]; simp)
    simp only [hdrop, List.head_cons] at hbyte
    rw [hdrop] at hsplit
    exact ⟨rest, by rw [cStr]; simpa [by simpa using hbyte] using hsplit.symm⟩

/-- **Chunked reads** get the part that was asked for exactly where: for the library list, the
    buffer is no longer than the request, or the document ends within it; for the path, the
    request is empty, begins behind the array, or ends within the path. -/
theorem objectReads_iff (t : VitaTarget) (pool : SessionPool) (m : ModuleQueries) (offset : U64)
    (length : Nat) (buf : List U8) (hoffset : offset.toNat < 2 ^ 32) :
    (∀ pid modids, t.getPid pool = some pid → m.ids pid = .ok modids →
      let doc := bytesOf (librariesText (m.info pid) modids)
      (WindowRead (t.getLibraries pool m offset length buf) doc offset.toNat length buf ↔
        buf.length ≤ length ∨ doc.length ≤ offset.toNat + length)) ∧
    ∀ reqPid pid modid info, reqPid.or (t.getPid pool) = some pid → m.idByPid pid = .ok modid →
      m.info pid modid = .ok info →
      (WindowRead (t.getExecFile pool m reqPid offset length buf) (cStr info.path) offset.toNat length
          buf ↔
        min length buf.length = 0 ∨ info.path.length ≤ offset.toNat ∨
          offset.toNat + min length buf.length ≤ (cStr info.path).length) := by
  have husize : (offset.setWidth 32).toNat = offset.toNat := by
    rw [BitVec.toNat_setWidth, Nat.mod_eq_of_lt hoffset]
  constructor
  · intro pid modids hpid hids
    dsimp only
    rw [getLibraries_eq hpid hids, husize]
    dsimp only
    rw [windowRead_iff]
    generalize bytesOf (librariesText (m.info pid) modids) = doc
    rw [window_eq_iff]
    omega
  · intro reqPid pid modid info hpid hmod hinfo
    obtain ⟨rest, hpath⟩ := cStr_append info
    have hlen := congrArg List.length hpath
    rw [List.length_append, List.length_cons] at hlen
    rw [getExecFile_eq hpid hmod hinfo, husize]
    dsimp only
    rw [windowRead_iff]
    generalize cStr info.path = path at *
    rw [hpath, window_append_eq_iff, List.length_append, List.length_cons]
    omega

/-- A module without segments, whose path is one byte in an array of two. -/
def shortPath : ModuleInfo where
  path := [0x61#8, 0#8]
  segments := []
  terminated := by decide

/-- A process with that module. -/
def oneModule : ModuleQueries where
  ids _ := .ok [5#32]
  info _ _ := .ok shortPath
  idByPid _ := .ok 5#32

/-- A pool whose first slot is process 7's. -/
def attachedPool : SessionPool := fun _ => { GdbSessionInner.uninit with pid := 7#32 }

/-- Two bytes of at most four, of the library list and of the path. -/
theorem objectReads_two :
    WindowRead (withSession.getLibraries attachedPool oneModule 0#64 4 [0#8, 0#8])
      (bytesOf (librariesText (oneModule.info 7#32) [5#32])) 0 4 [0#8, 0#8] :=
  ((objectReads_iff withSession attachedPool oneModule 0#64 4 [0#8, 0#8] (by decide)).1 7#32 [5#32]
    rfl rfl).mpr (.inl (by decide))

/-- **More than was asked for**: a list written into a longer buffer, and a path with its padding.
    -/
theorem objectReads_tooLong :
    (¬ ∀ (t : VitaTarget) (pool : SessionPool) (m : ModuleQueries) (offset : U64) (length : Nat)
      (buf : List U8) (pid : SceUID) (modids : List SceUID), offset.toNat < 2 ^ 32 →
      t.getPid pool = some pid → m.ids pid = .ok modids →
      WindowRead (t.getLibraries pool m offset length buf)
        (bytesOf (librariesText (m.info pid) modids)) offset.toNat length buf) ∧
    ¬ ∀ (t : VitaTarget) (pool : SessionPool) (m : ModuleQueries) (offset : U64) (length : Nat)
      (buf : List U8) (reqPid : Option SceUID) (pid modid : SceUID) (info : ModuleInfo),
      offset.toNat < 2 ^ 32 → reqPid.or (t.getPid pool) = some pid → m.idByPid pid = .ok modid →
      m.info pid modid = .ok info →
      WindowRead (t.getExecFile pool m reqPid offset length buf) (cStr info.path) offset.toNat length
        buf := by
  constructor
  · intro hclaim
    have hread := hclaim withSession attachedPool oneModule 0#64 1 [0#8, 0#8] 7#32 [5#32] (by decide)
      rfl rfl
    have hpid : withSession.getPid attachedPool = some 7#32 := rfl
    have hids : oneModule.ids 7#32 = .ok [5#32] := rfl
    rw [getLibraries_eq hpid hids] at hread
    dsimp only at hread
    rw [windowRead_iff, BitVec.toNat_setWidth, BitVec.toNat_ofNat, Nat.zero_mod, window_eq_iff]
      at hread
    have hlong : 2 ≤ (bytesOf (librariesText (oneModule.info 7#32) [5#32])).length := by
      have hend : (bytesOf "</library-list>").length = 15 := by decide +kernel
      unfold librariesText
      rw [bytesOf_append, List.length_append, hend]
      omega
    simp only [List.length_cons, List.length_nil] at hread
    omega
  · intro hclaim
    have hread := hclaim withSession attachedPool oneModule 0#64 2 [0#8, 0#8] none 7#32 5#32 shortPath
      (by decide) rfl rfl rfl
    rw [WindowRead] at hread
    exact absurd hread (by decide)

end VitaGdb
