/-
  `gdb/target.rs`: the library list, read back.

  `get_libraries` writes an XML document by hand: a path goes into an attribute as it is, and the
  loop over a module's segments ends with the first one that is empty.  `readLibraries` is a
  reader of that document, and `libraryList_readBack_iff` says for which modules it gets back what
  the kernel has answered: the paths have to be plain, and no empty segment may come before
  another one.
-/
import VitaGdb.Gdb.ObjectReads
import VitaGdb.Lib.Xml

namespace VitaGdb

open Windows
open Xml (Node Frame Plain within oneAttr)

/-! ## A reader of the list -/

/-- A library: its path, and the addresses of its segments. -/
structure Library where
  name : String
  segments : List Nat
  deriving DecidableEq

/-- A number with its base. -/
def readAddress : List Char → Option Nat
  | '0' :: 'x' :: cs => Xml.number 16 cs
  | _ => none

/-- The addresses of the segments among the children of a library. -/
def readSegments : List Node → Option (List Nat)
  | [] => some []
  | .element name attrs _ :: nodes =>
    if name = "segment".toList then
      match (attrs.lookup "address".toList).bind readAddress with
      | none => none
      | some addr => (readSegments nodes).map (addr :: ·)
    else readSegments nodes
  | .text _ :: nodes => readSegments nodes

/-- The libraries among the children of the list. -/
def readNodes : List Node → Option (List Library)
  | [] => some []
  | .element name attrs children :: nodes =>
    if name = "library".toList then
      match attrs.lookup "name".toList, readSegments children with
      | some path, some segments =>
        (readNodes nodes).map (⟨String.ofList path, segments⟩ :: ·)
      | _, _ => none
    else readNodes nodes
  | .text _ :: nodes => readNodes nodes

/-- The libraries of a document, where it is well formed. -/
def readLibraries (doc : List U8) : Option (List Library) :=
  match (toStr doc).bind fun text => Xml.parse text.toList with
  | some (.element name _ children) =>
    if name = "library-list".toList then readNodes children else none
  | _ => none

/-- What the list should say of a module. -/
def libraryOf (info : SceUID → Except SceError ModuleInfo) (modid : SceUID) : Option Library :=
  match info modid with
  | .error _ => none
  | .ok info =>
    (toStr (cStr info.path)).map fun path =>
      ⟨path, (info.segments.filter (·.size ≠ 0#32)).map (·.vaddr.toNat)⟩

/-- Behind an empty segment there are empty ones only. -/
def EmptyLast (segments : List SegmentInfo) : Prop :=
  segments.Pairwise fun seg later => seg.size = 0#32 → later.size = 0#32

/-- A module that the list can describe: its path is plain, and its empty segments come last. -/
def Describable (info : SceUID → Except SceError ModuleInfo) (modid : SceUID) : Prop :=
  ∀ m path, info modid = .ok m → toStr (cStr m.path) = some path →
    (∀ c ∈ path.toList, Plain c) ∧ EmptyLast m.segments

/-! ## Segments -/

/-- The segments that are written. -/
def writtenSegments (segments : List SegmentInfo) : List SegmentInfo :=
  segments.takeWhile (·.size ≠ 0#32)

theorem writtenSegments_eq_iff (segments : List SegmentInfo) :
    (writtenSegments segments).map (·.vaddr.toNat) =
        (segments.filter (·.size ≠ 0#32)).map (·.vaddr.toNat) ↔ EmptyLast segments := by
  induction segments with
  | nil => exact iff_of_true rfl List.Pairwise.nil
  | cons seg segments ih =>
    rw [writtenSegments] at ih ⊢
    rw [EmptyLast, List.pairwise_cons]
    by_cases hsize : seg.size = 0#32
    · -- nothing is written, so nothing may be left
      rw [List.takeWhile_cons_of_neg (by simpa using hsize),
        List.filter_cons_of_neg (by simpa using hsize), List.map_nil, eq_comm, List.map_eq_nil_iff,
        List.filter_eq_nil_iff]
      constructor
      · intro h
        have hempty : ∀ seg ∈ segments, seg.size = 0#32 := fun seg hseg => by simpa using h seg hseg
        exact ⟨fun later hlater _ => hempty later hlater,
          List.pairwise_of_forall_mem_list fun _ _ later hlater _ => hempty later hlater⟩
      · intro h seg hseg
        simpa using h.1 seg hseg hsize
    · rw [List.takeWhile_cons_of_pos (by simpa using hsize),
        List.filter_cons_of_pos (by simpa using hsize), List.map_cons, List.map_cons,
        List.cons.injEq, and_iff_right rfl, ih]
      exact (and_iff_right fun _ _ h => absurd h hsize).symm

/-- The element of a segment. -/
def segmentNode (seg : SegmentInfo) : Node :=
  .element "segment".toList
    [("address".toList, '0' :: 'x' :: Nat.toDigits 16 seg.vaddr.toNat)] []

/-- Every segment's address is read back. -/
theorem readSegments_map (segments : List SegmentInfo) :
    readSegments (segments.map segmentNode) = some (segments.map (·.vaddr.toNat)) := by
  induction segments with
  | nil => rfl
  | cons seg segments ih =>
    have haddr : ([("address".toList, '0' :: 'x' :: Nat.toDigits 16 seg.vaddr.toNat)].lookup
        "address".toList).bind readAddress = some seg.vaddr.toNat := by
      rw [List.lookup_cons_self]
      exact Xml.number_toDigits _
    rw [List.map_cons, segmentNode, readSegments, if_pos rfl, haddr, ih]
    rfl

variable {frame root : Frame} {stack : List Frame} {rest : List Char}

theorem toList_segment (seg : SegmentInfo) :
    ("<segment address=\"0x" ++ lowerHex seg.vaddr.toNat ++ "\"/>").toList =
      oneAttr "segment".toList "address".toList ('0' :: 'x' :: Nat.toDigits 16 seg.vaddr.toNat) ++
        ['/', '>'] := by
  have hopen : "<segment address=\"0x".toList =
      '<' :: ("segment".toList ++ ' ' :: ("address".toList ++ ['=', '"', '0', 'x'])) := by decide
  rw [String.toList_append, String.toList_append, hopen, lowerHex, String.toList_ofList, oneAttr]
  simp

/-- The written segments are children of the element that is open. -/
theorem within_segments (segments : List SegmentInfo) :
    within (frame :: stack) ((segmentsText segments).toList ++ rest) =
      within ({ frame with children :=
        frame.children ++ (writtenSegments segments).map segmentNode } :: stack) rest := by
  induction segments generalizing frame with
  | nil =>
    rw [segmentsText, writtenSegments, List.takeWhile_nil, List.map_nil, List.append_nil]
    rfl
  | cons seg segments ih =>
    rw [segmentsText, writtenSegments]
    by_cases hsize : seg.size = 0#32
    · rw [if_pos hsize, List.takeWhile_cons_of_neg (by simpa using hsize), List.map_nil,
        List.append_nil]
      rfl
    · have hplain : ∀ c ∈ '0' :: 'x' :: Nat.toDigits 16 seg.vaddr.toNat, Plain c := by
        intro c hc
        rw [List.mem_cons, List.mem_cons] at hc
        rcases hc with rfl | rfl | hc
        · decide
        · decide
        · exact Xml.plain_toDigits _ c hc
      have hread : within (frame :: stack) (oneAttr "segment".toList "address".toList
          ('0' :: 'x' :: Nat.toDigits 16 seg.vaddr.toNat) ++
            '/' :: '>' :: ((segmentsText segments).toList ++ rest)) =
          within (frame.add (segmentNode seg) :: stack) ((segmentsText segments).toList ++ rest) :=
        Xml.within_empty (by decide) (by decide) hplain
      rw [if_neg hsize, String.toList_append, toList_segment, List.append_assoc, List.append_assoc,
        List.cons_append, List.singleton_append]
      rw [hread, ih, List.takeWhile_cons_of_pos (by simpa using hsize), List.map_cons]
      rw [Frame.add, List.append_assoc]
      rfl

/-! ## Modules -/

/-- What is written of a module. -/
theorem toList_module {info : SceUID → Except SceError ModuleInfo} {modid : SceUID} {m : ModuleInfo}
    {path : String} (hinfo : info modid = .ok m) (hpath : toStr (cStr m.path) = some path) :
    (moduleText info modid).toList ++ rest =
      oneAttr "library".toList "name".toList path.toList ++ '>' ::
        ((segmentsText m.segments).toList ++ ('<' :: '/' :: ("library".toList ++ '>' :: rest))) := by
  have hopen : "<library name=\"".toList =
      '<' :: ("library".toList ++ ' ' :: ("name".toList ++ ['=', '"'])) := by decide
  have hend : "\">".toList = ['"', '>'] := by decide
  have hclose : "</library>".toList = '<' :: '/' :: ("library".toList ++ ['>']) := by decide
  unfold moduleText
  rw [hinfo]
  dsimp only
  rw [hpath]
  dsimp only
  rw [String.toList_append, String.toList_append, String.toList_append, String.toList_append, hopen,
    hend, hclose, oneAttr]
  simp

/-- The element of a module. -/
def moduleNode (path : String) (segments : List SegmentInfo) : Node :=
  .element "library".toList [("name".toList, path.toList)]
    ((writtenSegments segments).map segmentNode)

/-- A module with a plain path is a child of the list. -/
theorem within_module {info : SceUID → Except SceError ModuleInfo} {modid : SceUID} {m : ModuleInfo}
    {path : String} (hinfo : info modid = .ok m) (hpath : toStr (cStr m.path) = some path)
    (hplain : ∀ c ∈ path.toList, Plain c) :
    within [root] ((moduleText info modid).toList ++ rest) =
      within [root.add (moduleNode path m.segments)] rest := by
  rw [toList_module hinfo hpath, Xml.within_start (by decide) (by decide) hplain, within_segments]
  exact Xml.within_close (show Xml.isName "library".toList = true by decide)

/-- A library is read with the first attribute of that name. -/
theorem readNodes_library (path : List Char) (more : List (List Char × List Char))
    (children nodes : List Node) :
    readNodes (.element "library".toList (("name".toList, path) :: more) children :: nodes) =
      (readSegments children).bind fun segments =>
        (readNodes nodes).map (⟨String.ofList path, segments⟩ :: ·) := by
  rw [readNodes, if_pos rfl, List.lookup_cons_self]
  cases readSegments children <;> rfl

/-- The node of a module is read back as what is written of it. -/
theorem readNodes_module (path : String) (segments : List SegmentInfo) (nodes : List Node) :
    readNodes (moduleNode path segments :: nodes) = (readNodes nodes).map
      (⟨path, (writtenSegments segments).map (·.vaddr.toNat)⟩ :: ·) := by
  rw [moduleNode, readNodes_library, readSegments_map, Option.bind_some, String.ofList_toList]

/-! ## The whole list -/

/-- What the rest of the document, behind the first `modids`, adds to the list. -/
def ReadsAs (root : Frame) (text : List Char) (libraries : List Library) : Prop :=
  ∃ nodes, within [root] text = some (.element root.name root.attrs (root.children ++ nodes)) ∧
    readNodes nodes = some libraries

/-- A child whose name is read back from a text is read back as it is only where the text is
    plain. -/
theorem ReadsAs.plain {path : List Char} {lib : Library} {libraries : List Library}
    (h : ReadsAs root (oneAttr "library".toList "name".toList path ++ rest) (lib :: libraries))
    (hname : lib.name.toList = path) : ∀ c ∈ path, Plain c := by
  obtain ⟨nodes, hwithin, hread⟩ := h
  obtain ⟨value, r, hvalue, more, inner, nodes', hnode⟩ :=
    Xml.within_value (by decide) (by decide) hwithin
  obtain rfl : nodes = .element "library".toList (("name".toList, value) :: more) inner :: nodes' :=
    List.append_cancel_left (Node.element.inj hnode).2.2
  rw [readNodes_library] at hread
  obtain ⟨segments, -, hmap⟩ := Option.bind_eq_some_iff.mp hread
  obtain ⟨libraries', -, heq⟩ := Option.map_eq_some_iff.mp hmap
  have hvalue' : value = path := by
    rw [← hname, ← (List.cons.inj heq).1, String.toList_ofList]
  rw [hvalue'] at hvalue
  exact Xml.plain_of_attValue hvalue

/-- A module with a plain path is read back as what is written of it. -/
theorem readsAs_module {info : SceUID → Except SceError ModuleInfo} {modid : SceUID} {m : ModuleInfo}
    {path : String} (hinfo : info modid = .ok m) (hpath : toStr (cStr m.path) = some path)
    (hplain : ∀ c ∈ path.toList, Plain c) (lib : Library) (libraries : List Library) :
    ReadsAs root ((moduleText info modid).toList ++ rest) (lib :: libraries) ↔
      lib = ⟨path, (writtenSegments m.segments).map (·.vaddr.toNat)⟩ ∧
        ReadsAs (root.add (moduleNode path m.segments)) rest libraries := by
  rw [ReadsAs, within_module hinfo hpath hplain]
  constructor
  · rintro ⟨nodes, hwithin, hread⟩
    obtain ⟨nodes', hnode⟩ := Xml.within_root hwithin
    obtain rfl : nodes = moduleNode path m.segments :: nodes' := by
      have hnodes := (Node.element.inj hnode).2.2
      rw [Frame.add, List.append_assoc] at hnodes
      exact List.append_cancel_left hnodes
    rw [readNodes_module] at hread
    obtain ⟨libraries', hread', heq⟩ := Option.map_eq_some_iff.mp hread
    obtain ⟨rfl, rfl⟩ := List.cons.inj heq
    exact ⟨rfl, nodes', hwithin.trans (congrArg some hnode), hread'⟩
  · rintro ⟨rfl, nodes, hwithin, hread⟩
    refine ⟨moduleNode path m.segments :: nodes, ?_, ?_⟩
    · rw [hwithin, Frame.add, List.append_assoc]
      rfl
    · rw [readNodes_module, hread]
      rfl

/-- A module that is left out, or its path. -/
theorem module_cases (info : SceUID → Except SceError ModuleInfo) (modid : SceUID) :
    (moduleText info modid = "" ∧ libraryOf info modid = none ∧ Describable info modid) ∨
      ∃ m path, info modid = .ok m ∧ toStr (cStr m.path) = some path := by
  rw [moduleText, libraryOf]
  cases hinfo : info modid with
  | error err => exact .inl ⟨rfl, rfl, fun m path h => absurd (hinfo.symm.trans h) (by simp)⟩
  | ok m =>
    cases hpath : toStr (cStr m.path) with
    | none =>
      refine .inl ⟨?_, ?_, ?_⟩
      · dsimp only
        rw [hpath]
      · dsimp only
        rw [hpath]
        rfl
      · intro m' path h hpath'
        obtain rfl := Except.ok.inj (hinfo.symm.trans h)
        exact absurd (hpath.symm.trans hpath') (by simp)
    | some path => exact .inr ⟨m, path, rfl, hpath⟩

/-- The rest of the list is read back exactly where its modules can be described. -/
theorem readsAs_modules (info : SceUID → Except SceError ModuleInfo) (modids : List SceUID)
    (root : Frame) (hroot : root.name = "library-list".toList) :
    ReadsAs root ((modulesText info modids).toList ++ "</library-list>".toList)
      (modids.filterMap (libraryOf info)) ↔ ∀ modid ∈ modids, Describable info modid := by
  induction modids generalizing root with
  | nil =>
    refine iff_of_true ⟨[], ?_, rfl⟩ fun _ h => absurd h List.not_mem_nil
    have hclose : "</library-list>".toList = '<' :: '/' :: (root.name ++ ['>']) := by
      rw [hroot]
      decide
    have hname : Xml.isName root.name = true := by
      rw [hroot]
      decide
    rw [modulesText, String.toList_empty, List.nil_append, hclose, Xml.within_close_root hname,
      List.append_nil]
    rfl
  | cons modid modids ih =>
    rw [List.forall_mem_cons, modulesText, String.toList_append, List.append_assoc]
    rcases module_cases info modid with ⟨htext, hlib, hdesc⟩ | ⟨m, path, hinfo, hpath⟩
    · rw [htext, String.toList_empty, List.nil_append, List.filterMap_cons_none hlib, ih root hroot]
      exact (and_iff_right hdesc).symm
    · have hlib : libraryOf info modid =
          some ⟨path, (m.segments.filter (·.size ≠ 0#32)).map (·.vaddr.toNat)⟩ := by
        rw [libraryOf, hinfo]
        dsimp only
        rw [hpath]
        rfl
      rw [List.filterMap_cons_some hlib]
      by_cases hplain : ∀ c ∈ path.toList, Plain c
      · have hdesc : Describable info modid ↔ EmptyLast m.segments := by
          constructor
          · intro h
            exact (h m path hinfo hpath).2
          · intro h m' path' hinfo' hpath'
            obtain rfl := Except.ok.inj (hinfo.symm.trans hinfo')
            obtain rfl := Option.some.inj (hpath.symm.trans hpath')
            exact ⟨hplain, h⟩
        rw [readsAs_module hinfo hpath hplain, hdesc, ← writtenSegments_eq_iff,
          ih (root.add (moduleNode path m.segments)) hroot, Library.mk.injEq, and_iff_right rfl,
          eq_comm]
      · -- the path is not read back, whatever its module's text has become
        refine iff_of_false (fun h => hplain ?_) fun h => hplain (h.1 m path hinfo hpath).1
        rw [toList_module hinfo hpath] at h
        exact h.plain rfl

/-- The list, before its first library. -/
def openList : Frame := ⟨"library-list".toList, [("version".toList, "1.0".toList)], []⟩

theorem parse_libraries (info : SceUID → Except SceError ModuleInfo) (modids : List SceUID) :
    Xml.parse (librariesText info modids).toList =
      within [openList] ((modulesText info modids).toList ++ "</library-list>".toList) := by
  have hopen : "<library-list version=\"1.0\">".toList =
      oneAttr "library-list".toList "version".toList "1.0".toList ++ ['>'] := rfl
  have hplain : ∀ c ∈ "1.0".toList, Plain c := by simp [Plain, Xml.isChar]
  unfold librariesText
  rw [String.toList_append, String.toList_append, hopen, List.append_assoc, List.append_assoc,
    List.singleton_append, Xml.parse, Xml.within_start (by decide) (by decide) hplain]
  rfl

/-- The document is read back exactly where its modules can be described. -/
theorem readLibraries_iff (info : SceUID → Except SceError ModuleInfo) (modids : List SceUID) :
    readLibraries (bytesOf (librariesText info modids)) = some (modids.filterMap (libraryOf info)) ↔
      ∀ modid ∈ modids, Describable info modid := by
  rw [← readsAs_modules info modids openList rfl, readLibraries, toStr_bytesOf, Option.bind_some,
    parse_libraries, ReadsAs]
  constructor
  · intro h
    cases hwithin : within [openList]
        ((modulesText info modids).toList ++ "</library-list>".toList) with
    | none =>
      rw [hwithin] at h
      exact absurd h (by simp)
    | some node =>
      obtain ⟨nodes, rfl⟩ := Xml.within_root hwithin
      rw [hwithin] at h
      dsimp only at h
      exact ⟨nodes, rfl, h⟩
  · rintro ⟨nodes, hwithin, hread⟩
    rw [hwithin]
    exact hread

/-- **The list reads back**, as the modules the kernel has answered, exactly where each of them
    has a plain path and its empty segments last.  The document is what all chunks are windows of.
    -/
theorem libraryList_readBack_iff {t : VitaTarget} {pool : SessionPool} {m : ModuleQueries}
    {pid : SceUID} {modids : List SceUID} (hpid : t.getPid pool = some pid)
    (hids : m.ids pid = .ok modids) :
    ∃ doc, (∀ offset length buf, t.getLibraries pool m offset length buf =
        .ok ((window doc (offset.setWidth 32).toNat buf.length).length,
          window doc (offset.setWidth 32).toNat buf.length ++
            buf.drop (window doc (offset.setWidth 32).toNat buf.length).length)) ∧
      (readLibraries doc = some (modids.filterMap (libraryOf (m.info pid))) ↔
        ∀ modid ∈ modids, Describable (m.info pid) modid) :=
  ⟨bytesOf (librariesText (m.info pid) modids), getLibraries_eq hpid hids,
    readLibraries_iff (m.info pid) modids⟩

/-- The list of `oneModule`. -/
theorem libraryList_readBack_one :
    ∃ doc, (∀ offset length buf, withSession.getLibraries attachedPool oneModule offset length buf =
        .ok ((window doc (offset.setWidth 32).toNat buf.length).length,
          window doc (offset.setWidth 32).toNat buf.length ++
            buf.drop (window doc (offset.setWidth 32).toNat buf.length).length)) ∧
      (readLibraries doc = some ([5#32].filterMap (libraryOf (oneModule.info 7#32))) ↔
        ∀ modid ∈ [5#32], Describable (oneModule.info 7#32) modid) :=
  libraryList_readBack_iff rfl rfl

/-- A module whose path is an ampersand. -/
def ampersand : ModuleInfo where
  path := [0x26#8, 0#8]
  segments := []
  terminated := by decide

/-- A module that has a segment behind an empty one. -/
def emptyFirst : ModuleInfo where
  path := [0x62#8, 0#8]
  segments := [⟨0#32, 0#32⟩, ⟨8#32, 0x8100#32⟩]
  terminated := by decide

/-- **Not every list reads back**: not one with an ampersand in a path, and not one with a segment
    behind an empty one, though its paths are plain. -/
theorem libraryList_lost :
    (¬ ∀ (info : SceUID → Except SceError ModuleInfo) (modids : List SceUID),
      (∀ modid ∈ modids, ∃ m path, info modid = .ok m ∧ toStr (cStr m.path) = some path) →
      readLibraries (bytesOf (librariesText info modids)) =
        some (modids.filterMap (libraryOf info))) ∧
    ¬ ∀ (info : SceUID → Except SceError ModuleInfo) (modids : List SceUID),
      (∀ modid ∈ modids, ∃ m path, info modid = .ok m ∧ toStr (cStr m.path) = some path ∧
        ∀ c ∈ path.toList, Plain c) →
      readLibraries (bytesOf (librariesText info modids)) =
        some (modids.filterMap (libraryOf info)) := by
  have hamp : toStr (cStr ampersand.path) = some "&" := by
    rw [← toStr_bytesOf "&", show bytesOf "&" = cStr ampersand.path by decide +kernel]
  have hb : toStr (cStr emptyFirst.path) = some "b" := by
    rw [← toStr_bytesOf "b", show bytesOf "b" = cStr emptyFirst.path by decide +kernel]
  constructor
  · intro hclaim
    have hread := hclaim (fun _ => .ok ampersand) [5#32] fun _ _ => ⟨ampersand, "&", rfl, hamp⟩
    rw [readLibraries_iff] at hread
    have hplain := (hread 5#32 (List.mem_singleton_self _) ampersand "&" rfl hamp).1 '&' (by decide)
    exact absurd hplain (by decide)
  · intro hclaim
    have hread := hclaim (fun _ => .ok emptyFirst) [5#32] fun _ _ =>
      ⟨emptyFirst, "b", rfl, hb, by simp [Plain, Xml.isChar]⟩
    rw [readLibraries_iff] at hread
    have hlast := (hread 5#32 (List.mem_singleton_self _) emptyFirst "b" rfl hb).2
    exact absurd ((List.pairwise_cons.mp hlast).1 _ (List.mem_singleton_self _) rfl) (by decide)

end VitaGdb
