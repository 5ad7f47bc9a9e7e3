/-
  `gdb/monitor.rs`: what the monitor reads and what it prints.

  A command is a text of words.  Numbers are hexadecimal behind `0x` and decimal without, and a
  process is named by its id or by its title.  The listings and the dump of the session's tables
  only look at the state; `peek` and `poke`, which reach physical memory, are in `Monitor`.

  Spec:
    * a word is taken for a number exactly where it is a numeral of that value, with leading zeros
      and a `+` allowed, and fits 32 bits                          — `parseNum_eq_some_iff`;
    * a process is found by its id, or else it is the first that has the title
                                                                   — `resolvePidOrTitleid_eq_some_iff`;
    * the dump of a session says what its tables hold: a reader gets it back
                                                                   — `cmdDump_readBack`.
-/
import VitaGdb.Gdb.ObjectReads
import VitaGdb.Lib.Numerals

namespace VitaGdb

open Numerals (Numeral)

/-- A text. -/
abbrev Text := List Char

/-! ## Words and numbers -/

/-- `char::is_ascii_whitespace`. -/
def isAsciiWhitespace (c : Char) : Bool :=
  c = ' ' || c = '\t' || c = '\n' || c = '\x0c' || c = '\r'

/-- `split_ascii_whitespace`. -/
def splitAsciiWhitespace (s : Text) : List Text := (s.splitOnP isAsciiWhitespace).filter (· ≠ [])

/-- The last word. -/
theorem splitAsciiWhitespace_word {w : Text} (hw : ∀ c ∈ w, isAsciiWhitespace c = false)
    (hne : w ≠ []) : splitAsciiWhitespace w = [w] := by
  rw [splitAsciiWhitespace, List.splitOnP_eq_singleton hw]
  simp [hne]

/-- A word with a blank behind it. -/
theorem splitAsciiWhitespace_cons {w : Text} (hw : ∀ c ∈ w, isAsciiWhitespace c = false)
    (hne : w ≠ []) (s : Text) :
    splitAsciiWhitespace (w ++ ' ' :: s) = w :: splitAsciiWhitespace s := by
  rw [splitAsciiWhitespace, List.splitOnP_append_cons_of_forall_mem hw ' ' (by decide),
    List.filter_cons_of_pos (by simpa using hne)]
  rfl

/-- `u32::from_str_radix`, and `parse` of a `u32` where the base is ten. -/
def u32FromStr (base : Nat) (s : Text) : Option U32 :=
  (Numerals.fromStr 0 (2 ^ 32 - 1) base s).map (BitVec.ofInt 32)

/-- `parse` of an `i32`. -/
def i32FromStr (s : Text) : Option I32 :=
  (Numerals.fromStr (-2 ^ 31) (2 ^ 31 - 1) 10 s).map (BitVec.ofInt 32)

/-- `parse_num`. -/
def parseNum (s : Text) : Option U32 :=
  match s with
  | '0' :: 'x' :: s => u32FromStr 16 s
  | s => u32FromStr 10 s

/-- A number of 32 bits is read from its numerals. -/
theorem u32FromStr_eq_some_iff {base : Nat} (hbase : 0 < base) (s : Text) (v : U32) :
    u32FromStr base s = some v ↔ Numeral base s false v.toNat := by
  rw [u32FromStr, Option.map_eq_some_iff]
  constructor
  · rintro ⟨i, hi, rfl⟩
    obtain ⟨neg, n, hnumeral, hneg, rfl, hfits⟩ :=
      (Numerals.fromStr_eq_some_iff (by decide) (by decide) hbase s i).mp hi
    cases neg with
    | true => exact absurd (hneg rfl) (by decide)
    | false =>
      have hbound : (n : Int) ≤ 2 ^ 32 - 1 := hfits.2
      have hvalue : (BitVec.ofInt 32 (Numerals.signed false n)).toNat = n := by
        show (BitVec.ofInt 32 (n : Int)).toNat = n
        rw [BitVec.ofInt_natCast, BitVec.toNat_ofNat]
        omega
      rwa [hvalue]
  · intro hnumeral
    have hlt : v.toNat < 2 ^ 32 := v.isLt
    refine ⟨v.toNat, (Numerals.fromStr_eq_some_iff (by decide) (by decide) hbase s _).mpr
      ⟨false, v.toNat, hnumeral, by simp, rfl, ?_⟩, ?_⟩
    · show (0 : Int) ≤ v.toNat ∧ (v.toNat : Int) ≤ 2 ^ 32 - 1
      omega
    · rw [BitVec.ofInt_natCast, BitVec.ofNat_toNat, BitVec.setWidth_eq]

/-- `0x` begins no decimal numeral. -/
theorem numeral_ten_hex {s : Text} {neg : Bool} {n : Nat} :
    ¬ Numeral 10 ('0' :: 'x' :: s) neg n := by
  intro h
  cases h with
  | plain hne hn => exact absurd hn (by simp [Numerals.number, Numerals.toDigit])

/-- **The numbers of the monitor**: what `parse_num` reads is a hexadecimal numeral behind `0x`, or a
    decimal one, of a value that fits 32 bits; everything else it refuses. -/
theorem parseNum_eq_some_iff (s : Text) (v : U32) :
    parseNum s = some v ↔
      (∃ t, s = '0' :: 'x' :: t ∧ Numeral 16 t false v.toNat) ∨ Numeral 10 s false v.toNat := by
  unfold parseNum
  split
  · next t =>
    rw [u32FromStr_eq_some_iff (by decide)]
    constructor
    · exact fun h => .inl ⟨t, rfl, h⟩
    · rintro (⟨t', heq, h⟩ | h)
      · obtain rfl : t = t' := by simpa using heq
        exact h
      · exact absurd h numeral_ten_hex
  · next hplain =>
    rw [u32FromStr_eq_some_iff (by decide)]
    constructor
    · exact .inr
    · rintro (⟨t, heq, -⟩ | h)
      · exact absurd heq (hplain t)
      · exact h

/-- A number's digits are a numeral of it. -/
theorem numeral_toDigits {base : Nat} (hone : 1 < base) (hbase : base ≤ 16) (n : Nat) :
    Numeral base (Nat.toDigits base n) false n :=
  .plain Nat.toDigits_ne_nil (Numerals.number_toDigits hone hbase n)

/-- A number that is printed with `0x{:x}` is read back. -/
theorem parseNum_hex (v : U32) : parseNum ('0' :: 'x' :: Nat.toDigits 16 v.toNat) = some v :=
  (parseNum_eq_some_iff _ v).mpr (.inl ⟨_, rfl, numeral_toDigits (by decide) (by decide) _⟩)

/-- So is one that is printed with `{}`. -/
theorem parseNum_decimal (v : U32) : parseNum (Nat.toDigits 10 v.toNat) = some v :=
  (parseNum_eq_some_iff _ v).mpr (.inr (numeral_toDigits (by decide) (by decide) _))

/-! ## Processes -/

/-- `TitleId`: the bytes of its array. -/
structure TitleId where
  bytes : List U8
  length_eq : bytes.length = 16
  deriving DecidableEq

namespace TitleId

/-- `From<&CStr>`: the first sixteen bytes. -/
def ofCStr (value : List U8) : TitleId where
  bytes := (value ++ List.replicate 16 0#8).take 16
  length_eq := by simp

/-- `as_str`. -/
def asStr (t : TitleId) : Text := ((toStr (cStr t.bytes)).getD "").toList

end TitleId

/-- `SceKernelThreadInfo`, as far as it is printed; the name is text. -/
structure ThreadInfo where
  name : Text
  initPriority : I32
  status : U32

/-- `SceKernelModuleInfo`, as far as it is printed. -/
structure ModuleLine where
  name : Text
  path : Text
  state : U32

/-- What the kernel answers about processes, threads and modules. -/
structure MonitorQueries where
  /-- `ksceGUIDGetUIDVectorByClass`. -/
  processes : Except SceError (List SceUID)
  /-- `ksceKernelSysrootGetProcessTitleId`. -/
  titleId : SceUID → Except SceError TitleId
  /-- `get_process_status`. -/
  status : SceUID → Except SceError U32
  /-- `get_thread_ids`. -/
  threadIds : SceUID → Outcome SceError (List SceUID)
  /-- `get_thread_info`. -/
  threadInfo : SceUID → Except SceError ThreadInfo
  /-- `get_module_ids`. -/
  moduleIds : SceUID → Except SceError (List SceUID)
  /-- `get_module_info`. -/
  moduleInfo : SceUID → SceUID → Except SceError ModuleLine

namespace MonitorQueries

/-- `get_process_ids`: the buffer has room for sixteen. -/
def getProcessIds (q : MonitorQueries) : Except SceError (List SceUID) :=
  q.processes.map (·.take 16)

/-- `get_process_titleid`. -/
def getProcessTitleid (q : MonitorQueries) (pid : SceUID) : Option TitleId :=
  if pid = 0x10005#32 then some (.ofCStr (bytesOf "kernel")) else (q.titleId pid).toOption

/-- The process has this title. -/
def hasTitle (q : MonitorQueries) (title : Text) (pid : SceUID) : Bool :=
  match q.getProcessTitleid pid with
  | some t => t.asStr = title
  | none => false

end MonitorQueries

/-- `resolve_pid_or_titleid`. -/
def resolvePidOrTitleid (q : MonitorQueries) (target : Text) : Option SceUID :=
  match i32FromStr target with
  | some pid => some pid
  | none =>
    match q.getProcessIds with
    | .error _ => none
    | .ok pids => pids.find? (q.hasTitle target)

/-- A numeral of an `i32`. -/
def IsI32 (s : Text) (pid : SceUID) : Prop := ∃ neg n, Numeral 10 s neg n ∧
  Numerals.signed neg n = pid.toInt

theorem i32FromStr_eq_some_iff (s : Text) (pid : SceUID) : i32FromStr s = some pid ↔ IsI32 s pid := by
  have hread : ∀ i, Numerals.fromStr (-2 ^ 31) (2 ^ 31 - 1) 10 s = some i ↔
      ∃ neg n, Numeral 10 s neg n ∧ (neg = true → (-2 ^ 31 : Int) < 0) ∧
        i = Numerals.signed neg n ∧ Numerals.Fits (-2 ^ 31) (2 ^ 31 - 1) i :=
    Numerals.fromStr_eq_some_iff (by decide) (by decide) (by decide) s
  have hbounds : -2 ^ 31 ≤ pid.toInt ∧ pid.toInt ≤ 2 ^ 31 - 1 := by
    have hlow := BitVec.le_toInt pid
    have hhigh := BitVec.toInt_lt (x := pid)
    omega
  rw [i32FromStr, Option.map_eq_some_iff]
  constructor
  · rintro ⟨i, hi, rfl⟩
    obtain ⟨neg, n, hnumeral, -, rfl, hlow, hhigh⟩ := (hread i).mp hi
    refine ⟨neg, n, hnumeral, ?_⟩
    rw [BitVec.toInt_ofInt, Int.bmod_eq_of_le]
    · omega
    · omega
  · rintro ⟨neg, n, hnumeral, hvalue⟩
    refine ⟨pid.toInt, (hread _).mpr
      ⟨neg, n, hnumeral, fun _ => by decide, hvalue.symm, hbounds⟩, ?_⟩
    exact BitVec.ofInt_toInt

/-- **A process is named by a numeral, or else by its title**: then it is the first of the kernel's
    list that has it.  A title that is a numeral names no process. -/
theorem resolvePidOrTitleid_eq_some_iff (q : MonitorQueries) (target : Text) (pid : SceUID) :
    resolvePidOrTitleid q target = some pid ↔
      IsI32 target pid ∨
      (∀ other, ¬ IsI32 target other) ∧ ∃ pids before behind, q.getProcessIds = .ok pids ∧
        pids = before ++ pid :: behind ∧ q.hasTitle target pid = true ∧
        ∀ other ∈ before, q.hasTitle target other = false := by
  rw [resolvePidOrTitleid]
  cases hread : i32FromStr target with
  | some number =>
    have hnumber := (i32FromStr_eq_some_iff target number).mp hread
    rw [Option.some.injEq]
    constructor
    · rintro rfl
      exact .inl hnumber
    · rintro (hpid | ⟨hnone, -⟩)
      · have hpid := (i32FromStr_eq_some_iff target pid).mpr hpid
        rw [hread, Option.some.injEq] at hpid
        exact hpid
      · exact absurd hnumber (hnone number)
  | none =>
    have hnone : ∀ other, ¬ IsI32 target other := fun other hother => by
      rw [(i32FromStr_eq_some_iff target other).mpr hother] at hread
      exact absurd hread (by simp)
    rw [or_iff_right (hnone pid), and_iff_right hnone]
    dsimp only
    cases q.getProcessIds with
    | error err => simp
    | ok pids =>
      dsimp only
      rw [List.find?_eq_some_iff_append]
      constructor
      · rintro ⟨htitle, before, behind, rfl, hbefore⟩
        exact ⟨_, before, behind, rfl, rfl, htitle, fun other hother => by
          simpa using hbefore other hother⟩
      · rintro ⟨_, before, behind, heq, rfl, htitle, hbefore⟩
        obtain rfl := Except.ok.inj heq
        exact ⟨htitle, before, behind, rfl, fun other hother => by simp [hbefore other hother]⟩

/-! ## What is printed -/

/-- `outputln!`. -/
def outputln (line : Text) : Text := line ++ ['\n']

/-- `{:x}`. -/
def hexText (v : U32) : Text := Nat.toDigits 16 v.toNat

/-- `{}` of a number. -/
def natText (n : Nat) : Text := Nat.toDigits 10 n

/-- `{}` of an `i32`. -/
def intText (n : I32) : Text :=
  if n.toInt < 0 then '-' :: natText n.toInt.natAbs else natText n.toInt.natAbs

/-- `{:<n}`. -/
def padded (n : Nat) (s : Text) : Text := s ++ List.replicate (n - s.length) ' '

/-- `Display` of an error. -/
def errText (err : SceError) : Text :=
  err.func.toList ++ " failed: 0x".toList ++ hexText err.code

/-- What a command answers, and what it prints. -/
abbrev Reply := Outcome SceError Unit × Text

/-- A command that prints one line. -/
def answerLine (line : Text) : Reply := (.ok (), outputln line)

/-- `cmd_help`. -/
def cmdHelp : Reply :=
  (.ok (), outputln "dump                     Dump gdb session internals".toList ++
    outputln "ps                       Print a list of processes".toList ++
    outputln "ls process               Print a list of processes".toList ++
    outputln "ls thread <pid|titleid>  Print a list of threads".toList ++
    outputln "ls module <pid|titleid>  Print a list of modules".toList ++
    outputln "peek <addr> [S]          Peek a physical address".toList ++
    outputln "poke <addr> <value> [S]  Poke a physical address".toList)

/-- The loop of `cmd_ls_process`: it ends at the first process without a status. -/
def lsProcesses (q : MonitorQueries) : List SceUID → Reply
  | [] => (.ok (), [])
  | pid :: pids =>
    let title := match q.getProcessTitleid pid with
      | some titleid => titleid.asStr
      | none => "unknown".toList
    let line := intText pid ++ "  ".toList ++ title
    match q.status pid with
    | .error err => (.err err, line)
    | .ok status =>
      let (res, out) := lsProcesses q pids
      (res, outputln (line ++ "  status 0x".toList ++ hexText status) ++ out)

/-- `cmd_ls_process`. -/
def cmdLsProcess (q : MonitorQueries) : Reply :=
  match q.getProcessIds with
  | .error err => answerLine ("ls process: lookup ".toList ++ errText err)
  | .ok pids => lsProcesses q pids

/-- `pid_arg`. -/
def pidArg (q : MonitorQueries) (attached : Option SceUID) (arg : Option Text) : Option SceUID :=
  match arg with
  | some target => resolvePidOrTitleid q target
  | none => attached

/-- A line of `cmd_ls_thread`. -/
def threadLine (q : MonitorQueries) (tid : SceUID) : Text :=
  match q.threadInfo tid with
  | .error err =>
    outputln ("tid=".toList ++ intText tid ++ "  (get info ".toList ++ errText err ++ [')'])
  | .ok info =>
    outputln ("  ".toList ++ padded 9 (intText tid) ++ " ".toList ++ padded 32 info.name ++
      "prio ".toList ++ intText info.initPriority ++ " status 0x".toList ++ hexText info.status)

/-- `cmd_ls_thread`. -/
def cmdLsThread (q : MonitorQueries) (attached : Option SceUID) (args : List Text) : Reply :=
  match pidArg q attached args.head? with
  | none => (.ok (), outputln "usage: ls thread <pid|titleid>".toList ++
      outputln "ls thread: argument is not a pid or titleid".toList)
  | some pid =>
    match q.threadIds pid with
    | .panic => (.panic, [])
    | .err err =>
      answerLine ("ls thread: pid=".toList ++ intText pid ++ [' '] ++ errText err)
    | .ok tids => (.ok (), tids.flatMap (threadLine q))

/-- A line of `cmd_ls_module`. -/
def moduleLine (q : MonitorQueries) (pid modid : SceUID) : Text :=
  match q.moduleInfo pid modid with
  | .error err =>
    outputln ("modid=".toList ++ intText modid ++ "  (get info ".toList ++ errText err ++ [')'])
  | .ok info =>
    outputln (padded 9 (intText modid) ++ " ".toList ++ padded 32 info.name ++
      " state=0x".toList ++ hexText info.state ++ " path=".toList ++ info.path)

/-- `cmd_ls_module`. -/
def cmdLsModule (q : MonitorQueries) (attached : Option SceUID) (args : List Text) : Reply :=
  match pidArg q attached args.head? with
  | none => (.ok (), outputln "usage: ls module <pid|titleid>".toList ++
      outputln "ls module: argument is not a pid or titleid".toList)
  | some pid =>
    match q.moduleIds pid with
    | .error err =>
      answerLine ("ls module: pid=".toList ++ intText pid ++ [' '] ++ errText err)
    | .ok modids => (.ok (), modids.flatMap (moduleLine q pid))

/-- `cmd_ls`. -/
def cmdLs (q : MonitorQueries) (attached : Option SceUID) (args : List Text) : Reply :=
  match args with
  | [] => answerLine "usage: ls <process|thread|module> [pid]".toList
  | arg :: args =>
    if arg = "process".toList then cmdLsProcess q
    else if arg = "thread".toList then cmdLsThread q attached args
    else if arg = "module".toList then cmdLsModule q attached args
    else answerLine "usage: ls <process|thread|module> [pid]".toList

/-- `cmd_info`. -/
def cmdInfo (q : MonitorQueries) (attached : Option SceUID) (args : List Text) : Reply :=
  match args with
  | [] => answerLine "usage: ls <process|thread> [pid]".toList
  | arg :: args =>
    if arg = "process".toList then cmdLsProcess q
    else if arg = "thread".toList then cmdLsThread q attached args
    else answerLine "usage: ls <process|thread> [pid]".toList

/-- `cmd_lookup_nid`: `lookup_nid` finds nothing yet. -/
def cmdLookupNid (args : List Text) : Reply :=
  match args with
  | [] => answerLine "usage: nid <func_nid>".toList
  | nidStr :: _ =>
    match parseNum nidStr with
    | none => answerLine ("nid: '".toList ++ nidStr ++ "' is not a valid".toList)
    | some _ => answerLine "not found".toList

/-! ## The dump -/

/-- `DumpState`. -/
structure DumpState where
  pid : Option SceUID
  hwBreakpoints : List U32
  hwWatchpoints : List U32
  swBreakpoints : List U32
  deriving DecidableEq

/-- A loop of `dump_state`: the addresses of the occupied slots, in order. -/
def slotAddrs {n : Nat} {α : Type} (addr : α → U32) (t : SlotTable.Table n α) : List U32 :=
  (List.finRange n).filterMap fun i => (t i).map addr

/-- `dump_state`. -/
def GdbSessionInner.dumpState (s : GdbSessionInner) : DumpState where
  pid := s.getPid
  hwBreakpoints := slotAddrs (·.addr) s.hwBreakpoints
  hwWatchpoints := slotAddrs (·.addr) s.hwWatchpoints
  swBreakpoints := slotAddrs (·.addr) s.swBreakpoints

/-- `[i] 0x…`, and so on from this number. -/
def entryLines (i : Nat) : List U32 → List Text
  | [] => []
  | addr :: addrs =>
    ("  [".toList ++ natText i ++ "] 0x".toList ++ hexText addr) :: entryLines (i + 1) addrs

/-- The lines of one table. -/
def tableLines (title slots : Text) (addrs : List U32) : List Text :=
  (title ++ natText addrs.length ++ '/' :: slots) :: entryLines 0 addrs

/-- The lines of the dump. -/
def dumpLines (d : DumpState) : List Text :=
  ("pid  ".toList ++ match d.pid with
    | some pid => intText pid
    | none => "(none)".toList) ::
  (tableLines "hw breakpoints  ".toList ['6'] d.hwBreakpoints ++
    tableLines "hw watchpoints  ".toList ['3'] d.hwWatchpoints ++
    tableLines "sw breakpoints  ".toList ['1', '6'] d.swBreakpoints)

/-- `cmd_dump`. -/
def cmdDump (t : VitaTarget) (pool : SessionPool) : Reply :=
  match t.session with
  | none => answerLine "no session".toList
  | some i => (.ok (), (dumpLines (pool i).dumpState).flatMap outputln)

/-! ## A reader of the dump -/

/-- The lines of a text each of which has an end. -/
def textLines (s : Text) : List Text := (s.splitOn '\n').dropLast

/-- What stands behind a text. -/
def textBehind : Text → Text → Option Text
  | [], s => some s
  | _ :: _, [] => none
  | c :: cs, d :: s => if c = d then textBehind cs s else none

/-- A number of digits. -/
def readNumber (base : Nat) (s : Text) : Option Nat :=
  if s = [] then none else Numerals.number base 0 s

/-- So many entries, from this number on. -/
def readEntries : Nat → Nat → List Text → Option (List U32 × List Text)
  | _, 0, lines => some ([], lines)
  | _, _ + 1, [] => none
  | i, n + 1, line :: lines =>
    match (textBehind ("  [".toList ++ natText i ++ "] 0x".toList) line).bind (readNumber 16) with
    | none => none
    | some addr =>
      (readEntries (i + 1) n lines).map fun (addrs, rest) => (BitVec.ofNat 32 addr :: addrs, rest)

/-- One table. -/
def readTable (title : Text) : List Text → Option (List U32 × List Text)
  | [] => none
  | line :: lines =>
    match (textBehind title line).bind fun s => readNumber 10 (s.takeWhile (· ≠ '/')) with
    | none => none
    | some n => readEntries 0 n lines

/-- The line of the process. -/
def readPid (line : Text) : Option (Option SceUID) :=
  match textBehind "pid  ".toList line with
  | none => none
  | some s => if s = "(none)".toList then some none else (i32FromStr s).map some

/-- The state that a dump shows. -/
def readDump (s : Text) : Option DumpState :=
  match textLines s with
  | [] => none
  | line :: lines => do
    let pid ← readPid line
    let (hwBreakpoints, lines) ← readTable "hw breakpoints  ".toList lines
    let (hwWatchpoints, lines) ← readTable "hw watchpoints  ".toList lines
    let (swBreakpoints, _) ← readTable "sw breakpoints  ".toList lines
    return { pid, hwBreakpoints, hwWatchpoints, swBreakpoints }

/-! ## The dump is read back -/

/-- Lines without an end of their own are got back from the text. -/
theorem textLines_flatMap {lines : List Text} (h : ∀ line ∈ lines, '\n' ∉ line) :
    textLines (lines.flatMap outputln) = lines := by
  have hsplit : (lines.flatMap outputln).splitOn '\n' = lines ++ [[]] := by
    induction lines with
    | nil => rfl
    | cons line lines ih =>
      have hline : '\n' ∉ line := h line List.mem_cons_self
      have hrest : (lines.flatMap outputln).splitOn '\n' = lines ++ [[]] :=
        ih fun line hmem => h line (List.mem_cons_of_mem _ hmem)
      have htext : (line :: lines).flatMap outputln = line ++ '\n' :: lines.flatMap outputln := by
        rw [List.flatMap_cons, outputln, List.append_assoc, List.singleton_append]
      rw [htext, List.splitOn_append_cons_self_of_not_mem hline, hrest]
      rfl
  rw [textLines, hsplit, List.dropLast_concat]

theorem textBehind_append (s t : Text) : textBehind s (s ++ t) = some t := by
  induction s with
  | nil => rfl
  | cons c s ih =>
    rw [List.cons_append, textBehind, if_pos rfl]
    exact ih

/-- Digits are letters and figures. -/
theorem digit_ne {c : Char} (hc : ∀ d < 16, d.digitChar ≠ c) {base : Nat} (hone : 1 < base)
    (hbase : base ≤ 16) (n : Nat) : c ∉ Nat.toDigits base n := by
  induction n using Nat.strong_induction_on with
  | _ n ih =>
    intro hmem
    rw [Nat.toDigits_eq_if hone] at hmem
    split at hmem
    · rw [List.mem_singleton] at hmem
      exact hc n (by omega) hmem.symm
    · rw [List.mem_append, List.mem_singleton] at hmem
      rcases hmem with hmem | hmem
      · exact ih (n / base) (Nat.div_lt_self (by omega) hone) hmem
      · have hlt : n % base < base := Nat.mod_lt _ (by omega)
        exact hc (n % base) (by omega) hmem.symm

theorem readNumber_toDigits {base : Nat} (hone : 1 < base) (hbase : base ≤ 16) (n : Nat) :
    readNumber base (Nat.toDigits base n) = some n := by
  rw [readNumber, if_neg Nat.toDigits_ne_nil, Numerals.number_toDigits hone hbase]

theorem readEntries_entryLines (addrs : List U32) (rest : List Text) :
    ∀ i, readEntries i addrs.length (entryLines i addrs ++ rest) = some (addrs, rest) := by
  induction addrs with
  | nil => exact fun _ => rfl
  | cons addr addrs ih =>
    intro i
    rw [entryLines, List.cons_append, List.length_cons, readEntries, textBehind_append,
      Option.bind_some, hexText, readNumber_toDigits (by decide) (by decide)]
    dsimp only
    rw [ih, Option.map_some, BitVec.ofNat_toNat, BitVec.setWidth_eq]

theorem readTable_tableLines (title slots : Text) (addrs : List U32) (rest : List Text) :
    readTable title (tableLines title slots addrs ++ rest) = some (addrs, rest) := by
  have hslash : '/' ∉ natText addrs.length := digit_ne (by decide) (by decide) (by decide) _
  have hcount : (natText addrs.length ++ '/' :: slots).takeWhile (· ≠ '/') =
      natText addrs.length := by
    have hdigits : ∀ c ∈ natText addrs.length, decide (c ≠ '/') = true := fun c hc => by
      rw [decide_eq_true_eq]
      rintro rfl
      exact hslash hc
    rw [List.takeWhile_append_of_pos hdigits]
    simp
  rw [tableLines, List.cons_append, readTable, List.append_assoc, textBehind_append, Option.bind_some,
    hcount, natText, readNumber_toDigits (by decide) (by decide)]
  exact readEntries_entryLines addrs rest 0

/-- A process id is read back. -/
theorem i32FromStr_intText (pid : SceUID) : i32FromStr (intText pid) = some pid := by
  rw [i32FromStr_eq_some_iff, intText, natText]
  have hdigits : Numerals.number 10 0 (Nat.toDigits 10 pid.toInt.natAbs) = some pid.toInt.natAbs :=
    Numerals.number_toDigits (by decide) (by decide) _
  by_cases hneg : pid.toInt < 0
  · rw [if_pos hneg]
    refine ⟨true, pid.toInt.natAbs, .minus Nat.toDigits_ne_nil hdigits, ?_⟩
    show -(pid.toInt.natAbs : Int) = pid.toInt
    omega
  · rw [if_neg hneg]
    refine ⟨false, pid.toInt.natAbs, .plain Nat.toDigits_ne_nil hdigits, ?_⟩
    show (pid.toInt.natAbs : Int) = pid.toInt
    omega

theorem intText_not_mem {c : Char} (hc : ∀ d < 16, d.digitChar ≠ c) (hminus : c ≠ '-') (n : I32) :
    c ∉ intText n := by
  have hdigits : c ∉ natText n.toInt.natAbs := digit_ne hc (by decide) (by decide) _
  rw [intText]
  split
  · rw [List.mem_cons]
    rintro (heq | hmem)
    · exact hminus heq
    · exact hdigits hmem
  · exact hdigits

theorem readPid_line (pid : Option SceUID) :
    readPid ("pid  ".toList ++ match pid with
      | some pid => intText pid
      | none => "(none)".toList) = some pid := by
  rw [readPid, textBehind_append]
  dsimp only
  cases pid with
  | none => rfl
  | some pid =>
    have hne : intText pid ≠ "(none)".toList := fun heq => by
      have hmem : '(' ∉ intText pid := intText_not_mem (by decide) (by decide) pid
      rw [heq] at hmem
      exact hmem (by decide)
    dsimp only
    rw [if_neg hne, i32FromStr_intText, Option.map_some]

/-- No line of the dump has an end of its own. -/
theorem tableLines_ended {title slots : Text} (htitle : '\n' ∉ title) (hslots : '\n' ∉ slots)
    (addrs : List U32) : ∀ line ∈ tableLines title slots addrs, '\n' ∉ line := by
  have hdigits : ∀ base, 1 < base → base ≤ 16 → ∀ n, '\n' ∉ Nat.toDigits base n :=
    fun base hone hbase n => digit_ne (by decide) hone hbase n
  have hentries : ∀ i, ∀ line ∈ entryLines i addrs, '\n' ∉ line := by
    induction addrs with
    | nil => exact fun _ _ hmem => absurd hmem List.not_mem_nil
    | cons addr addrs ih =>
      intro i line hmem
      rw [entryLines, List.mem_cons] at hmem
      rcases hmem with rfl | hmem
      · simp [natText, hexText, hdigits]
      · exact ih (i + 1) line hmem
  intro line hmem
  rw [tableLines, List.mem_cons] at hmem
  rcases hmem with rfl | hmem
  · simp [natText, hdigits, htitle, hslots]
  · exact hentries 0 line hmem

theorem dumpLines_ended (d : DumpState) : ∀ line ∈ dumpLines d, '\n' ∉ line := by
  intro line hmem
  rw [dumpLines, List.mem_cons, List.mem_append, List.mem_append] at hmem
  rcases hmem with rfl | (hmem | hmem) | hmem
  · cases d.pid with
    | none => decide
    | some pid =>
      have hpid : '\n' ∉ intText pid := intText_not_mem (by decide) (by decide) pid
      simp [hpid]
  · exact tableLines_ended (by decide) (by decide) _ line hmem
  · exact tableLines_ended (by decide) (by decide) _ line hmem
  · exact tableLines_ended (by decide) (by decide) _ line hmem

theorem readDump_dumpLines (d : DumpState) : readDump ((dumpLines d).flatMap outputln) = some d := by
  rw [readDump, textLines_flatMap (dumpLines_ended d), dumpLines]
  -- the last table has nothing behind it
  rw [← List.append_nil (tableLines "sw breakpoints  ".toList _ _)]
  simp only [readPid_line, List.append_assoc, Option.bind_eq_bind, Option.bind_some,
    readTable_tableLines]
  rfl

/-- **The dump is read back**: whether there is a session, and then its process and the addresses of
    its breakpoints and watchpoints, slot after slot. -/
theorem cmdDump_readBack (t : VitaTarget) (pool : SessionPool) :
    (cmdDump t pool).1 = .ok () ∧
      readDump (cmdDump t pool).2 = t.session.map fun i => (pool i).dumpState := by
  rw [cmdDump]
  cases t.session with
  | none =>
    refine ⟨rfl, ?_⟩
    show readDump (outputln "no session".toList) = none
    decide
  | some i => exact ⟨rfl, readDump_dumpLines (pool i).dumpState⟩

end VitaGdb
