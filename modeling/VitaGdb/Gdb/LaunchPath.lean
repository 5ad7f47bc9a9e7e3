/-
  `gdb/target.rs`: what `run` gives to the launch call.

  The path is written into a buffer of 128 bytes with a `StreamWriter` whose results are ignored,
  and taken out as a C string: a path that does not fit is found out then, and nothing is launched
  (`launchCall_eq`).  The title id is written with an `ArgvWriter`, and always finds room.

  `run` of `Gdb.Attaching` is `runWith`, where only the launch call's answer counts
  (`run_eq_runWith`).
-/
import VitaGdb.Gdb.ObjectReads
import VitaGdb.Kernel.ArgvWriter

namespace VitaGdb

/-- What `ksceAppMgrLaunchAppByPath` is given. -/
structure LaunchCall where
  path : List U8
  args : List U8

/-- `writer`, with the path written: a title id of nine bytes stands for its `eboot.bin`. -/
def pathWriter (filename : String) : StreamWriter :=
  let writer := StreamWriter.new (List.replicate 128 0#8) 0
  if (bytesOf filename).length = 9 then writer.write ["ux0:app/", filename, "/eboot.bin"]
  else writer.write [filename]

/-- `titleid`. -/
def titleidOf (filename : String) : String :=
  if (bytesOf filename).length = 9 then filename else "MLCL05505"

/-- The first part of `run`: the launch call, or `TargetError::NonFatal`. -/
def launchCall (filename : Option (List U8)) : Outcome TargetError LaunchCall :=
  match filename with
  | none => .err .nonFatal
  | some filename =>
    match toStr filename with
    | none => .err .nonFatal
    | some filename =>
      match (pathWriter filename).intoCstr with
      | .error _ => .err .nonFatal
      | .ok path =>
        match (ArgvWriter.new.add (bytesOf "-titleid") (bytesOf (titleidOf filename))).2.toSlice with
        | .ok args => .ok { path := path, args := args }
        | _ => .panic

/-- `ExtendedMode::run`, where the launch call is `launch`; `none` is `TargetError::NonFatal`. -/
def VitaTarget.runWith (launch : LaunchCall → Kernel → Except SceError SceUID × Kernel)
    (timedOut : I32) (t : VitaTarget) (w : World) (filename : Option (List U8)) :
    Outcome TargetError SceUID × VitaTarget × World :=
  match launchCall filename with
  | .panic => (.panic, t, w)
  | .err err => (.err err, t, w)
  | .ok call =>
    match launch call w.kernel with
    | (.error _, k) => (.err .nonFatal, t, { w with kernel := k })
    | (.ok pid, k) =>
      let (t, w) := t.detach { w with kernel := k }
      match t.attach w pid .run with
      | (false, t, w) => (.err .nonFatal, t, w)
      | (true, t, w) =>
        match t.evflag.waitTimeout timedOut w.kernel evProcessStarted with
        | (.ok (some _), k) =>
          (if pid = 0#32 then .err .nonFatal else .ok pid, t, { w with kernel := k })
        | (_, k) =>
          let (t, w) := t.detach { w with kernel := k }
          (.err .nonFatal, t, w)

/-- The path a file name stands for. -/
def completePath (name : List U8) : List U8 :=
  if name.length = 9 then bytesOf "ux0:app/" ++ name ++ bytesOf "/eboot.bin" else name

/-! ## The C string -/

theorem StreamWriter.intoCstr_iff (buf : List U8) (pieces : List (List U8)) (c : List U8) :
    ((StreamWriter.new buf 0).writeAll pieces).intoCstr = .ok c ↔
      pieces.flatten.length < buf.length ∧ 0#8 ∉ pieces.flatten ∧ c = pieces.flatten := by
  rw [(StreamWriter.shows_writeAll buf 0 pieces).intoCstr]
  by_cases hspace : pieces.flatten.length < buf.length
  · rw [if_pos hspace]
    by_cases hzero : 0#8 ∈ pieces.flatten
    · rw [if_pos hzero]
      exact ⟨fun h => absurd h (by simp), fun h => absurd hzero h.2.1⟩
    · rw [if_neg hzero, Except.ok.injEq]
      exact ⟨fun h => ⟨hspace, hzero, h.symm⟩, fun h => h.2.2.symm⟩
  · rw [if_neg hspace]
    exact ⟨fun h => absurd h (by simp), fun h => absurd h.1 hspace⟩

/-- It shows the path, as far as that fits. -/
theorem pathWriter_shows (filename : String) :
    (pathWriter filename).Shows (List.replicate 128 0#8) 0 (completePath (bytesOf filename)) := by
  have hstart := StreamWriter.shows_new (List.replicate 128 0#8) 0
  rw [← bytesOf_empty] at hstart
  unfold pathWriter completePath
  split
  · have hpath := hstart.write ["ux0:app/", filename, "/eboot.bin"]
    simpa only [bytesOf_append, bytesOf_join, bytesOf_empty, List.nil_append, List.map_cons,
      List.map_nil, List.flatten_cons, List.flatten_nil, List.append_nil, List.append_assoc]
      using hpath
  · have hpath := hstart.write_single filename
    rwa [bytesOf_append, bytesOf_empty, List.nil_append] at hpath

/-- **The title id finds room** in the launch arguments. -/
theorem titleid_fits (filename : String) :
    (ArgvWriter.new.add (bytesOf "-titleid") (bytesOf (titleidOf filename))).2.toSlice =
      .ok (ArgvWriter.entry (bytesOf "-titleid") (bytesOf (titleidOf filename))) := by
  have hname : (bytesOf "-titleid").length = 8 := by decide +kernel
  have hvalue : (bytesOf (titleidOf filename)).length = 9 := by
    rw [titleidOf]
    split
    · assumption
    · decide +kernel
  have hgoes := ArgvWriter.holds_new.add (bytesOf "-titleid") (bytesOf (titleidOf filename))
  generalize ArgvWriter.new.add (bytesOf "-titleid") (bytesOf (titleidOf filename)) = answer at hgoes
  cases hgoes with
  | full hfull =>
    rw [hname] at hfull
    exact absurd hfull (by decide)
  | split w' hsplit hholds =>
    have hfull := hsplit.2
    dsimp only at hfull
    rw [hname, hvalue] at hfull
    exact absurd hfull (by decide)
  | whole w' hroom hholds => exact hholds.toSlice

/-- The launch call of a file name. -/
theorem launchCall_eq (name : List U8) :
    launchCall (some name) = match toStr name with
      | none => .err .nonFatal
      | some filename =>
        if (completePath name).length < 128 ∧ 0#8 ∉ completePath name then
          .ok { path := completePath name
                args := ArgvWriter.entry (bytesOf "-titleid") (bytesOf (titleidOf filename)) }
        else .err .nonFatal := by
  rw [launchCall]
  cases hname : toStr name with
  | none => rfl
  | some filename =>
    have hbytes := bytesOf_of_toStr hname
    dsimp only
    rw [(pathWriter_shows filename).intoCstr, titleid_fits, hbytes, List.length_replicate]
    by_cases hspace : (completePath name).length < 128
    · by_cases hzero : 0#8 ∈ completePath name
      · rw [if_pos hspace, if_pos hzero, if_neg fun h => h.2 hzero]
      · rw [if_pos hspace, if_neg hzero, if_pos ⟨hspace, hzero⟩]
    · rw [if_neg hspace, if_neg fun h => hspace h.1]

/-- `executable_path` is the path of the launch call. -/
theorem executablePath_eq (filename : Option (List U8)) :
    executablePath filename = match launchCall filename with
      | .ok call => some call.path
      | _ => none := by
  cases filename with
  | none => rfl
  | some name =>
    rw [launchCall_eq, executablePath, ← completePath]
    have htext : ByteArray.validateUTF8 ⟨(name.map UInt8.ofBitVec).toArray⟩ = (toStr name).isSome := by
      rw [toStr, String.fromUTF8?]
      split
      · rename_i hvalid
        rw [Option.isSome_some, ByteArray.validateUTF8_eq_true_iff]
        exact hvalid
      · rename_i hvalid
        rw [Option.isSome_none, ByteArray.validateUTF8_eq_false_iff]
        exact hvalid
    rw [htext]
    cases hname : toStr name with
    | none => rfl
    | some filename =>
      dsimp only
      rw [Option.isSome_some, if_pos rfl]
      by_cases hpath : (completePath name).length < 128 ∧ 0#8 ∉ completePath name
      · rw [if_pos hpath, if_pos hpath]
      · rw [if_neg hpath, if_neg hpath]

/-- `Ok`. -/
def Outcome.ok? {ε α : Type} : Outcome ε α → Option α
  | .ok a => some a
  | _ => none

/-- **`run` is `runWith`**, where the launch call answers what the kernel answers. -/
theorem run_eq_runWith (timedOut : I32) (t : VitaTarget) (w : World) (filename : Option (List U8)) :
    t.run timedOut w filename =
      ((t.runWith (fun _ k => k.sceCall "ksceAppMgrLaunchAppByPath" id) timedOut w filename).1.ok?,
        (t.runWith (fun _ k => k.sceCall "ksceAppMgrLaunchAppByPath" id) timedOut w filename).2) := by
  rw [VitaTarget.run, VitaTarget.runWith, executablePath_eq]
  rcases launchCall filename with call | err | _
  · dsimp only
    rcases w.kernel.sceCall "ksceAppMgrLaunchAppByPath" id with ⟨_ | pid, k⟩
    · rfl
    · dsimp only
      rcases (t.detach { w with kernel := k }).1.attach (t.detach { w with kernel := k }).2 pid .run
        with ⟨_ | _, t₁, w₁⟩
      · rfl
      · dsimp only
        rcases t₁.evflag.waitTimeout timedOut w₁.kernel evProcessStarted with ⟨_ | _ | out, k₁⟩
        · rfl
        · rfl
        · dsimp only
          by_cases hpid : pid = 0#32
          · rw [if_pos hpid, if_pos hpid]
            rfl
          · rw [if_neg hpid, if_neg hpid]
            rfl
  · rfl
  · rfl

/-- The file names that are launched: text whose complete path is a C string of the buffer. -/
def Launchable (name : List U8) : Prop :=
  (toStr name).isSome = true ∧ (completePath name).length < 128 ∧ 0#8 ∉ completePath name

/-- What `run` does behind the launch call, by its answer. -/
def VitaTarget.afterLaunch (timedOut : I32) (t : VitaTarget) (w : World) :
    Except SceError SceUID × Kernel → Outcome TargetError SceUID × VitaTarget × World
  | (.error _, k) => (.err .nonFatal, t, { w with kernel := k })
  | (.ok pid, k) =>
    let (t, w) := t.detach { w with kernel := k }
    match t.attach w pid .run with
    | (false, t, w) => (.err .nonFatal, t, w)
    | (true, t, w) =>
      match t.evflag.waitTimeout timedOut w.kernel evProcessStarted with
      | (.ok (some _), k) =>
        (if pid = 0#32 then .err .nonFatal else .ok pid, t, { w with kernel := k })
      | (_, k) =>
        let (t, w) := t.detach { w with kernel := k }
        (.err .nonFatal, t, w)

/-- Where there is a launch call, `run` makes it. -/
theorem runWith_of_launchCall {filename : Option (List U8)} {call : LaunchCall}
    (h : launchCall filename = .ok call)
    (launch : LaunchCall → Kernel → Except SceError SceUID × Kernel) (timedOut : I32)
    (t : VitaTarget) (w : World) :
    t.runWith launch timedOut w filename = t.afterLaunch timedOut w (launch call w.kernel) := by
  rw [VitaTarget.runWith, h]
  rfl

/-- **A truncated path is never launched.**  A C string is taken out exactly where all pieces fit
    and have no zero, and is all of them; so `run` calls the launch with the complete path of a
    launchable file name, and fails before it launches anything at every other. -/
theorem launch_complete :
    (∀ (buf : List U8) (pieces : List (List U8)) (c : List U8),
      ((StreamWriter.new buf 0).writeAll pieces).intoCstr = .ok c ↔
        pieces.flatten.length < buf.length ∧ 0#8 ∉ pieces.flatten ∧ c = pieces.flatten) ∧
    (∀ name, Launchable name → ∃ args,
      launchCall (some name) = .ok { path := completePath name, args := args } ∧
        ∀ launch timedOut t w, VitaTarget.runWith launch timedOut t w (some name) =
          t.afterLaunch timedOut w (launch { path := completePath name, args := args } w.kernel)) ∧
    ∀ filename : Option (List U8), (∀ name, filename = some name → ¬ Launchable name) →
      ∀ launch timedOut t w,
        VitaTarget.runWith launch timedOut t w filename = (.err .nonFatal, t, w) := by
  refine ⟨StreamWriter.intoCstr_iff, fun name hname => ?_, fun filename hno launch timedOut t w => ?_⟩
  · obtain ⟨htext, hfits⟩ := hname
    obtain ⟨text, htext⟩ := Option.isSome_iff_exists.mp htext
    have hcall := launchCall_eq name
    rw [htext] at hcall
    dsimp only at hcall
    rw [if_pos hfits] at hcall
    exact ⟨_, hcall, runWith_of_launchCall hcall⟩
  · have hnone : launchCall filename = .err .nonFatal := by
      cases filename with
      | none => rfl
      | some name =>
        rw [launchCall_eq]
        cases htext : toStr name with
        | none => rfl
        | some text =>
          exact if_neg fun hfits => hno name rfl ⟨by rw [htext]; rfl, hfits⟩
    rw [VitaTarget.runWith, hnone]

/-- A title id is launched by its `eboot.bin`, and a name of 128 bytes is not launched. -/
theorem launch_complete_titleId :
    (∃ args, ∀ launch timedOut t w,
      VitaTarget.runWith launch timedOut t w (some (bytesOf "PCSE00001")) =
        t.afterLaunch timedOut w
          (launch { path := bytesOf "ux0:app/PCSE00001/eboot.bin", args := args } w.kernel)) ∧
      ∀ launch timedOut t w,
        VitaTarget.runWith launch timedOut t w (some (List.replicate 128 0x61#8)) =
          (.err .nonFatal, t, w) := by
  have hpath : completePath (bytesOf "PCSE00001") = bytesOf "ux0:app/PCSE00001/eboot.bin" := by
    decide +kernel
  have hlaunchable : Launchable (bytesOf "PCSE00001") := by
    refine ⟨by rw [toStr_bytesOf]; rfl, ?_, ?_⟩
    · rw [hpath]
      decide +kernel
    · rw [hpath]
      decide +kernel
  obtain ⟨args, -, hruns⟩ := launch_complete.2.1 _ hlaunchable
  rw [hpath] at hruns
  refine ⟨⟨args, hruns⟩, launch_complete.2.2 _ ?_⟩
  rintro name hname ⟨-, hlength, -⟩
  obtain rfl := Option.some.inj hname
  rw [completePath, List.length_replicate, if_neg (by decide), List.length_replicate] at hlength
  exact absurd hlength (by decide)

end VitaGdb
