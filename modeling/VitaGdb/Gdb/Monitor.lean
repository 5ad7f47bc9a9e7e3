/-
  `gdb/monitor.rs`: the commands, and physical memory behind `peek` and `poke`.

  A run is any sequence of commands, each any bytes, with whatever the kernel answers to the calls
  that a command makes.  `peek` prints a word and `poke` sets one, through a page of the kernel or,
  with `S`, through the secure processor.

  Spec, over every run:
    * what the commands and their answers show is a run of a plain word memory: `peek` prints what
      the last `poke` of those bytes has set, and nothing else changes them
                                                                   — `monitor_words`;
    * a `poke` whose calls go through answers `OK`, and the `peek` behind it prints the value
                                                                   — `poke_peek`;
    * the memory blocks in use are the shared one and those left behind by a call that failed, and
      none is freed that is not in use                             — `monitor_blocks`.

  Crux: the shared memory holds the bridge's data, which every secure access overwrites, so the word
  memory is followed outside them (`AgreeOutside`).  A `poke` whose page can not be freed answers
  with an error and has been carried out (`shown`).
-/
import VitaGdb.Gdb.MonitorText
import VitaGdb.Kernel.Physical
import VitaGdb.Lib.Runs

namespace VitaGdb

open HandleTable (Held Ledger)

/-! ## The commands -/

/-- What the commands look at: the target with its session, and the kernel's answers. -/
structure MonitorEnv where
  target : VitaTarget
  pool : SessionPool
  queries : MonitorQueries

/-- The last argument of `peek` and `poke`; `none` is a usage error. -/
def secureArg : List Text → Option Bool
  | [] => some false
  | arg :: _ => if arg = ['S'] then some true else none

/-- `cmd_peek`. -/
def cmdPeek (spl : Spl) (p : Physical) (a : MapAnswers) (args : List Text) : Reply × Physical :=
  match args with
  | [] => (answerLine "usage: peek <addr> [S]".toList, p)
  | addr :: args =>
    match parseNum addr with
    | none => (answerLine "addr not valid".toList, p)
    | some addr =>
      match secureArg args with
      | none => (answerLine "usage: peek <addr> [S]".toList, p)
      | some secure =>
        match if secure then mepRead32 spl p addr a else physRead32 p addr a with
        | (.ok value, p) => (answerLine (hexText value), p)
        | (.err err, p) => ((.err err, []), p)
        | (.panic, p) => ((.panic, []), p)

/-- `cmd_poke`. -/
def cmdPoke (spl : Spl) (p : Physical) (a : MapAnswers) (args : List Text) : Reply × Physical :=
  match args with
  | [] | [_] => (answerLine "usage: poke <dst> <value> [S]".toList, p)
  | dst :: value :: args =>
    match parseNum dst, parseNum value with
    | some dst, some value =>
      match secureArg args with
      | none => (answerLine "usage: poke <addr> <value> [S]".toList, p)
      | some secure =>
        match if secure then mepWrite32 spl p dst value a else physWrite32 p dst value a with
        | (.ok _, p) => (answerLine "OK".toList, p)
        | (.err err, p) => ((.err err, []), p)
        | (.panic, p) => ((.panic, []), p)
    | _, _ => (answerLine "dst or value not valid".toList, p)

/-- `handle_monitor_cmd`. -/
def handleMonitorCmd (spl : Spl) (env : MonitorEnv) (p : Physical) (a : MapAnswers)
    (cmd : List U8) : Reply × Physical :=
  match toStr cmd with
  | none => (answerLine "command must be valid UTF-8".toList, p)
  | some cmd =>
    match splitAsciiWhitespace cmd.toList with
    | [] => (cmdHelp, p)
    | cmd :: args =>
      let attached := env.target.getPid env.pool
      if cmd = "dump".toList then (cmdDump env.target env.pool, p)
      else if cmd = "ps".toList then (cmdLsProcess env.queries, p)
      else if cmd = "ls".toList then (cmdLs env.queries attached args, p)
      else if cmd = "info".toList then (cmdInfo env.queries attached args, p)
      else if cmd = "nid".toList then (cmdLookupNid args, p)
      else if cmd = "peek".toList then cmdPeek spl p a args
      else if cmd = "poke".toList then cmdPoke spl p a args
      else (cmdHelp, p)

/-! ## The accesses among the commands -/

/-- A well-formed `peek` or `poke`. -/
inductive Access where
  | peek (addr : U32) (secure : Bool)
  | poke (addr value : U32) (secure : Bool)
  deriving DecidableEq

namespace Access

def addr : Access → U32
  | peek addr _ | poke addr _ _ => addr

def secure : Access → Bool
  | peek _ secure | poke _ _ secure => secure

end Access

/-- The access that the arguments of `peek` ask for. -/
def peekAccess : List Text → Option Access
  | [] => none
  | addr :: args => do
    let addr ← parseNum addr
    let secure ← secureArg args
    return .peek addr secure

/-- The access that the arguments of `poke` ask for. -/
def pokeAccess : List Text → Option Access
  | addr :: value :: args => do
    let addr ← parseNum addr
    let value ← parseNum value
    let secure ← secureArg args
    return .poke addr value secure
  | _ => none

/-- The access that some words ask for. -/
def accessOfWords : List Text → Option Access
  | [] => none
  | cmd :: args =>
    if cmd = "peek".toList then peekAccess args
    else if cmd = "poke".toList then pokeAccess args
    else none

/-- The access that a command asks for. -/
def accessOf (cmd : List U8) : Option Access :=
  (toStr cmd).bind fun cmd => accessOfWords (splitAsciiWhitespace cmd.toList)

/-- The reply to a `peek`. -/
def peekReply : Outcome SceError U32 × Physical → Reply × Physical
  | (.ok value, p) => (answerLine (hexText value), p)
  | (.err err, p) => ((.err err, []), p)
  | (.panic, p) => ((.panic, []), p)

/-- The reply to a `poke`. -/
def pokeReply : Outcome SceError Unit × Physical → Reply × Physical
  | (.ok _, p) => (answerLine "OK".toList, p)
  | (.err err, p) => ((.err err, []), p)
  | (.panic, p) => ((.panic, []), p)

/-- An access, carried out. -/
def Access.run (spl : Spl) (p : Physical) (a : MapAnswers) : Access → Reply × Physical
  | peek addr true => peekReply (mepRead32 spl p addr a)
  | peek addr false => peekReply (physRead32 p addr a)
  | poke addr value true => pokeReply (mepWrite32 spl p addr value a)
  | poke addr value false => pokeReply (physWrite32 p addr value a)

theorem cmdPeek_access (spl : Spl) (p : Physical) (a : MapAnswers) (args : List Text) :
    (peekAccess args = none → (cmdPeek spl p a args).2 = p) ∧
      ∀ acc, peekAccess args = some acc → cmdPeek spl p a args = acc.run spl p a := by
  cases args with
  | nil => exact ⟨fun _ => rfl, fun acc h => absurd h (by simp [peekAccess])⟩
  | cons addr args =>
    rw [peekAccess, cmdPeek]
    cases parseNum addr with
    | none => exact ⟨fun _ => rfl, fun acc h => absurd h (by simp)⟩
    | some addr =>
      cases secureArg args with
      | none => exact ⟨fun _ => rfl, fun acc h => absurd h (by simp)⟩
      | some secure =>
        refine ⟨fun h => absurd h (by simp), fun acc h => ?_⟩
        obtain rfl : Access.peek addr secure = acc := by simpa using h
        cases secure with
        | true =>
          show _ = peekReply (mepRead32 spl p addr a)
          dsimp only
          rw [if_pos rfl]
          rcases mepRead32 spl p addr a with ⟨_ | _ | _, q⟩ <;> rfl
        | false =>
          show _ = peekReply (physRead32 p addr a)
          dsimp only
          rw [if_neg (by simp)]
          rcases physRead32 p addr a with ⟨_ | _ | _, q⟩ <;> rfl

theorem cmdPoke_access (spl : Spl) (p : Physical) (a : MapAnswers) (args : List Text) :
    (pokeAccess args = none → (cmdPoke spl p a args).2 = p) ∧
      ∀ acc, pokeAccess args = some acc → cmdPoke spl p a args = acc.run spl p a := by
  rcases args with _ | ⟨addr, _ | ⟨value, args⟩⟩
  · exact ⟨fun _ => rfl, fun acc h => absurd h (by simp [pokeAccess])⟩
  · exact ⟨fun _ => rfl, fun acc h => absurd h (by simp [pokeAccess])⟩
  rw [pokeAccess, cmdPoke]
  cases parseNum addr with
  | none => exact ⟨fun _ => rfl, fun acc h => absurd h (by simp)⟩
  | some addr =>
    cases parseNum value with
    | none => exact ⟨fun _ => rfl, fun acc h => absurd h (by simp)⟩
    | some value =>
      cases secureArg args with
      | none => exact ⟨fun _ => rfl, fun acc h => absurd h (by simp)⟩
      | some secure =>
        refine ⟨fun h => absurd h (by simp), fun acc h => ?_⟩
        obtain rfl : Access.poke addr value secure = acc := by simpa using h
        cases secure with
        | true =>
          show _ = pokeReply (mepWrite32 spl p addr value a)
          dsimp only
          rw [if_pos rfl]
          rcases mepWrite32 spl p addr value a with ⟨_ | _ | _, q⟩ <;> rfl
        | false =>
          show _ = pokeReply (physWrite32 p addr value a)
          dsimp only
          rw [if_neg (by simp)]
          rcases physWrite32 p addr value a with ⟨_ | _ | _, q⟩ <;> rfl

/-- **A command is an access, or leaves physical memory alone.** -/
theorem handleMonitorCmd_access (spl : Spl) (env : MonitorEnv) (p : Physical) (a : MapAnswers)
    (cmd : List U8) :
    (accessOf cmd = none → (handleMonitorCmd spl env p a cmd).2 = p) ∧
      ∀ acc, accessOf cmd = some acc → handleMonitorCmd spl env p a cmd = acc.run spl p a := by
  rw [accessOf, handleMonitorCmd]
  cases toStr cmd with
  | none => exact ⟨fun _ => rfl, fun acc h => absurd h (by simp)⟩
  | some cmd =>
    dsimp only
    rw [Option.bind_some]
    cases splitAsciiWhitespace cmd.toList with
    | nil => exact ⟨fun _ => rfl, fun acc h => absurd h (by simp [accessOfWords])⟩
    | cons word args =>
      dsimp only
      rw [accessOfWords]
      by_cases hpeek : word = "peek".toList
      · subst hpeek
        exact cmdPeek_access spl p a args
      by_cases hpoke : word = "poke".toList
      · subst hpoke
        exact cmdPoke_access spl p a args
      rw [if_neg hpeek, if_neg hpoke, if_neg hpeek, if_neg hpoke]
      refine ⟨fun _ => ?_, fun acc h => absurd h (by simp)⟩
      split
      · rfl
      split
      · rfl
      split
      · rfl
      split
      · rfl
      split
      · rfl
      · rfl

/-! ## Runs -/

/-- A command, with what it looks at and what the kernel answers meanwhile. -/
structure MonitorEvent where
  cmd : List U8
  env : MonitorEnv
  answers : MapAnswers

/-- The reply to a command. -/
def MonitorEvent.reply (spl : Spl) (p : Physical) (e : MonitorEvent) : Reply :=
  (handleMonitorCmd spl e.env p e.answers e.cmd).1

/-- A command that comes to its end. -/
def monitorStep (spl : Spl) (p : Physical) (e : MonitorEvent) : Option Physical :=
  if e.answers.Fresh p.blocks ∧ (e.reply spl p).1 ≠ .panic then
    some (handleMonitorCmd spl e.env p e.answers e.cmd).2
  else none

/-- A step is an access that ends, or changes nothing. -/
theorem monitorStep_access {spl : Spl} {p q : Physical} {e : MonitorEvent}
    (h : monitorStep spl p e = some q) :
    e.answers.Fresh p.blocks ∧
      (accessOf e.cmd = none ∧ q = p ∨
      ∃ acc, accessOf e.cmd = some acc ∧ acc.run spl p e.answers = (e.reply spl p, q) ∧
        (e.reply spl p).1 ≠ .panic) := by
  rw [monitorStep] at h
  split at h
  · next hgoes =>
    obtain rfl := Option.some.inj h
    obtain ⟨hsame, haccess⟩ := handleMonitorCmd_access spl e.env p e.answers e.cmd
    refine ⟨hgoes.1, ?_⟩
    cases hacc : accessOf e.cmd with
    | none => exact .inl ⟨rfl, hsame hacc⟩
    | some acc => exact .inr ⟨acc, rfl, (haccess acc hacc).symm, hgoes.2⟩
  · exact absurd h (by simp)

/-! ## A word memory -/

/-- What a command and its reply show. -/
inductive WordAction where
  | peek (addr value : U32)
  | poke (addr value : U32)
  deriving DecidableEq

/-- The word that a reply to `peek` prints. -/
def printedWord (out : Text) : Option U32 :=
  (readNumber 16 (out.takeWhile (· ≠ '\n'))).map (BitVec.ofNat 32)

/-- What the reply to a `peek` shows. -/
def peekShown (addr : U32) : Reply → Option WordAction
  | (.ok _, out) => (printedWord out).map (.peek addr)
  | _ => none

/-- What the reply to a `poke` shows: it is carried out where it answers `OK`, and where its page
    can not be freed behind it. -/
def pokeShown (addr value : U32) : Reply → Option WordAction
  | (.ok _, out) => if out = outputln "OK".toList then some (.poke addr value) else none
  | (.err err, _) =>
    if err.func = "ksceKernelFreeMemBlock" then some (.poke addr value) else none
  | (.panic, _) => none

/-- **What a command and its reply show.** -/
def shown (cmd : List U8) (reply : Reply) : Option WordAction :=
  match accessOf cmd with
  | none => none
  | some (.peek addr _) => peekShown addr reply
  | some (.poke addr value _) => pokeShown addr value reply

/-- What a step shows. -/
def shownBy (spl : Spl) (p : Physical) (e : MonitorEvent) : Option WordAction :=
  shown e.cmd (e.reply spl p)

/-- A plain word memory: `poke` sets a word, and `peek` is right about one. -/
def wordStep (m : PhysMem) : WordAction → PhysMem → Prop
  | .peek addr value, m' => m' = m ∧ m.loadWord addr = some value
  | .poke addr value, m' => m' = m.setWord addr value

/-- The command's word is none of the bridge's. -/
def MonitorEvent.Clear (e : MonitorEvent) : Prop :=
  ∀ acc, accessOf e.cmd = some acc → ClearOfBridge acc.addr

/-- Memory is the word memory outside the bridge. -/
structure WordsHeld (p : Physical) (m : PhysMem) : Prop where
  comms : p.CommsMapped
  mem : AgreeOutside p.mem m

/-- A printed word is read. -/
theorem printedWord_hexText (value : U32) :
    printedWord (outputln (hexText value)) = some value := by
  have hend : '\n' ∉ hexText value := digit_ne (by decide) (by decide) (by decide) _
  have hdigits : ∀ c ∈ hexText value, decide (c ≠ '\n') = true := fun c hc => by
    rw [decide_eq_true_eq]
    rintro rfl
    exact hend hc
  have hword : (outputln (hexText value)).takeWhile (· ≠ '\n') = hexText value := by
    rw [outputln, List.takeWhile_append_of_pos hdigits]
    simp
  rw [printedWord, hword, hexText, readNumber_toDigits (by decide) (by decide), Option.map_some,
    BitVec.ofNat_toNat, BitVec.setWidth_eq]

namespace WordsHeld

variable {p q : Physical} {m : PhysMem}

/-- Nothing is shown. -/
theorem silent (h : WordsHeld p m) (hcomms : q.CommsMapped) (hmem : AgreeOutside q.mem p.mem) :
    WordsHeld q m := ⟨hcomms, hmem.trans h.mem⟩

/-- A word is set. -/
theorem set (h : WordsHeld p m) (hcomms : q.CommsMapped) {addr value : U32}
    (hmem : AgreeOutside q.mem (p.mem.setWord addr value)) : WordsHeld q (m.setWord addr value) :=
  ⟨hcomms, hmem.trans (h.mem.setWord addr value)⟩

/-- A word is right. -/
theorem load (h : WordsHeld p m) {addr value : U32} (hclear : ClearOfBridge addr)
    (hvalue : p.mem.loadWord addr = some value) : m.loadWord addr = some value :=
  h.mem.loadWord hclear ▸ hvalue

end WordsHeld

/-- The shared memory after a call through the bridge. -/
theorem fudBridgeExec_commsMapped {spl : Spl} {p : Physical} (hp : p.CommsMapped) (execAddr : U32)
    (args : List U32) (a : MapAnswers) : (fudBridgeExec spl p execAddr args a).2.CommsMapped := by
  have hcomms := (fudBridgeExec_blocks spl p execAddr args a).2
  intro comms heq
  rw [hcomms] at heq
  split at heq
  · exact (fudCommsOf_effect p a).commsMapped hp |>.1 comms heq
  · exact hp comms heq

/-- What `mep_write32` and `mep_read32` leave of the blocks is what the bridge leaves. -/
theorem mepWrite32_physical (spl : Spl) (p : Physical) (dst val : U32) (a : MapAnswers) :
    (mepWrite32 spl p dst val a).2 =
      (fudBridgeExec spl p 0x00807262#32 [dst, fudCommsPa + 0x10#32, 0x4#32, val] a).2 := by
  rw [mepWrite32]
  rcases fudBridgeExec spl p 0x00807262#32 [dst, fudCommsPa + 0x10#32, 0x4#32, val] a with
    ⟨_ | _ | _, q⟩ <;> rfl

theorem mepRead32_physical (spl : Spl) (p : Physical) (addr : U32) (a : MapAnswers) :
    (mepRead32 spl p addr a).2 =
      (fudBridgeExec spl p 0x00807262#32 [fudCommsPa + 0x10#32, addr, 0x4#32] a).2 := by
  rw [mepRead32]
  rcases fudBridgeExec spl p 0x00807262#32 [fudCommsPa + 0x10#32, addr, 0x4#32] a with
    ⟨value | _ | _, q⟩
  · dsimp only
    split <;> rfl
  · rfl
  · rfl

section Words

variable {spl : Spl} {p q : Physical} {m : PhysMem} {a : MapAnswers} {addr value : U32}

/-- A `peek` through a page. -/
theorem matched_physRead32 (h : WordsHeld p m) (hfresh : a.Fresh p.blocks)
    (hclear : ClearOfBridge addr) (hne : (peekReply (physRead32 p addr a)).1.1 ≠ .panic) :
    LTS.Matched wordStep (WordsHeld (peekReply (physRead32 p addr a)).2) m
      (peekShown addr (peekReply (physRead32 p addr a)).1) := by
  have heffect := physRead32_effect addr hfresh
  cases hres : physRead32 p addr a with
  | mk res q =>
    rw [hres] at heffect hne
    cases heffect with
    | fault => exact absurd rfl hne
    | noBlock | noBase => exact h.silent h.comms fun _ _ => rfl
    | left value mem _ _ _ haccess =>
      split at haccess
      · obtain ⟨v, -, heq⟩ := Option.map_eq_some_iff.mp haccess
        obtain ⟨-, rfl⟩ := Prod.mk.inj heq
        exact h.silent h.comms fun _ _ => rfl
      · exact absurd haccess (by simp)
    | freed value mem _ _ _ haccess =>
      split at haccess
      · obtain ⟨v, hload, heq⟩ := Option.map_eq_some_iff.mp haccess
        obtain ⟨rfl, rfl⟩ := Prod.mk.inj heq
        have hshown : (printedWord (outputln (hexText v))).map (WordAction.peek addr) =
            some (.peek addr v) := by rw [printedWord_hexText, Option.map_some]
        show LTS.Matched wordStep _ m ((printedWord (outputln (hexText v))).map _)
        rw [hshown]
        exact ⟨m, ⟨rfl, h.load hclear hload⟩, h.silent h.comms fun _ _ => rfl⟩
      · exact absurd haccess (by simp)

/-- A `poke` through a page. -/
theorem matched_physWrite32 (h : WordsHeld p m) (hfresh : a.Fresh p.blocks)
    (hne : (pokeReply (physWrite32 p addr value a)).1.1 ≠ .panic) :
    LTS.Matched wordStep (WordsHeld (pokeReply (physWrite32 p addr value a)).2) m
      (pokeShown addr value (pokeReply (physWrite32 p addr value a)).1) := by
  have hstored : ∀ {u : Unit} {mem : PhysMem}, (if addr.toNat % 4 = 0 then
      (p.mem.storeWord addr value).map fun m => ((), m) else none) = some (u, mem) →
      mem = p.mem.setWord addr value := by
    intro u mem haccess
    split at haccess
    · obtain ⟨_, hstore, heq⟩ := Option.map_eq_some_iff.mp haccess
      obtain ⟨-, rfl⟩ := Prod.mk.inj heq
      exact PhysMem.storeWord_eq hstore
    · exact absurd haccess (by simp)
  have heffect := physWrite32_effect addr value hfresh
  cases hres : physWrite32 p addr value a with
  | mk res q =>
    rw [hres] at heffect hne
    cases heffect with
    | fault => exact absurd rfl hne
    | noBlock | noBase => exact h.silent h.comms fun _ _ => rfl
    | left u mem _ _ _ haccess | freed u mem _ _ _ haccess =>
      obtain rfl := hstored haccess
      exact ⟨_, rfl, ⟨h.comms, h.mem.setWord addr value⟩⟩

/-- A `peek` through the bridge. -/
theorem matched_mepRead32 (hspl : spl.Copies) (h : WordsHeld p m) (hclear : ClearOfBridge addr)
    (hne : (peekReply (mepRead32 spl p addr a)).1.1 ≠ .panic) :
    LTS.Matched wordStep (WordsHeld (peekReply (mepRead32 spl p addr a)).2) m
      (peekShown addr (peekReply (mepRead32 spl p addr a)).1) := by
  have heffect := mepRead32_effect hspl h.comms hclear a
  have hcomms : (mepRead32 spl p addr a).2.CommsMapped := by
    rw [mepRead32_physical]
    exact fudBridgeExec_commsMapped h.comms _ _ a
  cases hres : mepRead32 spl p addr a with
  | mk res q =>
    rw [hres] at heffect hne hcomms
    cases heffect with
    | fault => exact absurd rfl hne
    | failed err _ _ hmem => exact h.silent hcomms hmem
    | read v _ hmem hload =>
      have hshown : (printedWord (outputln (hexText v))).map (WordAction.peek addr) =
          some (.peek addr v) := by rw [printedWord_hexText, Option.map_some]
      show LTS.Matched wordStep _ m ((printedWord (outputln (hexText v))).map _)
      rw [hshown]
      exact ⟨m, ⟨rfl, h.load hclear hload⟩, h.silent hcomms hmem⟩

/-- A `poke` through the bridge. -/
theorem matched_mepWrite32 (hspl : spl.Copies) (h : WordsHeld p m) (hclear : ClearOfBridge addr)
    (hne : (pokeReply (mepWrite32 spl p addr value a)).1.1 ≠ .panic) :
    LTS.Matched wordStep (WordsHeld (pokeReply (mepWrite32 spl p addr value a)).2) m
      (pokeShown addr value (pokeReply (mepWrite32 spl p addr value a)).1) := by
  have heffect := mepWrite32_effect hspl h.comms hclear value a
  have hcomms : (mepWrite32 spl p addr value a).2.CommsMapped := by
    rw [mepWrite32_physical]
    exact fudBridgeExec_commsMapped h.comms _ _ a
  cases hres : mepWrite32 spl p addr value a with
  | mk res q =>
    rw [hres] at heffect hne hcomms
    cases heffect with
    | fault => exact absurd rfl hne
    | failed err _ hfunc hmem =>
      show LTS.Matched wordStep _ m (if err.func = "ksceKernelFreeMemBlock" then _ else none)
      rw [if_neg hfunc]
      exact h.silent hcomms hmem
    | written _ hmem => exact ⟨_, rfl, h.set hcomms hmem⟩

end Words

/-- **Every command is matched** by the word memory. -/
theorem monitorStep_matched {spl : Spl} (hspl : spl.Copies) {p q : Physical} {e : MonitorEvent}
    {m : PhysMem} (h : WordsHeld p m) (hclear : e.Clear) (hs : monitorStep spl p e = some q) :
    LTS.Matched wordStep (WordsHeld q) m (shownBy spl p e) := by
  obtain ⟨hfresh, ⟨hnone, hsame⟩ | ⟨acc, hacc, hrun, hne⟩⟩ := monitorStep_access hs
  · have hsilent : shownBy spl p e = none := by simp only [shownBy, shown, hnone]
    rw [hsilent, hsame]
    exact h
  · have hreply : (acc.run spl p e.answers).1 = e.reply spl p := by rw [hrun]
    obtain rfl : (acc.run spl p e.answers).2 = q := by rw [hrun]
    have hshown : shownBy spl p e = shown e.cmd (acc.run spl p e.answers).1 := by
      rw [shownBy, hreply]
    rw [← hreply] at hne
    have haddr := hclear acc hacc
    rw [hshown]
    simp only [shown, hacc]
    cases acc with
    | peek addr secure =>
      cases secure with
      | true => exact matched_mepRead32 hspl h haddr hne
      | false => exact matched_physRead32 h hfresh haddr hne
    | poke addr value secure =>
      cases secure with
      | true => exact matched_mepWrite32 hspl h haddr hne
      | false => exact matched_physWrite32 h hfresh hne

/-- **The monitor is a word memory**, over every run of commands that leave the bridge's data alone:
    what the commands and their replies show is a run of a plain memory, and it ends with the same
    bytes outside the bridge. -/
theorem monitor_words {spl : Spl} (hspl : spl.Copies) (es : List MonitorEvent) {p q : Physical}
    (hcomms : p.fudComms = none) (hclear : ∀ e ∈ es, e.Clear)
    (hrun : LTS.exec (monitorStep spl) p es = some q) :
    ∃ m, LTS.Follows wordStep p.mem (LTS.trace (monitorStep spl) (shownBy spl) p es) m ∧
      AgreeOutside q.mem m := by
  have hstart : WordsHeld p p.mem :=
    ⟨fun comms heq => absurd (hcomms.symm.trans heq) (by simp), fun _ _ => rfl⟩
  obtain ⟨m, hfollows, hend⟩ := LTS.exec_simulation
    (fun p e q m (h : WordsHeld p m) hc hs => monitorStep_matched hspl h hc hs) es hstart
    (LTS.Along.of_mem es fun e he _ => hclear e he) hrun
  exact ⟨m, hfollows, hend.mem⟩

/-- An access that ends is a step. -/
theorem monitorStep_of_access (spl : Spl) (p : Physical) (e : MonitorEvent) {acc : Access}
    (hacc : accessOf e.cmd = some acc) (hfresh : e.answers.Fresh p.blocks)
    (hne : (acc.run spl p e.answers).1.1 ≠ .panic) :
    monitorStep spl p e = some (acc.run spl p e.answers).2 ∧
      e.reply spl p = (acc.run spl p e.answers).1 := by
  have hrun := (handleMonitorCmd_access spl e.env p e.answers e.cmd).2 acc hacc
  have hreply : e.reply spl p = (acc.run spl p e.answers).1 := by rw [MonitorEvent.reply, hrun]
  rw [monitorStep, hreply, hrun, if_pos ⟨hfresh, hne⟩]
  exact ⟨rfl, rfl⟩

/-- A secure processor that copies, and answers 0. -/
def copier : Spl where
  isLoaded := true
  execCode := fun _ arg m => do
    let dst ← m.loadWord (arg + 4#32)
    let src ← m.loadWord (arg + 8#32)
    let n ← m.loadWord (arg + 12#32)
    let bytes ← ByteMem.read m src n.toNat
    return (ByteMem.write m dst bytes, 0#32)

theorem copier_copies : copier.Copies where
  refuses := by
    intro m m' val h hval
    simp only [copier, Option.bind_eq_bind, Option.bind_eq_some_iff, Option.pure_def,
      Option.some.injEq, Prod.mk.injEq] at h
    obtain ⟨_, -, _, -, _, -, _, -, -, rfl⟩ := h
    exact absurd hval (by decide)
  copies := by
    intro m m' val dst src n h _ _ hdst hsrc hn _
    simp only [copier, hdst, hsrc, hn, Option.bind_eq_bind, Option.bind_some,
      Option.bind_eq_some_iff, Option.pure_def, Option.some.injEq, Prod.mk.injEq] at h
    obtain ⟨bytes, hbytes, rfl, -⟩ := h
    exact ⟨bytes, hbytes, rfl⟩

/-- Nobody is attached, and the kernel knows of nothing. -/
def quietEnv : MonitorEnv where
  target := .new ⟨0⟩
  pool := .uninit
  queries := ⟨.ok [], fun _ => .error ⟨-1, ""⟩, fun _ => .ok 0, fun _ => .ok [],
    fun _ => .error ⟨-1, ""⟩, fun _ => .ok [], fun _ _ => .error ⟨-1, ""⟩⟩

/-- Memory full of zeros, with nothing mapped. -/
def zeros : Physical := ⟨fun _ => some 0#8, .none, none⟩

/-- A word is set through a page. -/
def pokes : MonitorEvent := ⟨bytesOf "poke 0x80000000 42", quietEnv, ⟨5, 0, 0⟩⟩

/-- It is printed through the bridge. -/
def peeks : MonitorEvent := ⟨bytesOf "peek 0x80000000 S", quietEnv, ⟨6, 0, 0⟩⟩

/-- Memory once the word is set. -/
def poked : Physical := ((Access.poke 0x80000000#32 42#32 false).run copier zeros ⟨5, 0, 0⟩).2

/-- Memory once it is printed. -/
def peeked : Physical := ((Access.peek 0x80000000#32 true).run copier poked ⟨6, 0, 0⟩).2

theorem monitor_words_pokesAndPeeks :
    ∃ m, LTS.exec (monitorStep copier) zeros [pokes, peeks] = some peeked ∧
      LTS.Follows wordStep zeros.mem
        [.poke 0x80000000#32 42#32, .peek 0x80000000#32 42#32] m ∧ AgreeOutside peeked.mem m := by
  have hpoke : accessOf pokes.cmd = some (.poke 0x80000000#32 42#32 false) := by
    rw [accessOf, pokes, toStr_bytesOf]
    decide +kernel
  have hpeek : accessOf peeks.cmd = some (.peek 0x80000000#32 true) := by
    rw [accessOf, peeks, toStr_bytesOf]
    decide +kernel
  obtain ⟨hpoked, hreply₁⟩ : monitorStep copier zeros pokes = some poked ∧ _ :=
    monitorStep_of_access copier zeros pokes hpoke (by decide) (by decide +kernel)
  obtain ⟨hpeeked, hreply₂⟩ : monitorStep copier poked peeks = some peeked ∧ _ :=
    monitorStep_of_access copier poked peeks hpeek (by decide +kernel) (by decide +kernel)
  have hrun : LTS.exec (monitorStep copier) zeros [pokes, peeks] = some peeked := by
    rw [LTS.exec_cons, hpoked, Option.bind_some, LTS.exec_cons, hpeeked,
      Option.bind_some, LTS.exec_nil]
  have htrace : LTS.trace (monitorStep copier) (shownBy copier) zeros [pokes, peeks] =
      [.poke 0x80000000#32 42#32, .peek 0x80000000#32 42#32] := by
    simp only [LTS.trace, hpoked, hpeeked, shownBy, shown, hpoke, hpeek, hreply₁,
      hreply₂]
    decide +kernel
  have hword : ClearOfBridge 0x80000000#32 :=
    ByteMem.range_disjoint (by decide) (by decide)
  have hclear : ∀ e ∈ [pokes, peeks], e.Clear := by
    intro e he acc hacc
    rcases List.mem_pair.mp he with rfl | rfl
    · obtain rfl := Option.some.inj (hpoke.symm.trans hacc)
      exact hword
    · obtain rfl := Option.some.inj (hpeek.symm.trans hacc)
      exact hword
  obtain ⟨m, hfollows, hagree⟩ := monitor_words copier_copies [pokes, peeks] rfl hclear hrun
  rw [htrace] at hfollows
  exact ⟨m, hrun, hfollows, hagree⟩

/-! ## From text to text -/

/-- A number as it is typed. -/
def hexWord (v : U32) : Text := '0' :: 'x' :: hexText v

/-- `peek`, as it is typed. -/
def peekText (addr : U32) : List U8 := bytesOf (String.ofList ("peek".toList ++ ' ' :: hexWord addr))

/-- `poke`, as it is typed. -/
def pokeText (addr value : U32) : List U8 :=
  bytesOf (String.ofList ("poke".toList ++ ' ' :: (hexWord addr ++ ' ' :: hexWord value)))

theorem hexWord_plain (v : U32) : ∀ c ∈ hexWord v, isAsciiWhitespace c = false := by
  have hdigit : ∀ d < 16, isAsciiWhitespace d.digitChar = false := by decide
  intro c hc
  rcases List.mem_cons.mp hc with rfl | hc
  · rfl
  rcases List.mem_cons.mp hc with rfl | hc
  · rfl
  · rw [← Bool.not_eq_true]
    intro hwhite
    refine digit_ne (fun d hd heq => ?_) (by decide) (by decide) _ hc
    rw [← heq, hdigit d hd] at hwhite
    exact absurd hwhite (by simp)

theorem parseNum_hexWord (v : U32) : parseNum (hexWord v) = some v := parseNum_hex v

theorem hexWord_ne_nil (v : U32) : hexWord v ≠ [] := List.cons_ne_nil _ _

theorem accessOf_peekText (addr : U32) : accessOf (peekText addr) = some (.peek addr false) := by
  have hplain : ∀ c ∈ "peek".toList, isAsciiWhitespace c = false := by
    simp [isAsciiWhitespace]
  rw [accessOf, peekText, toStr_bytesOf, Option.bind_some, String.toList_ofList,
    splitAsciiWhitespace_cons hplain (by decide),
    splitAsciiWhitespace_word (hexWord_plain addr) (hexWord_ne_nil addr), accessOfWords, if_pos rfl,
    peekAccess, parseNum_hexWord]
  rfl

theorem accessOf_pokeText (addr value : U32) :
    accessOf (pokeText addr value) = some (.poke addr value false) := by
  have hpeek : "poke".toList ≠ "peek".toList := by decide
  have hplain : ∀ c ∈ "poke".toList, isAsciiWhitespace c = false := by
    simp [isAsciiWhitespace]
  rw [accessOf, pokeText, toStr_bytesOf, Option.bind_some, String.toList_ofList,
    splitAsciiWhitespace_cons hplain (by decide),
    splitAsciiWhitespace_cons (hexWord_plain addr) (hexWord_ne_nil addr),
    splitAsciiWhitespace_word (hexWord_plain value) (hexWord_ne_nil value), accessOfWords,
    if_neg hpeek, if_pos rfl, pokeAccess, parseNum_hexWord, parseNum_hexWord]
  rfl

/-- The kernel's calls all go through. -/
def MapAnswers.Good (a : MapAnswers) : Prop :=
  a.alloc.slt 0#32 = false ∧ a.base.slt 0#32 = false ∧ a.free.slt 0#32 = false

/-- An access that goes through. -/
theorem withPage_good {α : Type} (p : Physical) (addr : U32) {a : MapAnswers} (ha : a.Good)
    (access : MemBlock → U32 → PhysMem → Option (α × PhysMem)) (value : α) (mem : PhysMem)
    (haccess : access ⟨a.alloc, addr &&& ~~~0xfff#32, 0x1000⟩ (addr &&& 0xfff#32) p.mem =
      some (value, mem)) :
    (withPage p addr a access).1 = .ok value ∧ (withPage p addr a access).2.mem = mem := by
  obtain ⟨halloc, hbase, hfree⟩ := ha
  simp only [withPage, mapPaddr, halloc, hbase, hfree, Bool.false_eq_true, if_false, haccess]
  exact ⟨trivial, trivial⟩

/-- An aligned word that is there is read. -/
theorem physRead32_good {p : Physical} {a : MapAnswers} (ha : a.Good) {addr value : U32}
    (haligned : addr.toNat % 4 = 0) (hload : p.mem.loadWord addr = some value) :
    (physRead32 p addr a).1 = .ok value := by
  refine (withPage_good p addr ha _ value p.mem ?_).1
  rw [MemBlock.readVolatile, page_word, if_pos haligned, Option.bind_some, hload]
  rfl

/-- An aligned word that is there is written. -/
theorem physWrite32_good {p : Physical} {a : MapAnswers} (ha : a.Good) {addr : U32}
    (haligned : addr.toNat % 4 = 0) (hmapped : (p.mem.loadWord addr).isSome = true) (value : U32) :
    (physWrite32 p addr value a).1 = .ok () ∧
      (physWrite32 p addr value a).2.mem = p.mem.setWord addr value := by
  have hstored : p.mem.storeWord addr value = some (p.mem.setWord addr value) := by
    rw [PhysMem.loadWord, Option.isSome_map] at hmapped
    rw [PhysMem.storeWord, if_pos hmapped]
  refine withPage_good p addr ha _ () (p.mem.setWord addr value) ?_
  rw [MemBlock.writeVolatile, page_word, if_pos haligned, Option.bind_some, hstored]
  rfl

/-- **What `poke` writes `peek` prints**: of an aligned word that memory has, where the kernel's calls
    go through, whatever else the two commands look at. -/
theorem poke_peek (spl : Spl) (env env' : MonitorEnv) (p : Physical) {a b : MapAnswers}
    (ha : a.Good) (hb : b.Good) {addr : U32} (haligned : addr.toNat % 4 = 0)
    (hmapped : (p.mem.loadWord addr).isSome = true) (value : U32) :
    let poked := handleMonitorCmd spl env p a (pokeText addr value)
    poked.1 = (.ok (), "OK\n".toList) ∧
      (handleMonitorCmd spl env' poked.2 b (peekText addr)).1 =
        (.ok (), hexText value ++ ['\n']) := by
  have hpoke := (handleMonitorCmd_access spl env p a (pokeText addr value)).2 _
    (accessOf_pokeText addr value)
  obtain ⟨hres, hmem⟩ := physWrite32_good ha haligned hmapped value
  rw [hpoke]
  show (pokeReply (physWrite32 p addr value a)).1 = _ ∧
    (handleMonitorCmd spl env' (pokeReply (physWrite32 p addr value a)).2 b (peekText addr)).1 = _
  cases hwrite : physWrite32 p addr value a with
  | mk res q =>
    rw [hwrite] at hres hmem
    obtain rfl : res = .ok () := hres
    refine ⟨rfl, ?_⟩
    have hpeek := (handleMonitorCmd_access spl env' q b (peekText addr)).2 _
      (accessOf_peekText addr)
    have hload : q.mem.loadWord addr = some value := by
      rw [show q.mem = p.mem.setWord addr value from hmem, PhysMem.loadWord_setWord]
    have hres' := physRead32_good hb haligned hload
    show (handleMonitorCmd spl env' q b (peekText addr)).1 = _
    rw [hpeek]
    show (peekReply (physRead32 q addr b)).1 = _
    cases hread : physRead32 q addr b with
    | mk res q' =>
      rw [hread] at hres'
      obtain rfl : res = .ok value := hres'
      rfl

theorem poke_peek_zeros :
    (handleMonitorCmd copier quietEnv zeros ⟨5, 0, 0⟩ (pokeText 0x80000000#32 42#32)).1 =
        (.ok (), "OK\n".toList) ∧
      (handleMonitorCmd copier quietEnv
        (handleMonitorCmd copier quietEnv zeros ⟨5, 0, 0⟩ (pokeText 0x80000000#32 42#32)).2
        ⟨6, 0, 0⟩ (peekText 0x80000000#32)).1 = (.ok (), hexText 42#32 ++ ['\n']) :=
  poke_peek copier quietEnv quietEnv zeros ⟨rfl, rfl, rfl⟩ ⟨rfl, rfl, rfl⟩ (by decide)
    (by decide +kernel) 42#32

/-! ## Memory blocks -/

/-- A block that is left behind: it is made, and what has to follow fails. -/
def MapAnswers.lost (a : MapAnswers) (goes : Bool) : Option SceUID :=
  if a.alloc.slt 0#32 || goes then none else some a.alloc

/-- The block that a command leaves behind: of a page, one that has no base or is not freed; of the
    shared memory, one that has no base. -/
def lostBlock (spl : Spl) (p : Physical) (e : MonitorEvent) : Option SceUID :=
  match accessOf e.cmd with
  | none => none
  | some acc =>
    if acc.secure then
      if spl.isLoaded && p.fudComms.isNone then e.answers.lost (!e.answers.base.slt 0#32) else none
    else e.answers.lost (!e.answers.base.slt 0#32 && !e.answers.free.slt 0#32)

/-- The block of the shared memory. -/
def commsBlock (p : Physical) (_ : Unit) : Option SceUID := p.fudComms.map (·.uid)

/-- The blocks in use are the shared one and the lost ones. -/
def BlocksHeld (p : Physical) (lost : List SceUID) : Prop := Ledger p.blocks (commsBlock p) lost

namespace BlocksHeld

variable {spl : Spl} {p q : Physical} {lost : List SceUID} {a : MapAnswers}

/-- Nothing changes. -/
theorem stay (h : BlocksHeld p lost) (hblocks : q.blocks = p.blocks)
    (hcomms : q.fudComms = p.fudComms) : BlocksHeld q (lost ++ []) := by
  rw [List.append_nil, BlocksHeld, hblocks, show commsBlock q = commsBlock p by
    funext u; rw [commsBlock, commsBlock, hcomms]]
  exact h

/-- A block is left behind. -/
theorem leave (h : BlocksHeld p lost) (hfresh : a.Fresh p.blocks) (halloc : a.alloc.slt 0#32 = false)
    (hblocks : q.blocks = p.blocks.give a.alloc) (hcomms : q.fudComms = p.fudComms) :
    BlocksHeld q (lost ++ [a.alloc]) := by
  rw [BlocksHeld, hblocks, show commsBlock q = commsBlock p by
    funext u; rw [commsBlock, commsBlock, hcomms]]
  exact Ledger.lose h (hfresh halloc)

/-- An access through a page. -/
theorem page (h : BlocksHeld p lost) (hfresh : a.Fresh p.blocks) {α : Type} {addr : U32}
    {access : PhysMem → Option (α × PhysMem)} {res : Outcome SceError α}
    (heffect : PageEffect p addr a access res q) (hne : res ≠ .panic) :
    BlocksHeld q (lost ++ (a.lost (!a.base.slt 0#32 && !a.free.slt 0#32)).toList) := by
  cases heffect with
  | fault => exact absurd rfl hne
  | noBlock halloc =>
    rw [MapAnswers.lost, halloc]
    exact h.stay rfl rfl
  | noBase halloc hbase =>
    rw [MapAnswers.lost, halloc, hbase]
    exact h.leave hfresh halloc rfl rfl
  | left value mem halloc hbase hfree =>
    rw [MapAnswers.lost, halloc, hbase, hfree]
    exact h.leave hfresh halloc rfl rfl
  | freed value mem halloc hbase hfree =>
    rw [MapAnswers.lost, halloc, hbase, hfree]
    exact h.stay rfl rfl

/-- The shared memory is found, or mapped. -/
theorem comms (h : BlocksHeld p lost) (hfresh : a.Fresh p.blocks) {res : Except SceError MemBlock}
    (heffect : CommsEffect p a res q) :
    BlocksHeld q (lost ++
      (if p.fudComms.isNone then a.lost (!a.base.slt 0#32) else none).toList) := by
  cases heffect with
  | mapped block hcomms =>
    rw [hcomms]
    exact h.stay rfl rfl
  | noBlock hcomms halloc =>
    rw [hcomms, MapAnswers.lost, halloc]
    exact h.stay rfl rfl
  | noBase hcomms halloc hbase =>
    rw [hcomms, MapAnswers.lost, halloc, hbase]
    exact h.leave hfresh halloc rfl hcomms.symm
  | init hcomms halloc hbase =>
    rw [hcomms, MapAnswers.lost, halloc, hbase]
    show BlocksHeld _ (lost ++ [])
    rw [List.append_nil]
    have hidle : commsBlock p () = none := by rw [commsBlock, hcomms]; rfl
    have hgive := Ledger.give h (hfresh halloc) hidle
    have hholds : Function.update (commsBlock p) () (some a.alloc) = fun _ => some a.alloc := by
      funext u
      exact Function.update_self ..
    rw [hholds] at hgive
    exact hgive

/-- An access through the bridge. -/
theorem bridge (h : BlocksHeld p lost) (hfresh : a.Fresh p.blocks) (execAddr : U32)
    (args : List U32) :
    BlocksHeld (fudBridgeExec spl p execAddr args a).2 (lost ++
      (if spl.isLoaded && p.fudComms.isNone then a.lost (!a.base.slt 0#32) else none).toList) := by
  obtain ⟨hblocks, hcomms⟩ := fudBridgeExec_blocks spl p execAddr args a
  cases hloaded : spl.isLoaded with
  | false =>
    rw [hloaded] at hblocks hcomms
    exact h.stay hblocks hcomms
  | true =>
    rw [hloaded] at hblocks hcomms
    have hfound := h.comms hfresh (fudCommsOf_effect p a)
    rw [BlocksHeld, hblocks, show commsBlock (fudBridgeExec spl p execAddr args a).2 =
      commsBlock (fudCommsOf p a).2 by funext u; rw [commsBlock, commsBlock, hcomms]; rfl]
    rw [Bool.true_and]
    exact hfound

/-- **Every command keeps the account of the blocks.** -/
theorem step (h : BlocksHeld p lost) {e : MonitorEvent} (hs : monitorStep spl p e = some q) :
    BlocksHeld q (lost ++ (lostBlock spl p e).toList) := by
  obtain ⟨hfresh, ⟨hnone, hsame⟩ | ⟨acc, hacc, hrun, hne⟩⟩ := monitorStep_access hs
  · have hlost : lostBlock spl p e = none := by simp only [lostBlock, hnone]
    rw [hlost, hsame]
    exact h.stay rfl rfl
  have hreply : (acc.run spl p e.answers).1 = e.reply spl p := by rw [hrun]
  have hphysical : (acc.run spl p e.answers).2 = q := by rw [hrun]
  have hlost : lostBlock spl p e = if acc.secure then
      if spl.isLoaded && p.fudComms.isNone then e.answers.lost (!e.answers.base.slt 0#32) else none
      else e.answers.lost (!e.answers.base.slt 0#32 && !e.answers.free.slt 0#32) := by
    simp only [lostBlock, hacc]
  rw [← hreply] at hne
  rw [hlost, ← hphysical]
  cases acc with
  | peek addr secure =>
    cases secure with
    | true =>
      have hpeek : (peekReply (mepRead32 spl p addr e.answers)).2 =
          (mepRead32 spl p addr e.answers).2 := by
        rcases mepRead32 spl p addr e.answers with ⟨_ | _ | _, q⟩ <;> rfl
      show BlocksHeld (peekReply (mepRead32 spl p addr e.answers)).2 _
      rw [hpeek, mepRead32_physical]
      exact h.bridge hfresh _ _
    | false =>
      have heffect := physRead32_effect addr hfresh
      show BlocksHeld (peekReply (physRead32 p addr e.answers)).2 _
      cases hres : physRead32 p addr e.answers with
      | mk res q =>
        have hne' : (peekReply (physRead32 p addr e.answers)).1.1 ≠ .panic := hne
        rw [hres] at heffect hne'
        cases res with
        | ok value => exact h.page hfresh heffect (by simp)
        | err err => exact h.page hfresh heffect (by simp)
        | panic => exact absurd rfl hne'
  | poke addr value secure =>
    cases secure with
    | true =>
      have hpoke : (pokeReply (mepWrite32 spl p addr value e.answers)).2 =
          (mepWrite32 spl p addr value e.answers).2 := by
        rcases mepWrite32 spl p addr value e.answers with ⟨_ | _ | _, q⟩ <;> rfl
      show BlocksHeld (pokeReply (mepWrite32 spl p addr value e.answers)).2 _
      rw [hpoke, mepWrite32_physical]
      exact h.bridge hfresh _ _
    | false =>
      have heffect := physWrite32_effect addr value hfresh
      show BlocksHeld (pokeReply (physWrite32 p addr value e.answers)).2 _
      cases hres : physWrite32 p addr value e.answers with
      | mk res q =>
        have hne' : (pokeReply (physWrite32 p addr value e.answers)).1.1 ≠ .panic := hne
        rw [hres] at heffect hne'
        cases res with
        | ok value => exact h.page hfresh heffect (by simp)
        | err err => exact h.page hfresh heffect (by simp)
        | panic => exact absurd rfl hne'

end BlocksHeld

/-- Nothing is mapped. -/
def Physical.start (mem : PhysMem) : Physical := ⟨mem, .none, none⟩

/-- **The memory blocks, over every run** of commands, whatever fails: none is freed that is not in
    use, and those in use are that of the shared memory and the lost ones, which are not it. -/
theorem monitor_blocks (spl : Spl) (mem : PhysMem) (es : List MonitorEvent) {q : Physical}
    (hrun : LTS.exec (monitorStep spl) (.start mem) es = some q) :
    let lost := LTS.trace (monitorStep spl) (lostBlock spl) (.start mem) es
    q.blocks.mistakes = 0 ∧
      (∀ uid, q.blocks.used uid = true ↔ (∃ comms, q.fudComms = some comms ∧ comms.uid = uid) ∨
        uid ∈ lost) ∧
      ∀ comms, q.fudComms = some comms → comms.uid ∉ lost := by
  have hstart : BlocksHeld (.start mem) [] := Ledger.start
  have hend := LTS.exec_traced (fun p e q lost (h : BlocksHeld p lost) hs => h.step hs) es hstart
    hrun
  rw [List.nil_append] at hend
  refine ⟨Held.mistakes hend, fun uid => ?_, fun comms hcomms => ?_⟩
  · rw [Ledger.used_iff hend uid]
    refine or_congr_left ?_
    simp [commsBlock]
  · have hown : commsBlock q () = some comms.uid := by rw [commsBlock, hcomms]; rfl
    exact Ledger.apart hend hown

/-- A `poke` whose page can not be freed. -/
def leftBehind : MonitorEvent := ⟨pokeText 0x80000000#32 42#32, quietEnv, ⟨5, 0, -1⟩⟩

theorem monitor_blocks_leftBehind :
    ∃ q, LTS.exec (monitorStep copier) (.start zeros.mem) [leftBehind] = some q ∧
      q.blocks.mistakes = 0 ∧ q.fudComms = none ∧ ∀ uid, q.blocks.used uid = true ↔ uid = 5#32 := by
  obtain ⟨hstep, -⟩ := monitorStep_of_access copier (.start zeros.mem) leftBehind
    (accessOf_pokeText _ _) (by decide) (by decide +kernel)
  have hrun : LTS.exec (monitorStep copier) (.start zeros.mem) [leftBehind] =
      some (Access.run copier (.start zeros.mem) leftBehind.answers
        (.poke 0x80000000#32 42#32 false)).2 := by
    rw [LTS.exec_cons, hstep, Option.bind_some, LTS.exec_nil]
  obtain ⟨hmistakes, hused, -⟩ := monitor_blocks copier zeros.mem [leftBehind] hrun
  have hcomms : (Access.run copier (.start zeros.mem) leftBehind.answers
      (.poke 0x80000000#32 42#32 false)).2.fudComms = none := by decide +kernel
  have hlost : LTS.trace (monitorStep copier) (lostBlock copier) (.start zeros.mem) [leftBehind] =
      [5#32] := by
    have hacc : accessOf leftBehind.cmd = some (.poke 0x80000000#32 42#32 false) :=
      accessOf_pokeText _ _
    simp only [LTS.trace, hstep, lostBlock, hacc]
    decide +kernel
  rw [hlost] at hused
  refine ⟨_, hrun, hmistakes, hcomms, fun uid => ?_⟩
  rw [hused uid]
  constructor
  · rintro (⟨comms, heq, -⟩ | hmem)
    · exact absurd (hcomms.symm.trans heq) (by simp)
    · exact List.mem_singleton.mp hmem
  · rintro rfl
    exact .inr (List.mem_singleton.mpr rfl)

end VitaGdb
