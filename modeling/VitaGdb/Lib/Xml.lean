/-
  XML documents: a reader of the elements, attributes and text of a well-formed one.

  A document is read in two steps: into tokens (tags, text, what is skipped), and from these into
  the tree of its root element.  Both fail where the document is not well formed: a character that
  XML has not, a tag or a reference that is not one, two attributes of one name, tags that do not
  match, something beside the root.  Documents that begin with an XML declaration or a document type
  declaration are left out, so the only entities are the five predefined ones.

  An attribute's value is not what stands between the quotes: line ends and white space become
  blanks, and references what they stand for.  `attValue_eq_self` and `plain_of_attValue` say which
  texts are read back as they are.
-/
import Mathlib.Data.List.TakeWhile
import Mathlib.Tactic.Common

namespace Xml

/-! ## Characters -/

/-- `Char`. -/
def isChar (n : Nat) : Bool :=
  n = 0x9 || n = 0xA || n = 0xD || 0x20 ≤ n && n ≤ 0xD7FF || 0xE000 ≤ n && n ≤ 0xFFFD ||
    0x10000 ≤ n && n ≤ 0x10FFFF

/-- A character of white space. -/
def isSpace (c : Char) : Bool := c = ' ' || c = '\t' || c = '\r' || c = '\n'

/-- `NameStartChar`. -/
def isNameStart (c : Char) : Bool :=
  [(0x3A, 0x3A), (0x41, 0x5A), (0x5F, 0x5F), (0x61, 0x7A), (0xC0, 0xD6), (0xD8, 0xF6), (0xF8, 0x2FF),
    (0x370, 0x37D), (0x37F, 0x1FFF), (0x200C, 0x200D), (0x2070, 0x218F), (0x2C00, 0x2FEF),
    (0x3001, 0xD7FF), (0xF900, 0xFDCF), (0xFDF0, 0xFFFD), (0x10000, 0xEFFFF)].any
    fun range => range.1 ≤ c.toNat && c.toNat ≤ range.2

/-- `NameChar`. -/
def isNameChar (c : Char) : Bool :=
  isNameStart c || [(0x2D, 0x2E), (0x30, 0x39), (0xB7, 0xB7), (0x300, 0x36F), (0x203F, 0x2040)].any
    fun range => range.1 ≤ c.toNat && c.toNat ≤ range.2

/-- A line end is one character, however it is written. -/
def lineEnds : List Char → List Char
  | '\r' :: '\n' :: cs => '\n' :: lineEnds cs
  | '\r' :: cs => '\n' :: lineEnds cs
  | c :: cs => c :: lineEnds cs
  | [] => []

/-! ## References -/

/-- The value of a digit. -/
def digit (base : Nat) (c : Char) : Option Nat :=
  let n :=
    if '0' ≤ c ∧ c ≤ '9' then c.toNat - '0'.toNat
    else if 'a' ≤ c ∧ c ≤ 'f' then c.toNat - 'a'.toNat + 10
    else if 'A' ≤ c ∧ c ≤ 'F' then c.toNat - 'A'.toNat + 10
    else base
  if n < base then some n else none

/-- The value of the digits, behind those that make `n`. -/
def digits (base : Nat) : Nat → List Char → Option Nat
  | n, [] => some n
  | n, c :: cs =>
    match digit base c with
    | none => none
    | some d => digits base (base * n + d) cs

/-- A number has digits. -/
def number (base : Nat) (cs : List Char) : Option Nat := if cs = [] then none else digits base 0 cs

/-- The character of a number. -/
def character (n : Nat) : Option Char := if isChar n then some (Char.ofNat n) else none

/-- What a reference stands for, by what it has between `&` and `;`. -/
def entity : List Char → Option Char
  | ['l', 't'] => some '<'
  | ['g', 't'] => some '>'
  | ['a', 'm', 'p'] => some '&'
  | ['a', 'p', 'o', 's'] => some '\''
  | ['q', 'u', 'o', 't'] => some '"'
  | '#' :: 'x' :: cs => (number 16 cs).bind character
  | '#' :: cs => (number 10 cs).bind character
  | _ => none

/-- A text with its references replaced, and its other characters by `literal`.  `body` is what has
    been read of a reference. -/
def decode (literal : Char → Option Char) : Option (List Char) → List Char → Option (List Char)
  | none, [] => some []
  | some _, [] => none
  | none, c :: cs =>
    if c = '&' then decode literal (some []) cs
    else
      match literal c with
      | none => none
      | some d => (decode literal none cs).map (d :: ·)
  | some body, c :: cs =>
    if c = ';' then
      match entity body with
      | none => none
      | some d => (decode literal none cs).map (d :: ·)
    else decode literal (some (body ++ [c])) cs

/-! ## Tokens -/

/-- `Name`. -/
def name : List Char → Option (List Char × List Char)
  | [] => none
  | c :: cs =>
    if isNameStart c then some (c :: cs.takeWhile isNameChar, cs.dropWhile isNameChar) else none

/-- The text before the first `stop`, and what comes behind it. -/
def upTo (stop : List Char) : List Char → Option (List Char × List Char)
  | [] => none
  | c :: cs =>
    if stop <+: c :: cs then some ([], (c :: cs).drop stop.length)
    else (upTo stop cs).map (Prod.map (c :: ·) id)

/-- What a character that stands for itself is in an attribute's value. -/
def attChar (c : Char) : Option Char :=
  if c = '<' ∨ isChar c.toNat = false then none else some (if isSpace c then ' ' else c)

/-- `AttValue`, behind its first quote. -/
def attValue (quote : Char) (cs : List Char) : Option (List Char × List Char) :=
  match cs.dropWhile (· ≠ quote) with
  | [] => none
  | _ :: rest =>
    (decode attChar none (lineEnds (cs.takeWhile (· ≠ quote)))).map fun value => (value, rest)

/-- `S Attribute`. -/
def attr : List Char → Option ((List Char × List Char) × List Char)
  | [] => none
  | c :: cs =>
    if isSpace c then
      match name (cs.dropWhile isSpace) with
      | none => none
      | some (n, cs) =>
        match cs.dropWhile isSpace with
        | '=' :: cs =>
          match cs.dropWhile isSpace with
          | '"' :: cs => (attValue '"' cs).map (Prod.map (n, ·) id)
          | '\'' :: cs => (attValue '\'' cs).map (Prod.map (n, ·) id)
          | _ => none
        | _ => none
    else none

/-- As many items as there are. -/
def many {α : Type} (item : List Char → Option (α × List Char)) (cs : List Char) :
    List α × List Char :=
  match item cs with
  | none => ([], cs)
  | some (a, rest) =>
    if rest.length < cs.length then (a :: (many item rest).1, (many item rest).2) else ([a], rest)
termination_by cs.length

/-- The parts of a document. -/
inductive Token where
  | start (name : List Char) (attrs : List (List Char × List Char))
  | empty (name : List Char) (attrs : List (List Char × List Char))
  | close (name : List Char)
  | text (chars : List Char)
  /-- White space that is written as such. -/
  | space (chars : List Char)
  /-- A comment or a processing instruction. -/
  | skip
  deriving DecidableEq

/-- `STag` and `EmptyElemTag`, behind their `<`. -/
def startTag (cs : List Char) : Option (Token × List Char) :=
  match name cs with
  | none => none
  | some (n, cs) =>
    let (attrs, cs) := many attr cs
    if (attrs.map Prod.fst).Nodup then
      match cs.dropWhile isSpace with
      | '>' :: rest => some (.start n attrs, rest)
      | '/' :: '>' :: rest => some (.empty n attrs, rest)
      | _ => none
    else none

/-- `ETag`, behind its `</`. -/
def endTag (cs : List Char) : Option (Token × List Char) :=
  match name cs with
  | none => none
  | some (n, cs) =>
    match cs.dropWhile isSpace with
    | '>' :: rest => some (.close n, rest)
    | _ => none

/-- `PI`, behind its `<?`. -/
def instruction (cs : List Char) : Option (Token × List Char) :=
  match name cs with
  | none => none
  | some (n, cs) =>
    match upTo ['?', '>'] cs with
    | none => none
    | some (body, rest) =>
      if n.map Char.toLower ≠ ['x', 'm', 'l'] ∧ body.all (isChar ·.toNat) ∧
          (body.take 1).all isSpace then some (.skip, rest)
      else none

/-- `Comment` and `CDSect`, behind their `<!`. -/
def declaration (cs : List Char) : Option (Token × List Char) :=
  match cs with
  | '-' :: '-' :: cs =>
    match upTo ['-', '-'] cs with
    | some (body, '>' :: rest) => if body.all (isChar ·.toNat) then some (.skip, rest) else none
    | _ => none
  | '[' :: 'C' :: 'D' :: 'A' :: 'T' :: 'A' :: '[' :: cs =>
    match upTo [']', ']', '>'] cs with
    | some (body, rest) =>
      if body.all (isChar ·.toNat) then some (.text (lineEnds body), rest) else none
    | none => none
  | _ => none

/-- `CharData` and `Reference`. -/
def charData (cs : List Char) : Option (Token × List Char) :=
  let raw := lineEnds (cs.takeWhile (· ≠ '<'))
  let rest := cs.dropWhile (· ≠ '<')
  if raw.all isSpace then some (.space raw, rest)
  else if upTo [']', ']', '>'] raw = none then
    (decode (fun c => if isChar c.toNat then some c else none) none raw).map fun chars =>
      (.text chars, rest)
  else none

/-- The next part of a document. -/
def token : List Char → Option (Token × List Char)
  | [] => none
  | '<' :: '/' :: cs => endTag cs
  | '<' :: '?' :: cs => instruction cs
  | '<' :: '!' :: cs => declaration cs
  | '<' :: cs => startTag cs
  | cs => charData cs

/-- All parts of a document. -/
def tokens (cs : List Char) : Option (List Token) :=
  match many token cs with
  | (toks, []) => some toks
  | _ => none

/-! ## The tree -/

/-- An element, or a text in one. -/
inductive Node where
  | element (name : List Char) (attrs : List (List Char × List Char)) (children : List Node)
  | text (chars : List Char)

/-- An element that has not been closed. -/
structure Frame where
  name : List Char
  attrs : List (List Char × List Char)
  children : List Node

/-- The element, with one more child. -/
def Frame.add (frame : Frame) (node : Node) : Frame :=
  { frame with children := frame.children ++ [node] }

/-- The element, closed. -/
def Frame.node (frame : Frame) : Node := .element frame.name frame.attrs frame.children

/-- `Misc`: what may stand beside the root. -/
def Token.misc : Token → Bool
  | .space _ | .skip => true
  | _ => false

/-- The root, from the open elements, the innermost first, and what follows. -/
def build : List Frame → List Token → Option Node
  | _, [] => none
  | stack, .start name attrs :: toks => build (⟨name, attrs, []⟩ :: stack) toks
  | stack, .skip :: toks => build stack toks
  | [], .empty name attrs :: toks =>
    if toks.all Token.misc then some (.element name attrs []) else none
  | [], .space _ :: toks => build [] toks
  | [], .text _ :: _ => none
  | [], .close _ :: _ => none
  | frame :: stack, .empty name attrs :: toks =>
    build (frame.add (.element name attrs []) :: stack) toks
  | frame :: stack, .space chars :: toks => build (frame.add (.text chars) :: stack) toks
  | frame :: stack, .text chars :: toks => build (frame.add (.text chars) :: stack) toks
  | [frame], .close name :: toks =>
    if name = frame.name ∧ toks.all Token.misc then some frame.node else none
  | frame :: parent :: stack, .close name :: toks =>
    if name = frame.name then build (parent.add frame.node :: stack) toks else none

/-- The root, from the open elements and the text that follows. -/
def within (stack : List Frame) (cs : List Char) : Option Node := (tokens cs).bind (build stack)

/-- The root of a well-formed document. -/
def parse (doc : List Char) : Option Node := within [] doc

/-! ## Values that are read back as they are -/

/-- A character that stands for itself between double quotes. -/
def Plain (c : Char) : Prop := isChar c.toNat = true ∧ c ∉ ['\t', '\n', '\r', '&', '<', '"']

variable {literal : Char → Option Char} {c : Char} {cs v rest rest' : List Char}

instance : DecidablePred Plain := fun _ => inferInstanceAs (Decidable (_ ∧ _))

theorem attChar_eq_self_iff : attChar c = some c ↔
    isChar c.toNat = true ∧ c ∉ ['\t', '\n', '\r', '<'] := by
  have hspace : (if isSpace c = true then ' ' else c) = c ↔ c ∉ ['\t', '\n', '\r'] := by
    by_cases h : isSpace c = true
    · rw [if_pos h]
      rw [isSpace] at h
      constructor
      · rintro rfl
        decide
      · intro hc
        simp only [List.mem_cons, List.not_mem_nil, not_or] at hc
        simpa [hc.1, hc.2.1, hc.2.2.1, eq_comm] using h
    · rw [if_neg h]
      simp [isSpace] at h
      simp [h]
  rw [attChar]
  split
  · next h => grind
  · next h => rw [Option.some.injEq, hspace]; grind

theorem length_lineEnds_le (cs : List Char) : (lineEnds cs).length ≤ cs.length := by
  fun_induction lineEnds cs with
  | case1 cs ih =>
    simp only [List.length_cons]
    omega
  | case2 cs _ ih => simpa using ih
  | case3 c cs _ _ ih => simpa using ih
  | case4 => exact Nat.le_refl _

theorem lineEnds_eq_self (h : '\r' ∉ cs) : lineEnds cs = cs := by
  fun_induction lineEnds cs with
  | case1 cs ih => exact absurd List.mem_cons_self h
  | case2 cs _ ih => exact absurd List.mem_cons_self h
  | case3 c cs _ _ ih => rw [ih fun hmem => h (List.mem_cons_of_mem _ hmem)]
  | case4 => rfl

/-- Characters that stand for themselves. -/
theorem decode_eq_self (h : ∀ c ∈ cs, c ≠ '&' ∧ literal c = some c) :
    decode literal none cs = some cs := by
  induction cs with
  | nil => rfl
  | cons c cs ih =>
    have hc := h c List.mem_cons_self
    rw [decode, if_neg hc.1, hc.2, ih fun c hmem => h c (List.mem_cons_of_mem _ hmem)]
    rfl

/-- A text does not get longer, and gets shorter by each reference. -/
theorem decode_length {body : Option (List Char)} (h : decode literal body cs = some v) :
    v.length ≤ cs.length ∧
      (body = none → v.length = cs.length → '&' ∉ cs ∧ cs.map literal = v.map some) := by
  fun_induction decode literal body cs generalizing v with
  | case1 =>
    obtain rfl := Option.some.inj h
    exact ⟨Nat.le_refl _, fun _ _ => ⟨by simp, rfl⟩⟩
  | case2 => exact absurd h (by simp)
  | case3 cs ih =>
    -- the reference is longer than what it stands for
    have hle := (ih h).1
    rw [List.length_cons]
    exact ⟨by omega, fun _ _ => by omega⟩
  | case4 => exact absurd h (by simp)
  | case5 c cs hc d hd ih =>
    obtain ⟨v', hv', rfl⟩ := Option.map_eq_some_iff.mp h
    obtain ⟨hle, heq⟩ := ih hv'
    simp only [List.length_cons]
    refine ⟨by omega, fun _ hlength => ?_⟩
    obtain ⟨hamp, hmap⟩ := heq rfl (by omega)
    refine ⟨?_, by rw [List.map_cons, List.map_cons, hd, hmap]⟩
    rw [List.mem_cons, not_or]
    exact ⟨fun h => hc h.symm, hamp⟩
  | case6 => exact absurd h (by simp)
  | case7 body cs d hd ih =>
    obtain ⟨v', hv', rfl⟩ := Option.map_eq_some_iff.mp h
    have hle := (ih hv').1
    simp only [List.length_cons]
    exact ⟨by omega, fun h => absurd h (by simp)⟩
  | case8 body c cs hc ih =>
    have hle := (ih h).1
    rw [List.length_cons]
    exact ⟨by omega, fun h => absurd h (by simp)⟩

/-- The value of a plain text is that text. -/
theorem attValue_eq_self (h : ∀ c ∈ v, Plain c) :
    attValue '"' (v ++ '"' :: rest) = some (v, rest) := by
  have hquote : ∀ c ∈ v, decide (c ≠ '"') = true := by
    intro c hc
    have := (h c hc).2
    simp_all
  have hends : '\r' ∉ v := fun hmem => (h _ hmem).2 (by simp)
  have hvalue : decode attChar none v = some v := by
    refine decode_eq_self fun c hc => ?_
    obtain ⟨hchar, hmem⟩ := h c hc
    simp only [List.mem_cons, List.not_mem_nil, not_or] at hmem
    exact ⟨hmem.2.2.2.1, attChar_eq_self_iff.mpr ⟨hchar, by simp [hmem]⟩⟩
  rw [attValue, List.dropWhile_append_of_pos hquote, List.takeWhile_append_of_pos hquote,
    List.dropWhile_cons_of_neg (by simp), List.takeWhile_cons_of_neg (by simp), List.append_nil,
    lineEnds_eq_self hends, hvalue]
  rfl

/-- A value is what its quotes hold, decoded. -/
theorem decode_of_attValue {value : List Char}
    (h : attValue '"' (v ++ '"' :: rest) = some (value, rest')) :
    decode attChar none (lineEnds (v.takeWhile (· ≠ '"'))) = some value := by
  have hraw : (v ++ '"' :: rest).takeWhile (· ≠ '"') = v.takeWhile (· ≠ '"') := by
    rw [List.takeWhile_append]
    split
    · next hall =>
      rw [List.takeWhile_cons_of_neg (by simp), List.append_nil,
        (List.takeWhile_sublist _).eq_of_length hall]
    · rfl
  rw [attValue, hraw] at h
  split at h
  · exact absurd h (by simp)
  · obtain ⟨value', hdecode, heq⟩ := Option.map_eq_some_iff.mp h
    obtain ⟨rfl, -⟩ := Prod.mk.inj heq
    exact hdecode

/-- No line end is left in a value, except by a reference. -/
theorem attChar_ne_return {d : Char} (h : attChar d = some c) : c ≠ '\r' := by
  rw [attChar] at h
  split at h
  · exact absurd h (by simp)
  · obtain rfl := Option.some.inj h
    split
    · decide
    · next hspace =>
      rintro rfl
      exact hspace rfl

/-- **Only a plain text** is read back as it is. -/
theorem plain_of_attValue (h : attValue '"' (v ++ '"' :: rest) = some (v, rest')) :
    ∀ c ∈ v, Plain c := by
  -- nothing may be lost: not at the first quote, by a line end, or by a reference
  have hdecode := decode_of_attValue h
  obtain ⟨hle, hliteral⟩ := decode_length hdecode
  have hends := length_lineEnds_le (v.takeWhile (· ≠ '"'))
  have htake := (List.takeWhile_sublist (l := v) (· ≠ '"')).length_le
  have hwhole : v.takeWhile (· ≠ '"') = v :=
    (List.takeWhile_sublist _).eq_of_length (by omega)
  rw [hwhole] at hliteral hends hle
  obtain ⟨hamp, hmap⟩ := hliteral rfl (by omega)
  -- so every character is what a character of the text is read as
  have hreturn : '\r' ∉ v := by
    intro hmem
    have hread : some '\r' ∈ (lineEnds v).map attChar := by
      rw [hmap]
      exact List.mem_map_of_mem hmem
    obtain ⟨d, -, hd⟩ := List.mem_map.mp hread
    exact attChar_ne_return hd rfl
  rw [lineEnds_eq_self hreturn] at hamp hmap
  intro c hc
  obtain ⟨hchar, hmem⟩ := attChar_eq_self_iff.mp (List.map_inj_left.mp hmap c hc)
  have hquote : c ≠ '"' := by simpa using List.takeWhile_eq_self_iff.mp hwhole c hc
  have hne : c ≠ '&' := fun h => hamp (h ▸ hc)
  simp only [List.mem_cons, List.not_mem_nil, not_or, not_false_eq_true, and_true] at hmem
  exact ⟨hchar, by simp [hmem, hquote, hne]⟩

example : attValue '"' "a&#x26;\n\"/>".toList = some ("a& ".toList, "/>".toList) := rfl

/-! ## Numbers -/

theorem digits_append (base n : Nat) (cs cs' : List Char) :
    digits base n (cs ++ cs') = (digits base n cs).bind fun n => digits base n cs' := by
  induction cs generalizing n with
  | nil => rfl
  | cons c cs ih =>
    rw [List.cons_append, digits, digits]
    cases digit base c with
    | none => rfl
    | some d => exact ih _

theorem digit_digitChar : ∀ d < 16, digit 16 d.digitChar = some d := by decide

/-- A number is read from its hexadecimal digits. -/
theorem digits_toDigits (n : Nat) : digits 16 0 (Nat.toDigits 16 n) = some n := by
  induction n using Nat.strong_induction_on with
  | _ n ih =>
    rw [Nat.toDigits_eq_if (by decide)]
    split
    · next hlt =>
      rw [digits, digit_digitChar n hlt]
      simp [digits]
    · next hlt =>
      rw [digits_append, ih (n / 16) (by omega), Option.bind_some, digits,
        digit_digitChar _ (Nat.mod_lt _ (by decide))]
      dsimp only
      rw [digits, Nat.div_add_mod]

/-- Hexadecimal digits are plain. -/
theorem plain_toDigits (n : Nat) : ∀ c ∈ Nat.toDigits 16 n, Plain c := by
  have hdigit : ∀ d < 16, Plain d.digitChar := by decide
  induction n using Nat.strong_induction_on with
  | _ n ih =>
    intro c hc
    rw [Nat.toDigits_eq_if (by decide)] at hc
    split at hc
    · next hlt =>
      rw [List.mem_singleton] at hc
      exact hc ▸ hdigit n hlt
    · next hlt =>
      rw [List.mem_append, List.mem_singleton] at hc
      rcases hc with hc | rfl
      · exact ih (n / 16) (by omega) c hc
      · exact hdigit _ (Nat.mod_lt _ (by decide))

theorem number_toDigits (n : Nat) : number 16 (Nat.toDigits 16 n) = some n := by
  rw [number, if_neg Nat.toDigits_ne_nil, digits_toDigits]

/-! ## The first tokens of a document -/

section

variable {α : Type} {item : List Char → Option (α × List Char)} {a : α}

theorem many_none (h : item cs = none) : many item cs = ([], cs) := by
  rw [many, h]

theorem many_some (h : item cs = some (a, rest)) (hlt : rest.length < cs.length) :
    many item cs = (a :: (many item rest).1, (many item rest).2) := by
  rw [many, h]
  exact if_pos hlt

/-- The first item is the first that can be read. -/
theorem many_first (h : item cs = some (a, rest)) :
    ∃ more rest', many item cs = (a :: more, rest') := by
  rw [many, h]
  dsimp only
  split
  · exact ⟨_, _, rfl⟩
  · exact ⟨[], _, rfl⟩

end

theorem tokens_nil : tokens [] = some [] := by
  rw [tokens, many_none rfl]

theorem tokens_cons {tok : Token} (h : token cs = some (tok, rest)) (hlt : rest.length < cs.length) :
    tokens cs = (tokens rest).map (tok :: ·) := by
  rw [tokens, tokens, many_some h hlt]
  rcases many token rest with ⟨toks, _ | ⟨c, rest'⟩⟩ <;> rfl

/-- The tokens begin with the first one. -/
theorem tokens_first {tok : Token} {toks : List Token} (h : tokens cs = some toks)
    (htok : token cs = some (tok, rest)) : ∃ more, toks = tok :: more := by
  obtain ⟨more, rest', hmany⟩ := many_first htok
  rw [tokens, hmany] at h
  cases rest' with
  | nil => exact ⟨more, (Option.some.inj h).symm⟩
  | cons c rest' => exact absurd h (by simp)

/-- A name. -/
def isName : List Char → Bool
  | [] => false
  | c :: cs => isNameStart c && cs.all isNameChar

/-- A name ends at the first character that is not one of a name's. -/
theorem name_append {n : List Char} (hn : isName n = true) (hc : isNameChar c = false) :
    name (n ++ c :: cs) = some (n, c :: cs) := by
  cases n with
  | nil => exact absurd hn (by simp [isName])
  | cons d n =>
    rw [isName, Bool.and_eq_true, List.all_eq_true] at hn
    rw [List.cons_append, name, if_pos hn.1, List.takeWhile_append_of_pos hn.2,
      List.dropWhile_append_of_pos hn.2, List.takeWhile_cons_of_neg (by simp [hc]),
      List.dropWhile_cons_of_neg (by simp [hc]), List.append_nil]

/-- A name does not begin with white space. -/
theorem dropWhile_space_name {n : List Char} (hn : isName n = true) :
    (n ++ cs).dropWhile isSpace = n ++ cs := by
  cases n with
  | nil => exact absurd hn (by simp [isName])
  | cons d n =>
    rw [isName, Bool.and_eq_true] at hn
    have hspace : isSpace d ≠ true := by
      intro hspace
      simp only [isSpace, Bool.or_eq_true, decide_eq_true_eq] at hspace
      obtain ((rfl | rfl) | rfl) | rfl := hspace <;> exact absurd hn.1 (by decide)
    rw [List.cons_append, List.dropWhile_cons_of_neg hspace]

/-- An attribute in double quotes is its value. -/
theorem attr_eq {n : List Char} (hn : isName n = true) :
    attr (' ' :: (n ++ '=' :: '"' :: cs)) =
      (attValue '"' cs).map (Prod.map (n, ·) id) := by
  have hspace : isSpace ' ' = true := rfl
  have hname : name (n ++ '=' :: '"' :: cs) = _ := name_append hn (by decide)
  rw [attr, if_pos hspace, dropWhile_space_name hn, hname]
  rfl

/-- A tag that begins with a name is a start tag. -/
theorem token_startTag {n : List Char} (hn : isName n = true) :
    token ('<' :: (n ++ cs)) = startTag (n ++ cs) := by
  cases n with
  | nil => exact absurd hn (by simp [isName])
  | cons d n =>
    rw [isName, Bool.and_eq_true] at hn
    rw [List.cons_append]
    unfold token
    split
    · next heq => exact absurd heq (by simp)
    · next heq =>
      obtain rfl := (List.cons.inj (List.cons.inj heq).2).1
      exact absurd hn.1 (by decide)
    · next heq =>
      obtain rfl := (List.cons.inj (List.cons.inj heq).2).1
      exact absurd hn.1 (by decide)
    · next heq =>
      obtain rfl := (List.cons.inj (List.cons.inj heq).2).1
      exact absurd hn.1 (by decide)
    · next heq => rw [(List.cons.inj heq).2]
    · next hnone => exact (hnone _ rfl).elim

/-- A tag with one attribute, up to the quote behind its value. -/
def oneAttr (n a v : List Char) : List Char := '<' :: (n ++ ' ' :: (a ++ '=' :: '"' :: (v ++ ['"'])))

variable {n a : List Char}

theorem token_oneAttr (hn : isName n = true) : token (oneAttr n a v ++ rest) =
    startTag (n ++ ' ' :: (a ++ '=' :: '"' :: (v ++ '"' :: rest))) := by
  rw [← token_startTag hn, oneAttr]
  simp only [List.cons_append, List.append_assoc, List.nil_append]

/-- The attributes of a tag with a plain one. -/
theorem many_attr (ha : isName a = true) (hv : ∀ c ∈ v, Plain c) (hc : isSpace c = false) :
    many attr (' ' :: (a ++ '=' :: '"' :: (v ++ '"' :: c :: rest))) = ([(a, v)], c :: rest) := by
  have hattr : attr (' ' :: (a ++ '=' :: '"' :: (v ++ '"' :: c :: rest))) =
      some ((a, v), c :: rest) := by
    rw [attr_eq ha, attValue_eq_self hv]
    rfl
  have hnone : attr (c :: rest) = none := by
    rw [attr, if_neg (by rw [hc]; simp)]
  rw [many_some hattr (by simp; omega), many_none hnone]

theorem token_start (hn : isName n = true) (ha : isName a = true) (hv : ∀ c ∈ v, Plain c) :
    token (oneAttr n a v ++ '>' :: rest) = some (.start n [(a, v)], rest) := by
  have hname : name (n ++ ' ' :: (a ++ '=' :: '"' :: (v ++ '"' :: '>' :: rest))) = _ :=
    name_append hn (by decide)
  have hattrs : many attr (' ' :: (a ++ '=' :: '"' :: (v ++ '"' :: '>' :: rest))) = _ :=
    many_attr ha hv (by decide)
  rw [token_oneAttr hn, startTag, hname]
  dsimp only
  rw [hattrs]
  exact if_pos (by simp)

theorem token_empty (hn : isName n = true) (ha : isName a = true) (hv : ∀ c ∈ v, Plain c) :
    token (oneAttr n a v ++ '/' :: '>' :: rest) = some (.empty n [(a, v)], rest) := by
  have hname : name (n ++ ' ' :: (a ++ '=' :: '"' :: (v ++ '"' :: '/' :: '>' :: rest))) = _ :=
    name_append hn (by decide)
  have hattrs : many attr (' ' :: (a ++ '=' :: '"' :: (v ++ '"' :: '/' :: '>' :: rest))) = _ :=
    many_attr ha hv (by decide)
  rw [token_oneAttr hn, startTag, hname]
  dsimp only
  rw [hattrs]
  exact if_pos (by simp)

/-- A start tag's attributes are those that could be read behind its name. -/
theorem startTag_attrs {tok : Token} (h : startTag cs = some (tok, rest'))
    (hname : name cs = some (n, rest)) :
    (tok = .start n (many attr rest).1 ∨ tok = .empty n (many attr rest).1) ∧
      ∃ c behind, (many attr rest).2.dropWhile isSpace = c :: behind ∧ isNameStart c = false := by
  rw [startTag, hname] at h
  dsimp only at h
  split at h
  · split at h
    · next heq =>
      rw [Option.some.injEq, Prod.mk.injEq] at h
      exact ⟨.inl h.1.symm, _, _, heq, by decide⟩
    · next heq =>
      rw [Option.some.injEq, Prod.mk.injEq] at h
      exact ⟨.inr h.1.symm, _, _, heq, by decide⟩
    · exact absurd h (by simp)
  · exact absurd h (by simp)

/-- Whatever the text is that stands for the value, the tag's first attribute is what is read of
    it. -/
theorem token_value (hn : isName n = true) (ha : isName a = true) {tok : Token}
    (h : token (oneAttr n a v ++ rest) = some (tok, rest')) :
    ∃ value r more, attValue '"' (v ++ '"' :: rest) = some (value, r) ∧
      (tok = .start n ((a, value) :: more) ∨ tok = .empty n ((a, value) :: more)) := by
  have hname : name (n ++ ' ' :: (a ++ '=' :: '"' :: (v ++ '"' :: rest))) = _ :=
    name_append hn (by decide)
  have hattr : attr (' ' :: (a ++ '=' :: '"' :: (v ++ '"' :: rest))) = _ := attr_eq ha
  rw [token_oneAttr hn] at h
  obtain ⟨htok, c, behind, hend, hc⟩ := startTag_attrs h hname
  cases hvalue : attValue '"' (v ++ '"' :: rest) with
  | none =>
    -- the name of the attribute is left over, and is no end of a tag
    rw [hvalue] at hattr
    rw [many_none hattr, List.dropWhile_cons_of_pos (by decide), dropWhile_space_name ha] at hend
    cases a with
    | nil => exact absurd ha (by simp [isName])
    | cons d a =>
      rw [isName, Bool.and_eq_true] at ha
      obtain rfl := (List.cons.inj hend).1
      exact absurd (ha.1.symm.trans hc) (by simp)
  | some read =>
    rw [hvalue] at hattr
    obtain ⟨more, rest'', hmany⟩ := many_first hattr
    rw [hmany] at htok
    exact ⟨read.1, read.2, more, rfl, htok⟩

theorem token_close (hn : isName n = true) :
    token ('<' :: '/' :: (n ++ '>' :: rest)) = some (.close n, rest) := by
  have hname : name (n ++ '>' :: rest) = _ := name_append hn (by decide)
  show endTag (n ++ '>' :: rest) = _
  rw [endTag, hname]
  rfl

/-! ## The tree of a document, from its beginning on -/

variable {stack : List Frame} {frame parent root : Frame} {node : Node}

theorem within_cons {tok : Token} (h : token cs = some (tok, rest)) (hlt : rest.length < cs.length) :
    within stack cs = (tokens rest).bind fun toks => build stack (tok :: toks) := by
  rw [within, tokens_cons h hlt]
  cases tokens rest <;> rfl

/-- A start tag opens an element. -/
theorem within_start (hn : isName n = true) (ha : isName a = true) (hv : ∀ c ∈ v, Plain c) :
    within stack (oneAttr n a v ++ '>' :: rest) = within (⟨n, [(a, v)], []⟩ :: stack) rest := by
  rw [within_cons (token_start hn ha hv) (by simp; omega), within]
  cases stack <;> rfl

/-- A tag without content is a child. -/
theorem within_empty (hn : isName n = true) (ha : isName a = true) (hv : ∀ c ∈ v, Plain c) :
    within (frame :: stack) (oneAttr n a v ++ '/' :: '>' :: rest) =
      within (frame.add (.element n [(a, v)] []) :: stack) rest := by
  rw [within_cons (token_empty hn ha hv) (by simp; omega), within]
  rfl

/-- An end tag closes the innermost element. -/
theorem within_close (hn : isName frame.name = true) :
    within (frame :: parent :: stack) ('<' :: '/' :: (frame.name ++ '>' :: rest)) =
      within (parent.add frame.node :: stack) rest := by
  rw [within_cons (token_close hn) (by simp; omega), within]
  exact congrArg (Option.bind _) (funext fun toks => if_pos rfl)

/-- The root's end tag ends the document. -/
theorem within_close_root (hn : isName root.name = true) :
    within [root] ('<' :: '/' :: (root.name ++ ['>'])) = some root.node := by
  rw [within_cons (token_close hn) (by simp), tokens_nil]
  exact if_pos ⟨rfl, rfl⟩

/-- What the root can become, from the elements that are open: every one of them, the innermost
    first, gets more children and then is a child of the next. -/
def ClosesTo : Frame → List Frame → Node → Prop
  | root, [], node => ∃ nodes, node = .element root.name root.attrs (root.children ++ nodes)
  | frame, parent :: stack, node =>
    ∃ nodes, ClosesTo (parent.add (.element frame.name frame.attrs (frame.children ++ nodes))) stack
      node

theorem ClosesTo.of_more {nodes : List Node}
    (h : ClosesTo { frame with children := frame.children ++ nodes } stack node) :
    ClosesTo frame stack node := by
  cases stack with
  | nil =>
    obtain ⟨nodes', rfl⟩ := h
    exact ⟨nodes ++ nodes', by simp⟩
  | cons parent stack =>
    obtain ⟨nodes', h⟩ := h
    rw [List.append_assoc] at h
    exact ⟨nodes ++ nodes', h⟩

/-- A token opens an element in the innermost one, adds to its children, or closes it. -/
theorem build_cons {tok : Token} {toks : List Token}
    (h : build (frame :: stack) (tok :: toks) = some node) :
    (∃ inner, build (inner :: frame :: stack) toks = some node) ∨
    (∃ nodes, build ({ frame with children := frame.children ++ nodes } :: stack) toks =
      some node) ∨
    (stack = [] ∧ node = frame.node) ∨
    ∃ parent below, stack = parent :: below ∧
      build (parent.add frame.node :: below) toks = some node := by
  cases tok with
  | start name attrs =>
    cases stack <;> exact .inl ⟨_, h⟩
  | empty name attrs =>
    cases stack <;> exact .inr (.inl ⟨_, h⟩)
  | space chars =>
    cases stack <;> exact .inr (.inl ⟨_, h⟩)
  | text chars =>
    cases stack <;> exact .inr (.inl ⟨_, h⟩)
  | skip =>
    refine .inr (.inl ⟨[], ?_⟩)
    rw [List.append_nil]
    cases stack <;> exact h
  | close name =>
    cases stack with
    | nil =>
      rw [build] at h
      split at h
      · exact .inr (.inr (.inl ⟨rfl, (Option.some.inj h).symm⟩))
      · exact absurd h (by simp)
    | cons parent stack =>
      rw [build] at h
      split at h
      · exact .inr (.inr (.inr ⟨parent, stack, rfl, h⟩))
      · exact absurd h (by simp)

/-- **An open element stays** what it is, where it is, with the children it has. -/
theorem build_closesTo {toks : List Token} (h : build (frame :: stack) toks = some node) :
    ClosesTo frame stack node := by
  induction toks generalizing frame stack with
  | nil => exact absurd h (by cases stack <;> simp [build])
  | cons tok toks ih =>
    rcases build_cons h with ⟨inner, hopen⟩ | ⟨nodes, hmore⟩ | ⟨rfl, rfl⟩ |
      ⟨parent, below, rfl, hclosed⟩
    · obtain ⟨nodes, hinner⟩ := ih hopen
      exact hinner.of_more
    · exact (ih hmore).of_more
    · exact ⟨[], by rw [List.append_nil]; rfl⟩
    · refine ⟨[], ?_⟩
      rw [List.append_nil]
      exact ih hclosed

/-- The root keeps the children it has. -/
theorem within_root (h : within [root] cs = some node) :
    ∃ nodes, node = .element root.name root.attrs (root.children ++ nodes) := by
  obtain ⟨toks, -, hbuild⟩ := Option.bind_eq_some_iff.mp h
  exact build_closesTo hbuild

/-- Whatever the text is that stands for the value of a child's attribute, that child's attribute is
    what is read of it. -/
theorem within_value (hn : isName n = true) (ha : isName a = true)
    (h : within [root] (oneAttr n a v ++ rest) = some node) :
    ∃ value r, attValue '"' (v ++ '"' :: rest) = some (value, r) ∧ ∃ more inner nodes,
      node = .element root.name root.attrs
        (root.children ++ .element n ((a, value) :: more) inner :: nodes) := by
  obtain ⟨toks, htoks, hbuild⟩ := Option.bind_eq_some_iff.mp h
  cases htok : token (oneAttr n a v ++ rest) with
  | none =>
    rw [tokens, many_none htok] at htoks
    exact absurd htoks (by simp [oneAttr])
  | some first =>
    obtain ⟨tok, rest'⟩ := first
    obtain ⟨more, rfl⟩ := tokens_first htoks htok
    obtain ⟨value, r, attrs, hvalue, htok⟩ := token_value hn ha htok
    refine ⟨value, r, hvalue, attrs, ?_⟩
    rcases htok with rfl | rfl
    · obtain ⟨inner, nodes, hnode⟩ : ClosesTo ⟨n, (a, value) :: attrs, []⟩ [root] node :=
        build_closesTo hbuild
      refine ⟨inner, nodes, hnode.trans ?_⟩
      simp [Frame.add]
    · obtain ⟨nodes, hnode⟩ : ClosesTo (root.add (.element n ((a, value) :: attrs) [])) [] node :=
        build_closesTo hbuild
      refine ⟨[], nodes, hnode.trans ?_⟩
      simp [Frame.add]

end Xml
