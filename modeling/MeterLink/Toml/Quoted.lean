import MeterLink.Text.Reader

/-!
# Quoted text

A text is written between double quotes with escapes, or between single quotes as it is; three
quotes on either side let it run over several lines. The writer takes the first of these forms
that needs no escapes, and the escaped form where none does.
-/

namespace MeterLink.Toml

/-- A character that may stand in a comment or between quotes: no control character but the
tab. -/
def isPrintable (c : Char) : Bool :=
  c = '\t' || (0x20 ≤ c.toNat && c.toNat ≠ 0x7f)

/-- The character that a backslash and a letter stand for. -/
def simpleEscape? : Char → Option Char
  | 'b' => some '\x08'
  | 't' => some '\t'
  | 'n' => some '\n'
  | 'f' => some '\x0c'
  | 'r' => some '\r'
  | '"' => some '"'
  | '\\' => some '\\'
  | _ => none

/-- The character with the code that hexadecimal digits give. -/
def codeEscape? (digits : List Char) : Option Char := do
  let n ← hexNumeral? digits
  if n.isValidChar then return Char.ofNat n else none

/-- The character of an escape, from the text after its backslash, and the rest. -/
def readEscape : List Char → Option (Char × List Char)
  | 'u' :: rest =>
    if 4 ≤ rest.length then (codeEscape? (rest.take 4)).map fun c => (c, rest.drop 4) else none
  | 'U' :: rest =>
    if 8 ≤ rest.length then (codeEscape? (rest.take 8)).map fun c => (c, rest.drop 8) else none
  | c :: rest => (simpleEscape? c).map fun e => (e, rest)
  | [] => none

theorem length_readEscape {s rest : List Char} {c : Char} (h : readEscape s = some (c, rest)) :
    rest.length < s.length := by
  unfold readEscape at h
  split at h
  · split at h
    · simp only [Option.map_eq_some_iff, Prod.mk.injEq] at h
      obtain ⟨_, _, _, rfl⟩ := h
      simp only [List.length_drop, List.length_cons]; omega
    · exact nomatch h
  · split at h
    · simp only [Option.map_eq_some_iff, Prod.mk.injEq] at h
      obtain ⟨_, _, _, rfl⟩ := h
      simp only [List.length_drop, List.length_cons]; omega
    · exact nomatch h
  · simp only [Option.map_eq_some_iff, Prod.mk.injEq] at h
    obtain ⟨_, _, _, rfl⟩ := h
    simp
  · exact nomatch h

/-- The text up to the closing double quote, and the rest. -/
def readBasic (s : List Char) : Option (List Char × List Char) :=
  match s with
  | [] => none
  | c :: rest =>
    if c = '"' then some ([], rest)
    else if c = '\\' then
      match _h : readEscape rest with
      | some (e, rest') => (readBasic rest').map fun (value, rest) => (e :: value, rest)
      | none => none
    else if isPrintable c then (readBasic rest).map fun (value, rest) => (c :: value, rest)
    else none
termination_by s.length
decreasing_by
  · have := length_readEscape _h
    simp only [List.length_cons]; omega
  · simp

/-- The text up to the closing single quote, and the rest. -/
def readLiteral : List Char → Option (List Char × List Char)
  | [] => none
  | c :: rest =>
    if c = '\'' then some ([], rest)
    else if isPrintable c then (readLiteral rest).map fun (value, rest) => (c :: value, rest)
    else none

/-- The quotes before the last three of a run belong to the text, at most two of them. -/
def closing (quote : Char) (s : List Char) : Option (List Char × List Char) :=
  let run := (s.takeWhile (· = quote)).length
  if run < 3 then none
  else
    let kept := min (run - 3) 2
    some (List.replicate kept quote, s.drop (kept + 3))

/-- The text after the blanks and line ends that follow an escaped line end. -/
def afterLineEscape? (s : List Char) : Option (List Char) :=
  match s.dropWhile (fun c => c = ' ' || c = '\t') with
  | '\n' :: rest => some (skip rest)
  | '\r' :: '\n' :: rest => some (skip rest)
  | _ => none
where
  skip : List Char → List Char
    | '\r' :: '\n' :: rest => skip rest
    | c :: rest => if c = ' ' || c = '\t' || c = '\n' then skip rest else c :: rest
    | [] => []

theorem length_skip (s : List Char) : (afterLineEscape?.skip s).length ≤ s.length := by
  fun_induction afterLineEscape?.skip s with
  | case1 rest ih => simp only [List.length_cons]; omega
  | case2 c rest _ _ ih => simp only [List.length_cons]; omega
  | case3 => simp
  | case4 => simp

theorem length_afterLineEscape {s rest : List Char} (h : afterLineEscape? s = some rest) :
    rest.length < s.length := by
  unfold afterLineEscape? at h
  have hd := (List.dropWhile_suffix (fun c => c = ' ' || c = '\t') (l := s)).length_le
  split at h
  · rename_i r hr
    cases h
    have := length_skip r
    rw [hr, List.length_cons] at hd; omega
  · rename_i r hr
    cases h
    have := length_skip r
    rw [hr, List.length_cons, List.length_cons] at hd; omega
  · exact nomatch h

/-- The text up to three closing double quotes, and the rest. -/
def readLines (s : List Char) : Option (List Char × List Char) :=
  match closing '"' s with
  | some closed => some closed
  | none =>
    match s with
    | [] => none
    | c :: rest =>
      if c = '\\' then
        match _h : afterLineEscape? rest with
        | some rest' => readLines rest'
        | none =>
          match _h : readEscape rest with
          | some (e, rest') => (readLines rest').map fun (value, rest) => (e :: value, rest)
          | none => none
      else if c = '\r' then
        match rest with
        | '\n' :: rest => (readLines rest).map fun (value, rest) => ('\n' :: value, rest)
        | _ => none
      else if isPrintable c || c = '\n' then
        (readLines rest).map fun (value, rest) => (c :: value, rest)
      else none
termination_by s.length
decreasing_by
  · have := length_afterLineEscape _h
    simp only [List.length_cons]; omega
  · have := length_readEscape _h
    simp only [List.length_cons]; omega
  · simp only [List.length_cons]; omega
  · simp

/-- The text up to three closing single quotes, and the rest. -/
def readLiteralLines (s : List Char) : Option (List Char × List Char) :=
  match closing '\'' s with
  | some closed => some closed
  | none =>
    match s with
    | [] => none
    | '\r' :: '\n' :: rest =>
      (readLiteralLines rest).map fun (value, rest) => ('\n' :: value, rest)
    | c :: rest =>
      if isPrintable c || c = '\n' then
        (readLiteralLines rest).map fun (value, rest) => (c :: value, rest)
      else none

/-- The text without a line end at its very start. -/
def dropFirstLineEnd : List Char → List Char
  | '\n' :: rest => rest
  | '\r' :: '\n' :: rest => rest
  | s => s

/-- A quoted text on a single line, which is also how keys are quoted. -/
def singleLine : Reader String := fun
  | '"' :: rest => (readBasic rest).map fun (value, rest) => (String.ofList value, rest)
  | '\'' :: rest => (readLiteral rest).map fun (value, rest) => (String.ofList value, rest)
  | _ => none

/-- A quoted text in any of the forms. -/
def quotedText : Reader String := fun s =>
  match s with
  | '"' :: '"' :: '"' :: rest =>
    (readLines (dropFirstLineEnd rest)).map fun (value, rest) => (String.ofList value, rest)
  | '\'' :: '\'' :: '\'' :: rest =>
    (readLiteralLines (dropFirstLineEnd rest)).map fun (value, rest) =>
      (String.ofList value, rest)
  | s => singleLine s

/-- Characters that have an escape of their own letter, which is given. -/
def escapeLetter? : Char → Option Char
  | '\x08' => some 'b'
  | '\t' => some 't'
  | '\x0c' => some 'f'
  | '\r' => some 'r'
  | '\\' => some '\\'
  | _ => none

/-- The four upper-case hexadecimal digits of a code. -/
def upperDigits (n : Nat) : List Char :=
  (bigEndian 2 n).flatMap Hex.upperOfByte

/-- The text between escaped quotes. `allowed` quotes in a row need no escape, `seen` of them
came before, and on several lines a line end needs none. -/
def escapeFrom (lines : Bool) (allowed : Nat) : (seen : Nat) → List Char → List Char
  | _, [] => []
  | seen, c :: rest =>
    if c = '"' then
      if seen < allowed then c :: escapeFrom lines allowed (seen + 1) rest
      else '\\' :: c :: escapeFrom lines allowed 0 rest
    else
      let shown :=
        if c = '\n' then if lines then [c] else ['\\', 'n']
        else match escapeLetter? c with
          | some letter => ['\\', letter]
          | none =>
            if c.toNat < 0x20 ∨ c.toNat = 0x7f then '\\' :: 'u' :: upperDigits c.toNat else [c]
      shown ++ escapeFrom lines allowed 0 rest

/-- The longest run of a character. -/
def longestRun (quote : Char) (s : List Char) : Nat :=
  (s.foldl (fun (longest, now) c =>
    let now := if c = quote then now + 1 else 0
    (max longest now, now)) (0, 0)).1

/-- A text between quotes. -/
def quote (text : String) : String :=
  let s := text.toList
  let hasLines := '\n' ∈ s
  let hasControl := s.any fun c =>
    c ≠ '\t' && c ≠ '\n' && (c.toNat < 0x20 || c.toNat = 0x7f)
  let hasBackslash := '\\' ∈ s
  let doubles := longestRun '"' s
  let singles := longestRun '\'' s
  let opening := if hasLines then ['\n'] else []
  let single := ['"']
  let triple := ['"', '"', '"']
  let tripleLiteral := ['\'', '\'', '\'']
  String.ofList <|
    if !hasControl && !hasBackslash && doubles = 0 && !hasLines then
      single ++ escapeFrom false 0 0 s ++ single
    else if !hasControl && singles = 0 && !hasLines then '\'' :: s ++ ['\'']
    else if !hasControl && !hasBackslash && doubles ≤ 2 then
      triple ++ opening ++ escapeFrom true 2 0 s ++ triple
    else if !hasControl && singles ≤ 2 then tripleLiteral ++ opening ++ s ++ tripleLiteral
    else if hasLines then triple ++ opening ++ escapeFrom true 2 0 s ++ triple
    else single ++ escapeFrom false 0 0 s ++ single

end MeterLink.Toml
