/-
  **LABELS** (`internal/model/labels.go`): label maps are stored as JSON text; a selector matches a
  worker that has every key of the selector with the selector's value.

  `DecodeLabels` answers the nil map on any `json.Unmarshal` error, so the decoder only follows
  objects whose values are strings or `null`.
-/
import AiScheduler.Lib.Table

namespace AiScheduler

open Lib

/-- `map[string]string`. -/
abbrev Labels := Table (Prod.fst : String × String → String)

/-- `len(labels) == 0`. -/
def Labels.isEmpty (labels : Labels) : Bool := labels.rows.isEmpty

/-! ## JSON text of a string map. -/

namespace Json

/-- White space between JSON tokens. -/
def isSpace (c : Char) : Bool := c.toNat ∈ [9, 10, 13, 32]

def skip (cs : List Char) : List Char := cs.dropWhile isSpace

def hexDigit (c : Char) : Option Nat :=
  let n := c.toNat
  if 48 ≤ n ∧ n ≤ 57 then some (n - 48)
  else if 97 ≤ n ∧ n ≤ 102 then some (n - 87)
  else if 65 ≤ n ∧ n ≤ 70 then some (n - 55)
  else none

def hex4 : List Char → Option (Nat × List Char)
  | a :: b :: c :: d :: rest => do
    let a ← hexDigit a
    let b ← hexDigit b
    let c ← hexDigit c
    let d ← hexDigit d
    some (((a * 16 + b) * 16 + c) * 16 + d, rest)
  | _ => none

/-- The character of a one-letter escape (by code). -/
def shortEscape (c : Char) : Option Char :=
  match c.toNat with
  | 34 | 47 | 92 => some c
  | 98 => some (Char.ofNat 8)
  | 102 => some (Char.ofNat 12)
  | 110 => some (Char.ofNat 10)
  | 114 => some (Char.ofNat 13)
  | 116 => some (Char.ofNat 9)
  | _ => none

/-- After a `u` escape: a surrogate pair is combined, a lone surrogate replaced. -/
def unicodeEscape (hi : Nat) (rest : List Char) : Char × List Char :=
  if 0xD800 ≤ hi ∧ hi < 0xE000 then
    match rest with
    | b :: u :: more =>
      match if b.toNat = 92 ∧ u.toNat = 117 ∧ hi < 0xDC00 then hex4 more else none with
      | some (lo, more) =>
        if 0xDC00 ≤ lo ∧ lo < 0xE000 then
          (Char.ofNat (0x10000 + (hi - 0xD800) * 0x400 + (lo - 0xDC00)), more)
        else (Char.ofNat 0xFFFD, rest)
      | none => (Char.ofNat 0xFFFD, rest)
    | _ => (Char.ofNat 0xFFFD, rest)
  else (Char.ofNat hi, rest)

/-- The rest of a string literal, up to the closing quote. -/
def stringBody : Nat → List Char → Option (List Char × List Char)
  | 0, _ => none
  | _ + 1, [] => none
  | fuel + 1, c :: rest =>
    if c.toNat = 34 then some ([], rest)
    else if c.toNat < 32 then none
    else if c.toNat = 92 then
      match rest with
      | [] => none
      | e :: rest => do
        let (c, rest) ←
          if e.toNat = 117 then (hex4 rest).map (fun x => unicodeEscape x.1 x.2)
          else (shortEscape e).map (fun c => (c, rest))
        let (cs, rest) ← stringBody fuel rest
        some (c :: cs, rest)
    else do
      let (cs, rest) ← stringBody fuel rest
      some (c :: cs, rest)

def string (cs : List Char) : Option (String × List Char) :=
  match cs with
  | c :: rest =>
    if c.toNat = 34 then (stringBody (rest.length + 1) rest).map (fun x => (String.ofList x.1, x.2))
    else none
  | [] => none

/-- A map value: a string, or `null`, which leaves the empty string. -/
def value (cs : List Char) : Option (String × List Char) :=
  if "null".toList.isPrefixOf cs then some ("", cs.drop 4) else string cs

/-- The members of an object after its opening brace or a comma. -/
def members : Nat → Labels → List Char → Option (Labels × List Char)
  | 0, _, _ => none
  | fuel + 1, labels, cs => do
    let (k, cs) ← string (skip cs)
    let cs ← match skip cs with
      | c :: cs => if c = ':' then some cs else none
      | [] => none
    let (v, cs) ← value (skip cs)
    match skip cs with
    | c :: cs =>
      if c = ',' then members fuel (labels.upsert (k, v)) cs
      else if c.toNat = 125 then some (labels.upsert (k, v), cs)
      else none
    | [] => none

/-- `json.Unmarshal` into a nil `map[string]string`. -/
def unmarshal (raw : String) : Option Labels :=
  let cs := skip raw.toList
  if "null".toList.isPrefixOf cs then
    if (skip (cs.drop 4)).isEmpty then some Table.empty else none
  else
    match cs with
    | c :: rest =>
      if c.toNat = 123 then
        match skip rest with
        | d :: more =>
          if d.toNat = 125 then (if (skip more).isEmpty then some Table.empty else none)
          else do
            let (labels, more) ← members (rest.length + 1) Table.empty rest
            if (skip more).isEmpty then some labels else none
        | [] => none
      else none
    | [] => none

/-- A hexadecimal digit as `json.Marshal` writes it. -/
def hexChar (n : Nat) : Char := if n < 10 then Char.ofNat (48 + n) else Char.ofNat (87 + n)

/-- The text of one character inside a string literal of `json.Marshal`. -/
def escape (c : Char) : List Char :=
  let n := c.toNat
  let backslash := Char.ofNat 92
  match n with
  | 34 | 92 => [backslash, c]
  | 8 => [backslash, 'b']
  | 12 => [backslash, 'f']
  | 10 => [backslash, 'n']
  | 13 => [backslash, 'r']
  | 9 => [backslash, 't']
  | _ =>
    -- control characters, the HTML characters and the two line separators
    if n < 32 ∨ n = 38 ∨ n = 60 ∨ n = 62 ∨ n = 0x2028 ∨ n = 0x2029 then
      [backslash, 'u', hexChar (n / 4096), hexChar (n / 256 % 16), hexChar (n / 16 % 16),
        hexChar (n % 16)]
    else [c]

def literal (s : String) : List Char :=
  Char.ofNat 34 :: (s.toList.flatMap escape ++ [Char.ofNat 34])

/-- `json.Marshal` of a map: the members in key order. -/
def marshal (labels : Labels) : String :=
  let sorted := labels.rows.insertionSort (fun a b => ¬ b.1 < a.1)
  let members := sorted.map (fun kv => literal kv.1 ++ ':' :: literal kv.2)
  String.ofList (Char.ofNat 123 :: (List.intercalate [','] members ++ [Char.ofNat 125]))

end Json

/-! ## Encoding, decoding and matching. -/

def encodeLabels (labels : Labels) : String :=
  if labels.isEmpty then "\x7b\x7d" else Json.marshal labels

def decodeLabels (raw : String) : Labels :=
  if raw = "" ∨ raw = "\x7b\x7d" then Table.empty
  else (Json.unmarshal raw).getD Table.empty

def matchLabels (workerLabels selectorLabels : Labels) : Bool :=
  selectorLabels.rows.all (fun kv => (workerLabels.get? kv.1).map Prod.snd = some kv.2)

theorem matchLabels_iff {workerLabels selectorLabels : Labels} :
    matchLabels workerLabels selectorLabels = true
      ↔ ∀ kv ∈ selectorLabels.rows, kv ∈ workerLabels.rows := by
  have hpair : ∀ kv : String × String,
      (workerLabels.get? kv.1).map Prod.snd = some kv.2 ↔ kv ∈ workerLabels.rows := by
    intro kv
    rw [Option.map_eq_some_iff]
    constructor
    · intro h
      obtain ⟨r, hr, hv⟩ := h
      obtain ⟨hmem, hk⟩ := Table.get?_some hr
      have hkv : r = kv := Prod.ext hk hv
      rw [← hkv]
      exact hmem
    · intro h
      exact ⟨kv, Table.get?_of_mem h, rfl⟩
  unfold matchLabels
  rw [List.all_eq_true]
  constructor
  · intro h kv hkv
    have hmatch := h kv hkv
    rw [decide_eq_true_iff] at hmatch
    exact (hpair kv).mp hmatch
  · intro h kv hkv
    rw [decide_eq_true_iff]
    exact (hpair kv).mpr (h kv hkv)

example : (decodeLabels "\x7b\"env\":\"local\", \"zone\" : null\x7d").rows
    = [("env", "local"), ("zone", "")] := by decide

end AiScheduler
