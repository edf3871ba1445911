/-
  **SQL TEXT CUT INTO STATEMENTS.**

  A scanner tells for every character whether it is CODE, a GAP (white space or comment) or a
  SEPARATOR: a semicolon outside literals and comments. The text between two separators is a
  FRAGMENT; with code it is a statement, without it is nothing to execute.
-/
import Mathlib.Algebra.BigOperators.Group.List.Basic
import Mathlib.Algebra.GroupWithZero.Nat

namespace AiScheduler.Lib

open List

/-! ## Lists cut at separators. -/

section Cut

variable {α β : Type}

theorem map_splitOnP {p : α → Bool} {q : β → Bool} {f : α → β} :
    ∀ xs : List α, (∀ x ∈ xs, q (f x) = p x) →
      (xs.splitOnP p).map (map f) = (xs.map f).splitOnP q := by
  intro xs
  induction xs with
  | nil =>
    intro _
    rfl
  | cons x xs ih =>
  intro h
  have htail := ih (fun y hy => h y (mem_cons_of_mem x hy))
  rw [map_cons, splitOnP_cons_eq_if_modifyHead, splitOnP_cons_eq_if_modifyHead, h x mem_cons_self]
  split
  · rw [map_cons, htail, map_nil]
  · rw [← htail]
    cases xs.splitOnP p with
    | nil | cons y ys => rfl

theorem mem_of_mem_splitOnP {p : α → Bool} {xs piece : List α} {x : α}
    (hpiece : piece ∈ xs.splitOnP p) (hx : x ∈ piece) : x ∈ xs ∧ p x = false := by
  induction xs generalizing piece with
  | nil =>
    rw [splitOnP_nil, mem_singleton] at hpiece
    rw [hpiece] at hx
    cases hx
  | cons y ys ih =>
  rw [splitOnP_cons_eq_if_modifyHead] at hpiece
  split at hpiece
  · rcases mem_cons.mp hpiece with rfl | hpiece
    · cases hx
    · exact ⟨mem_cons_of_mem y (ih hpiece hx).1, (ih hpiece hx).2⟩
  next hy =>
    cases hs : ys.splitOnP p with
    | nil => exact absurd hs (splitOnP_ne_nil p ys)
    | cons z zs =>
    rw [hs, modifyHead_cons, mem_cons] at hpiece
    rw [hs] at ih
    rcases hpiece with rfl | hpiece
    · rcases mem_cons.mp hx with rfl | hx
      · exact ⟨.head _, by simpa using hy⟩
      · have := ih mem_cons_self hx
        exact ⟨mem_cons_of_mem y this.1, this.2⟩
    · have := ih (mem_cons_of_mem z hpiece) hx
      exact ⟨mem_cons_of_mem y this.1, this.2⟩

theorem exists_mem_splitOnP {p : α → Bool} {xs : List α} {x : α} (hx : x ∈ xs)
    (hp : p x = false) : ∃ piece ∈ xs.splitOnP p, x ∈ piece := by
  induction xs with
  | nil => cases hx
  | cons y ys ih =>
  rw [splitOnP_cons_eq_if_modifyHead]
  rcases mem_cons.mp hx with rfl | hx
  · rw [if_neg (by simp [hp])]
    cases hs : ys.splitOnP p with
    | nil => exact absurd hs (splitOnP_ne_nil p ys)
    | cons z zs => exact ⟨x :: z, .head _, .head _⟩
  obtain ⟨piece, hpiece, hxp⟩ := ih hx
  split
  · exact ⟨piece, mem_cons_of_mem [] hpiece, hxp⟩
  cases hs : ys.splitOnP p with
  | nil => exact absurd hs (splitOnP_ne_nil p ys)
  | cons z zs =>
    rw [hs] at hpiece
    rcases mem_cons.mp hpiece with rfl | hpiece
    · exact ⟨y :: piece, .head _, mem_cons_of_mem y hxp⟩
    · exact ⟨piece, .tail _ hpiece, hxp⟩

/-- Nothing that counts is lost by cutting where nothing counts. -/
theorem sum_countP_splitOnP {p φ : α → Bool} :
    ∀ xs : List α, (∀ x ∈ xs, p x = true → φ x = false) →
      ((xs.splitOnP p).map (countP φ)).sum = xs.countP φ := by
  intro xs
  induction xs with
  | nil =>
    intro _
    rfl
  | cons x xs ih =>
  intro h
  have ih := ih (fun y hy => h y (mem_cons_of_mem x hy))
  rw [splitOnP_cons_eq_if_modifyHead, countP_cons]
  split
  next hx =>
    rw [map_cons, sum_cons, ih, h x mem_cons_self hx, countP_nil]
    simp
  next =>
    cases hs : xs.splitOnP p with
    | nil => exact absurd hs (splitOnP_ne_nil p xs)
    | cons z zs =>
      rw [hs, map_cons, sum_cons] at ih
      rw [modifyHead_cons, map_cons, sum_cons, countP_cons]
      omega

end Cut

/-! ## The scanner. -/

namespace SqlText

inductive Kind where
  | code
  | gap
  | sep
  deriving DecidableEq, Repr

/-- Where the scanner is. `executed` tells a `/*!` comment from a plain one. -/
inductive Mode where
  | code
  | line
  | opening (executed : Bool)
  | block (executed : Bool)
  | closing (executed : Bool)
  | quoted (quote : Char)
  | escaped (quote : Char)
  deriving DecidableEq, Repr

def singleQuote : Char := Char.ofNat 39
def doubleQuote : Char := Char.ofNat 34
def backquote : Char := Char.ofNat 96
def backslash : Char := Char.ofNat 92

/-- The kind of a character of a block comment. -/
def blockKind (executed : Bool) : Kind := if executed then .code else .gap

section Scanner

variable (space : Char → Bool)

/-- After a dash: does a comment start here? -/
def dashes : List Char → Bool
  | ['-'] => true
  | '-' :: c :: _ => space c || c.toNat < 32
  | _ => false

/-- One character in code. -/
def scanCode (c : Char) (rest : List Char) : Kind × Mode :=
  if space c then (.gap, .code)
  else if c = ';' then (.sep, .code)
  else if c = singleQuote ∨ c = doubleQuote ∨ c = backquote then (.code, .quoted c)
  else if c = '#' ∨ (c = '-' ∧ dashes space rest) then (.gap, .line)
  else if c = '/' ∧ rest.head? = some '*' then
    (blockKind (rest.tail.head? = some '!'), .opening (rest.tail.head? = some '!'))
  else (.code, .code)

/-- One character, with what follows it. -/
def scan (mode : Mode) (c : Char) (rest : List Char) : Kind × Mode :=
  match mode with
  | .code => scanCode space c rest
  | .line => (.gap, if c = '\n' then .code else .line)
  | .opening executed => (blockKind executed, .block executed)
  | .block executed =>
    (blockKind executed,
      if c = '*' ∧ rest.head? = some '/' then .closing executed else .block executed)
  | .closing executed => (blockKind executed, .code)
  | .quoted quote =>
    (.code,
      if c = quote then .code
      else if c = backslash ∧ quote ≠ backquote then .escaped quote
      else .quoted quote)
  | .escaped quote => (.code, .quoted quote)

/-- Every character with its kind. -/
def lex : Mode → List Char → List (Kind × Char)
  | _, [] => []
  | mode, c :: rest => ((scan space mode c rest).1, c) :: lex (scan space mode c rest).2 rest

/-- The text between separators. -/
def fragments (text : List Char) : List (List (Kind × Char)) :=
  (lex space .code text).splitOnP (fun x => x.1 = .sep)

/-- A fragment that is a statement. -/
def hasCode (fragment : List (Kind × Char)) : Bool := fragment.any (fun x => x.1 = .code)

/-! ## What the scanner keeps. -/

variable {space}

theorem map_snd_lex (mode : Mode) (text : List Char) :
    (lex space mode text).map Prod.snd = text := by
  induction text generalizing mode with
  | nil => rfl
  | cons c rest ih =>
    show c :: (lex space _ rest).map Prod.snd = c :: rest
    rw [ih]

theorem scan_sep {mode : Mode} {c : Char} {rest : List Char}
    (h : (scan space mode c rest).1 = .sep) : c = ';' ∧ (scan space mode c rest).2 = .code := by
  have hcode : Kind.code ≠ .sep := by decide
  have hgap : Kind.gap ≠ .sep := by decide
  have hblock : ∀ executed, blockKind executed ≠ .sep := by
    intro executed
    cases executed <;> decide
  cases mode with
  | code =>
    revert h
    show (scanCode space c rest).1 = .sep → c = ';' ∧ (scanCode space c rest).2 = .code
    unfold scanCode
    split
    · intro h
      exact absurd h hgap
    split
    next hc =>
      intro _
      exact ⟨hc, rfl⟩
    next =>
      -- in the remaining branches the kind is code, a gap or a block's
      intro h
      split at h
      · exact absurd h hcode
      split at h
      · exact absurd h hgap
      · split at h
        · exact absurd h (hblock _)
        · exact absurd h hcode
  | line => exact absurd h hgap
  | opening executed | block executed | closing executed => exact absurd h (hblock executed)
  | quoted quote | escaped quote => exact absurd h hcode

theorem lex_sep {mode : Mode} {text : List Char} {x : Kind × Char} (hx : x ∈ lex space mode text)
    (h : x.1 = .sep) : x.2 = ';' := by
  induction text generalizing mode with
  | nil => simp [lex] at hx
  | cons c rest ih =>
    rcases mem_cons.mp hx with rfl | hx
    · exact (scan_sep h).1
    · exact ih hx

theorem scan_quiet {c : Char} {rest : List Char} (hc : space c = true ∨ c = ';') :
    scan space .code c rest = (if space c then .gap else .sep, .code) := by
  show scanCode space c rest = _
  unfold scanCode
  by_cases hs : space c = true
  · rw [if_pos hs, if_pos hs]
  · rw [if_neg hs, if_neg hs, if_pos (hc.resolve_left hs)]

/-- **A FRAGMENT OF WHITE SPACE AND SEMICOLONS IS WHITE SPACE**: a semicolon would have ended it. -/
theorem quiet_fragment :
    ∀ (text : List Char) (mode : Mode) (first : List (Kind × Char))
      (others : List (List (Kind × Char))),
      (lex space mode text).splitOnP (fun x => x.1 = .sep) = first :: others →
      ∀ fragment, (fragment = first ∧ mode = .code) ∨ fragment ∈ others →
        (∀ x ∈ fragment, space x.2 = true ∨ x.2 = ';') →
        ∀ x ∈ fragment, x.1 = .gap ∧ space x.2 = true := by
  intro text
  induction text with
  | nil =>
    intro mode first others hcut fragment hfragment _ x hx
    have hcut : [[]] = first :: others := hcut
    injection hcut with h₁ h₂
    subst h₁ h₂
    rcases hfragment with ⟨rfl, _⟩ | h
    · cases hx
    · cases h
  | cons c rest ih =>
  intro mode first others hcut fragment hfragment hquiet
  cases htail : (lex space (scan space mode c rest).2 rest).splitOnP (fun x => x.1 = .sep) with
  | nil => exact absurd htail (splitOnP_ne_nil _ _)
  | cons first' others' =>
  have ih := ih _ first' others' htail
  rw [lex, splitOnP_cons_eq_if_modifyHead, htail] at hcut
  by_cases hsep : (scan space mode c rest).1 = .sep
  · -- a separator: the fragments after it start in code
    rw [if_pos (by simpa using hsep)] at hcut
    injection hcut with h₁ h₂
    subst h₁ h₂
    rcases hfragment with ⟨rfl, _⟩ | h
    · intro x hx
      cases hx
    apply ih fragment _ hquiet
    rcases mem_cons.mp h with rfl | h
    · exact .inl ⟨rfl, (scan_sep hsep).2⟩
    · exact .inr h
  rw [if_neg (by simpa using hsep), modifyHead_cons] at hcut
  injection hcut with h₁ h₂
  subst h₁ h₂
  rcases hfragment with ⟨rfl, rfl⟩ | h
  · -- white space in code: the rest of the fragment is in code as well
    have hscan := @scan_quiet space c rest (hquiet _ mem_cons_self)
    have hspace : space c = true := by
      by_contra hs
      rw [hscan, if_neg hs] at hsep
      exact hsep rfl
    rw [hscan, if_pos hspace] at hquiet ih ⊢
    intro x hx
    rcases mem_cons.mp hx with rfl | hx
    · exact ⟨rfl, hspace⟩
    · exact ih first' (.inl ⟨rfl, rfl⟩) (fun y hy => hquiet y (.tail _ hy)) x hx
  · exact ih fragment (.inr h) hquiet

theorem quiet_of_mem_fragments {text : List Char} {fragment : List (Kind × Char)}
    (hfragment : fragment ∈ fragments space text)
    (hquiet : ∀ x ∈ fragment, space x.2 = true ∨ x.2 = ';') :
    ∀ x ∈ fragment, x.1 = .gap ∧ space x.2 = true := by
  cases hcut : fragments space text with
  | nil => exact absurd hcut (splitOnP_ne_nil _ _)
  | cons first others =>
    rw [hcut] at hfragment
    apply quiet_fragment text .code first others hcut fragment _ hquiet
    rcases mem_cons.mp hfragment with rfl | h
    · exact .inl ⟨rfl, rfl⟩
    · exact .inr h

end Scanner

end SqlText

end AiScheduler.Lib
