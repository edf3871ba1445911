/-
  **THE GRAMMAR OF A CRON FIELD and the values it denotes**, stated without the parser.

    field    `*`, or segments separated by `,`
    segment  base, or base `/` step
    base     `*`, an integer, or integer `-` integer

  Which texts count as integers is a parameter (`lit`): the parser splits at every `-`, so an
  integer with a minus sign is none to it.
-/
import AiScheduler.Cron.Expr

namespace AiScheduler.Cron

open List

/-! ## The grammar. -/

/-- The five fields. -/
inductive FieldKind where
  | minute
  | hour
  | day
  | month
  | week
  deriving DecidableEq, Repr

namespace FieldKind

def min : FieldKind → Int
  | minute | hour | week => 0
  | day | month => 1

def max : FieldKind → Int
  | minute => 59
  | hour => 23
  | day => 31
  | month => 12
  | week => 6

/-- Whether 7 stands for Sunday. -/
def seven : FieldKind → Bool
  | week => true
  | _ => false

/-- An integer a field may be written with. -/
def InRange (kind : FieldKind) (v : Int) : Prop :=
  (kind.min ≤ v ∧ v ≤ kind.max) ∨ (kind.seven = true ∧ v = 7)

end FieldKind

/-- A base stands for the values from `start` to `stop`. -/
inductive Base (lit : List Char → Int → Prop) (kind : FieldKind) :
    List Char → Int → Int → Prop where
  | star : Base lit kind ['*'] kind.min kind.max
  | value {text : List Char} {v : Int} : lit text v → kind.InRange v → Base lit kind text v v
  | range {a b : List Char} {start stop : Int} : lit a start → lit b stop → kind.InRange start →
      kind.InRange stop → start ≤ stop → Base lit kind (a ++ '-' :: b) start stop

/-- A segment stands for every `step`-th value of its base. -/
inductive Segment (lit : List Char → Int → Prop) (kind : FieldKind) :
    List Char → Int → Int → Int → Prop where
  | plain {text : List Char} {start stop : Int} : Base lit kind text start stop →
      Segment lit kind text start stop 1
  | stepped {base text : List Char} {start stop step : Int} : Base lit kind base start stop →
      atoi text = some step → 0 < step → Segment lit kind (base ++ '/' :: text) start stop step

/-- A list of segments, written with commas. -/
def IsList (lit : List Char → Int → Prop) (kind : FieldKind) (token : List Char) : Prop :=
  ∃ segs, segs ≠ [] ∧ token = [','].intercalate segs
    ∧ ∀ seg ∈ segs, ∃ start stop step, Segment lit kind seg start stop step

/-- The value a segment's `k`-th number is stored as, 7 as 0. -/
def Denotes (lit : List Char → Int → Prop) (kind : FieldKind) (seg : List Char) (v : Int) : Prop :=
  ∃ (start stop step : Int) (k : Nat), Segment lit kind seg start stop step
    ∧ start + k * step ≤ stop ∧ v = normalizeValue (start + k * step) kind.seven

/-- The integers of `strconv.Atoi`. -/
def Literal (text : List Char) (v : Int) : Prop := atoi text = some v

/-- … without a minus sign. -/
def Unsigned (text : List Char) (v : Int) : Prop := atoi text = some v ∧ '-' ∉ text

/-- The numbers that stand as steps in a token. -/
def stepNumbers (token : List Char) : List Int :=
  (split ',' token).filterMap (fun seg =>
    match split '/' seg with
    | [_, text] => atoi text
    | _ => none)

/-! ## Splitting and joining. -/

theorem split_eq_splitOn (sep : Char) : ∀ cs : List Char, split sep cs = cs.splitOn sep := by
  intro cs
  induction cs with
  | nil => rfl
  | cons c cs ih =>
  unfold split
  rw [ih]
  unfold splitOn
  rw [splitOnP_cons_eq_if_modifyHead]
  by_cases hc : c = sep
  · rw [if_pos hc, if_pos (by simpa using hc)]
  rw [if_neg hc, if_neg (by simpa using hc)]
  cases h : splitOnP (· == sep) cs with
  | nil => exact absurd h (splitOnP_ne_nil _ _)
  | cons p ps => rfl

theorem intercalate_split (sep : Char) (cs : List Char) : [sep].intercalate
    (split sep cs) = cs := by
  rw [split_eq_splitOn]
  exact intercalate_splitOn sep

theorem split_intercalate {sep : Char} {pieces : List (List Char)} (hne : pieces ≠ [])
    (hsep : ∀ piece ∈ pieces, sep ∉ piece) : split sep ([sep].intercalate pieces) = pieces := by
  rw [split_eq_splitOn]
  exact splitOn_intercalate sep hsep hne

theorem split_ne_nil (sep : Char) (cs : List Char) : split sep cs ≠ [] := by
  rw [split_eq_splitOn]
  exact splitOnP_ne_nil _ _

theorem mem_piece {sep : Char} :
    ∀ {cs piece : List Char}, piece ∈ split sep cs → ∀ c ∈ piece, c ≠ sep ∧ c ∈ cs := by
  intro cs
  induction cs with
  | nil =>
    intro piece h c hc
    rw [mem_singleton.mp h] at hc
    exact absurd hc not_mem_nil
  | cons d cs ih =>
  have hrest : ∀ piece ∈ split sep cs, ∀ c ∈ piece, c ≠ sep ∧ c ∈ d :: cs :=
    fun piece h c hc => ⟨(ih h c hc).1, .tail _ (ih h c hc).2⟩
  intro piece h c hc
  unfold split at h
  split at h
  next hd =>
    rcases mem_cons.mp h with rfl | h
    · exact absurd hc not_mem_nil
    · exact hrest piece h c hc
  next hd =>
    split at h
    next hnil => exact absurd hnil (split_ne_nil sep cs)
    next p ps hps =>
      rcases mem_cons.mp h with rfl | h
      · rcases mem_cons.mp hc with rfl | hc
        · exact ⟨hd, .head _⟩
        · exact hrest p (by rw [hps]; exact .head _) c hc
      · exact hrest piece (by rw [hps]; exact .tail _ h) c hc

theorem not_mem_piece {sep : Char} {cs piece : List Char} (h : piece ∈ split sep cs) :
    sep ∉ piece :=
  fun hsep => (mem_piece h sep hsep).1 rfl

/-- **Two pieces**: the text is the one, the separator and the other. -/
theorem split_eq_pair_iff {sep : Char} {cs a b : List Char} :
    split sep cs = [a, b] ↔ cs = a ++ sep :: b ∧ sep ∉ a ∧ sep ∉ b := by
  have hjoin : [sep].intercalate [a, b] = a ++ sep :: b := by simp [intercalate]
  constructor
  · intro h
    refine ⟨?_, ?_, ?_⟩
    · rw [← intercalate_split sep cs, h, hjoin]
    · exact not_mem_piece (by rw [h]; simp)
    · exact not_mem_piece (by rw [h]; simp)
  · rintro ⟨rfl, ha, hb⟩
    rw [← hjoin]
    apply split_intercalate (by simp)
    intro piece hpiece
    rcases mem_cons.mp hpiece with rfl | hpiece
    · exact ha
    · rw [mem_singleton.mp hpiece]
      exact hb

/-! ## Integers. -/

/-- A sign or a digit. -/
def isNumeral (c : Char) : Bool := c = '+' || c = '-' || (digit c).isSome

theorem digits_isSome {cs : List Char} : ∀ {acc n : Nat}, digits acc cs = some n →
    ∀ c ∈ cs, (digit c).isSome = true := by
  induction cs with
  | nil =>
    intro acc n _ c hc
    exact absurd hc not_mem_nil
  | cons d cs ih =>
  intro acc n h c hc
  unfold digits at h
  obtain ⟨v, hv, hrest⟩ := Option.bind_eq_some_iff.mp h
  rcases mem_cons.mp hc with rfl | hc
  · rw [hv]
    rfl
  · exact ih hrest c hc

theorem isNumeral_of_atoi {text : List Char} {v : Int} (h : atoi text = some v) :
    ∀ c ∈ text, isNumeral c = true := by
  -- what follows an optional sign is digits
  have hdigits : ∀ (neg : Bool) (ds : List Char), (if ds.isEmpty then none
      else do
        let n ← digits 0 ds
        let v : Int := if neg then -(n : Int) else n
        if -9223372036854775808 ≤ v ∧ v ≤ 9223372036854775807 then some v else none) = some v →
      ∀ c ∈ ds, isNumeral c = true := by
    intro neg ds hds c hc
    split at hds
    · cases hds
    · obtain ⟨n, hn, _⟩ := Option.bind_eq_some_iff.mp hds
      unfold isNumeral
      rw [digits_isSome hn c hc, Bool.or_true]
  intro c hc
  unfold atoi at h
  split at h
  next neg ds hsign =>
    split at hsign
    next rest =>
      obtain ⟨rfl, rfl⟩ := Prod.mk.inj hsign
      rcases mem_cons.mp hc with rfl | hc
      · rfl
      · exact hdigits true rest h c hc
    next rest =>
      obtain ⟨rfl, rfl⟩ := Prod.mk.inj hsign
      rcases mem_cons.mp hc with rfl | hc
      · rfl
      · exact hdigits false rest h c hc
    next =>
      obtain ⟨rfl, rfl⟩ := Prod.mk.inj hsign
      exact hdigits false _ h c hc

theorem not_mem_of_atoi {text : List Char} {v : Int} (h : atoi text = some v) {c : Char}
    (hc : isNumeral c = false) : c ∉ text := by
  intro hmem
  rw [isNumeral_of_atoi h c hmem] at hc
  cases hc

end AiScheduler.Cron
