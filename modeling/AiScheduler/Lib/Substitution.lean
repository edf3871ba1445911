/-
  **SIMULTANEOUS SUBSTITUTION, and when one replacement after the other is one.**

  `substitute T xs` cuts `xs` at the marks of the table `T` (`cut`) and fills in their values, all
  at once. Replacing one mark after the other works on a text that holds values already, and a
  value, or the text around it, can complete a mark. For marks that do not overlap (`MarksApart`):

    - `occurrences_fill`   — a text with some values filled in holds a mark at its holes, and where
                             it was made;
    - `made_mono`          — what is made stays made when more values are filled in;
    - `substitute_fill`    — a replacement that meets nothing made is a substitution;
    - `OnlyTemplate.replaceEach_eq`, `onlyTemplate_of_completes` — replacements that meet only marks
                             of the text itself are a substitution, and when they do.
-/
import Mathlib.Data.List.Basic
import Mathlib.Data.List.Infix
import Mathlib.Data.List.Nodup

namespace AiScheduler.Lib

open List

/-- A mark and the value that stands for it. -/
structure Entry (α : Type) where
  mark : List α
  value : List α
  deriving DecidableEq

/-- A piece of a text that was cut at its marks. -/
inductive Piece (α : Type) where
  | keep (x : α)
  | hole (e : Entry α)
  deriving DecidableEq

variable {α : Type} [DecidableEq α] {T A : List (Entry α)} {e c : Entry α}
  {done done' : Entry α → Bool} {p u w xs rest : List α} {ps ps' : List (Piece α)} {x : α}

/-- The text cut at its marks, from left to right, after the next `skip` characters. -/
def cut (T : List (Entry α)) : (skip : Nat) → List α → List (Piece α)
  | _, [] => []
  | skip + 1, _ :: xs => cut T skip xs
  | 0, x :: xs =>
    match T.find? (fun e => decide (e.mark <+: x :: xs)) with
    | some e => .hole e :: cut T (e.mark.length - 1) xs
    | none => .keep x :: cut T 0 xs

/-- A piece, where the entries `done` have been filled in. -/
def Piece.text (done : Entry α → Bool) : Piece α → List α
  | .keep x => [x]
  | .hole e => if done e then e.value else e.mark

def fill (done : Entry α → Bool) (ps : List (Piece α)) : List α := ps.flatMap (Piece.text done)

/-- **Simultaneous substitution**: every mark of the table by its value, and nothing else. -/
def substitute (T : List (Entry α)) (xs : List α) : List α := fill (fun _ => true) (cut T 0 xs)

/-- How often `p` begins in `u`, where `rest` follows. -/
def starts (p : List α) : (u rest : List α) → Nat
  | [], _ => 0
  | x :: u, rest => (if p <+: x :: (u ++ rest) then 1 else 0) + starts p u rest

def occurrences (p xs : List α) : Nat := starts p xs []

/-- No mark overlaps another or itself, none begins with another. -/
def MarksApart (T : List (Entry α)) : Prop :=
  ∀ e ∈ T, ∀ e' ∈ T, e.mark ≠ [] ∧ (e.mark <+: e'.mark → e = e')
    ∧ ∀ w ∈ e.mark.tail.tails, w ≠ [] → ¬ w <+: e'.mark ∧ ¬ e'.mark <+: w

instance (T : List (Entry α)) : Decidable (MarksApart T) :=
  inferInstanceAs (Decidable (∀ e ∈ T, ∀ e' ∈ T, e.mark ≠ [] ∧ (e.mark <+: e'.mark → e = e')
    ∧ ∀ w ∈ e.mark.tail.tails, w ≠ [] → ¬ w <+: e'.mark ∧ ¬ e'.mark <+: w))

/-- How often the mark of `e` begins elsewhere than at a hole of `e`. -/
def made (e : Entry α) (done : Entry α → Bool) : List (Piece α) → Nat
  | [] => 0
  | a :: ps => (if a = .hole e then 0 else starts e.mark (a.text done) (fill done ps))
      + made e done ps

/-! ## Beginnings in a text. -/

theorem starts_append (p u w rest : List α) :
    starts p (u ++ w) rest = starts p u (w ++ rest) + starts p w rest := by
  induction u with
  | nil => simp [starts]
  | cons x u ih =>
    simp only [cons_append, starts, ih, append_assoc]
    omega

omit [DecidableEq α] in
theorem prefix_append_cases (h : w <+: u ++ rest) :
    w <+: u ∨ ∃ v, w = u ++ v ∧ v <+: rest := by
  rcases prefix_or_prefix_of_prefix h (prefix_append u rest) with h' | ⟨v, rfl⟩
  · exact .inl h'
  · exact .inr ⟨v, rfl, (prefix_append_right_inj u).mp h⟩

theorem starts_mono {rest' : List α}
    (h : ∀ v, v <:+ p → v ≠ p → v <+: rest → v <+: rest') :
    starts p u rest ≤ starts p u rest' := by
  induction u with
  | nil => exact Nat.le_refl 0
  | cons x u ih =>
    have hhead : p <+: x :: (u ++ rest) → p <+: x :: (u ++ rest') := by
      intro hp
      rw [← cons_append] at hp ⊢
      rcases prefix_append_cases hp with hp | ⟨v, rfl, hv⟩
      · exact hp.trans (prefix_append _ _)
      · refine (prefix_append_right_inj _).mpr (h v (suffix_append _ _) ?_ hv)
        intro heq
        have := congrArg length heq
        simp at this
        omega
    unfold starts
    split <;> split <;> first | omega | exact absurd (hhead ‹_›) ‹_›

section Marks

variable (hT : MarksApart T) (he : e ∈ T)

include hT he

omit [DecidableEq α] in
theorem MarksApart.ne_nil : e.mark ≠ [] := (hT e he e he).1

omit [DecidableEq α] in
theorem MarksApart.suffix (hc : c ∈ T) (hw : w <:+ e.mark) (hne : w ≠ e.mark) (hnil : w ≠ []) :
    ¬ w <+: c.mark ∧ ¬ c.mark <+: w := by
  refine (hT e he c hc).2.2 w ((mem_tails _ _).mpr ?_) hnil
  obtain ⟨x, tail, heq⟩ := exists_cons_of_ne_nil (hT.ne_nil he)
  rw [heq] at hw hne ⊢
  exact (suffix_cons_iff.mp hw).resolve_left hne

omit [DecidableEq α] in
/-- Marks of one text that begin at the same place are one. -/
theorem MarksApart.eq_of_prefix (hc : c ∈ T) (h : e.mark <+: xs) (h' : c.mark <+: xs) : e = c := by
  rcases prefix_or_prefix_of_prefix h h' with h | h
  · exact (hT e he c hc).2.1 h
  · exact ((hT c hc e he).2.1 h).symm

theorem MarksApart.starts_suffix (hc : c ∈ T) (hu : u <:+ c.mark) (hne : u ≠ c.mark) :
    starts e.mark u rest = 0 := by
  induction u with
  | nil => rfl
  | cons x u ih =>
    have hlen := hu.length_le
    have htail := ih ((suffix_cons x u).trans hu) (by rintro rfl; rw [length_cons] at hlen; omega)
    obtain ⟨h, h'⟩ := hT.suffix hc he hu hne (by simp)
    unfold starts
    rw [htail, if_neg]
    intro hp
    rcases prefix_or_prefix_of_prefix hp (prefix_append (x :: u) rest) with hp | hp
    · exact h' hp
    · exact h hp

/-- In a mark of another entry nothing begins; in a mark, only itself. -/
theorem MarksApart.starts_mark (hc : c ∈ T) :
    starts e.mark c.mark rest = if e = c then 1 else 0 := by
  obtain ⟨x, tail, heq⟩ := exists_cons_of_ne_nil (hT.ne_nil hc)
  have htail : starts e.mark tail rest = 0 :=
    hT.starts_suffix he hc (by rw [heq]; exact suffix_cons x tail) (by rw [heq]; simp)
  have hhead : e.mark <+: x :: (tail ++ rest) ↔ e = c := by
    rw [← cons_append, ← heq]
    constructor
    · exact fun h => hT.eq_of_prefix he hc h (prefix_append _ _)
    · rintro rfl
      exact prefix_append _ _
  rw [heq, starts, htail]
  simp only [hhead, Nat.add_zero]

end Marks

/-! ## Cutting. -/

/-- What `cut` gives: a piece is kept where no mark begins. -/
inductive Cut (T : List (Entry α)) : List α → List (Piece α) → Prop where
  | nil : Cut T [] []
  | keep {x : α} {xs : List α} {ps : List (Piece α)} :
      (∀ e ∈ T, ¬ e.mark <+: x :: xs) → Cut T xs ps → Cut T (x :: xs) (.keep x :: ps)
  | hole {e : Entry α} {xs : List α} {ps : List (Piece α)} :
      e ∈ T → Cut T xs ps → Cut T (e.mark ++ xs) (.hole e :: ps)

theorem cut_drop (skip : Nat) (xs : List α) : cut T skip xs = cut T 0 (xs.drop skip) := by
  induction skip generalizing xs with
  | zero => rfl
  | succ skip ih =>
    cases xs with
    | nil => rfl
    | cons x xs => exact ih xs

theorem cut_spec (hT : MarksApart T) (n : Nat) : ∀ xs, xs.length ≤ n → Cut T xs (cut T 0 xs) := by
  induction n with
  | zero =>
    intro xs h
    rw [length_eq_zero_iff.mp (Nat.le_zero.mp h)]
    exact .nil
  | succ n ih =>
  intro xs h
  cases xs with
  | nil => exact .nil
  | cons x xs =>
  rw [length_cons] at h
  unfold cut
  split
  next e hfind =>
    have he := mem_of_find?_eq_some hfind
    have hp : e.mark <+: x :: xs := by simpa using find?_some hfind
    obtain ⟨rest, hrest⟩ := hp
    obtain ⟨y, tail, heq⟩ := exists_cons_of_ne_nil (hT.ne_nil he)
    have hdrop : xs.drop (e.mark.length - 1) = rest := by
      rw [heq] at hrest ⊢
      obtain ⟨_, rfl⟩ := cons.inj hrest
      simp
    rw [cut_drop, hdrop, ← hrest]
    refine .hole he (ih rest ?_)
    have := congrArg length hdrop
    rw [length_drop] at this
    omega
  next hfind =>
    refine .keep ?_ (ih xs (by omega))
    intro e he hp
    exact find?_eq_none.mp hfind e he (decide_eq_true hp)

theorem cut_of_cut (hT : MarksApart T) (h : Cut T xs ps) : cut T 0 xs = ps := by
  induction h with
  | nil => rfl
  | @keep x xs ps hno _ ih =>
    have hfind : T.find? (fun e => decide (e.mark <+: x :: xs)) = none :=
      find?_eq_none.mpr (fun e he => by simpa using hno e he)
    rw [cut, hfind]
    exact congrArg _ ih
  | @hole e xs ps he _ ih =>
    obtain ⟨y, tail, heq⟩ := exists_cons_of_ne_nil (hT.ne_nil he)
    have hp : e.mark <+: y :: (tail ++ xs) := by rw [heq]; exact prefix_append _ _
    have hfind : T.find? (fun e => decide (e.mark <+: y :: (tail ++ xs))) = some e := by
      cases hf : T.find? (fun e => decide (e.mark <+: y :: (tail ++ xs))) with
      | none => exact absurd (decide_eq_true hp) (find?_eq_none.mp hf e he)
      | some e' =>
        have hp' : e'.mark <+: y :: (tail ++ xs) := by simpa using find?_some hf
        rw [hT.eq_of_prefix (mem_of_find?_eq_some hf) he hp' hp]
    rw [heq, cons_append, cut, hfind]
    show Piece.hole e :: cut T (e.mark.length - 1) (tail ++ xs) = _
    rw [cut_drop, heq]
    simpa using ih

section Template

variable (hT : MarksApart T) (h : Cut T xs ps)

include h

omit [DecidableEq α] in
theorem fill_none_of_cut : fill (fun _ => false) ps = xs := by
  induction h with
  | nil => rfl
  | keep _ _ ih => exact congrArg _ ih
  | hole _ _ ih => exact congrArg _ ih

omit [DecidableEq α] in
theorem mem_of_cut : ∀ e, Piece.hole e ∈ ps → e ∈ T := by
  induction h with
  | nil => simp
  | keep _ _ ih => simpa using ih
  | hole he _ ih =>
    intro e' he'
    rcases mem_cons.mp he' with h | h
    · cases h
      exact he
    · exact ih e' h

include hT

/-- In the text itself the marks are at their holes. -/
theorem made_none_of_cut (he : e ∈ T) : made e (fun _ => false) ps = 0 := by
  induction h with
  | nil => rfl
  | keep hno hcut ih =>
    rw [made, ih, if_neg (by simp)]
    show starts e.mark [_] (fill _ _) + 0 = 0
    rw [fill_none_of_cut hcut]
    simp [starts, hno e he]
  | @hole c xs ps hc hcut ih =>
    rw [made, ih]
    split
    next => rfl
    next hne =>
      show starts e.mark c.mark _ + 0 = 0
      rw [hT.starts_mark he hc, if_neg]
      rintro rfl
      exact hne rfl

end Template

/-! ## Filling in. -/

section Fill

variable (hT : MarksApart T) (hps : ∀ c, Piece.hole c ∈ ps → c ∈ T) (he : e ∈ T)

include hT hps he

/-- **A mark occurs at its holes, and where it was made.** -/
theorem occurrences_fill (hdone : done e = false) :
    occurrences e.mark (fill done ps) = ps.count (.hole e) + made e done ps := by
  induction ps with
  | nil => rfl
  | cons a ps ih =>
    have hrest := ih (fun c hc => hps c (.tail _ hc))
    unfold occurrences at hrest ⊢
    show starts e.mark (a.text done ++ fill done ps) [] = _
    rw [starts_append, append_nil, hrest, made, count_cons]
    by_cases ha : a = .hole e
    · subst ha
      have htext : (Piece.hole e).text done = e.mark := by simp [Piece.text, hdone]
      rw [htext, hT.starts_mark he he, if_pos rfl, if_pos rfl, beq_self_eq_true, if_pos rfl]
      omega
    · rw [if_neg ha, if_neg (by simpa using ha)]
      omega

omit [DecidableEq α] in
/-- The end of a mark stays where it is when more values are filled in. -/
theorem suffix_prefix_fill (hle : ∀ c, done c = true → done' c = true) (hw : w <:+ e.mark)
    (hne : w ≠ e.mark) (h : w <+: fill done ps) : w <+: fill done' ps := by
  induction ps generalizing w with
  | nil => exact h
  | cons a ps ih =>
    have hps' := fun c hc => hps c (.tail _ hc)
    by_cases hnil : w = []
    · rw [hnil]
      exact nil_prefix
    -- the same text stands here, and the mark goes on after it
    have hsame : a.text done' = a.text done → w <+: fill done' (a :: ps) := by
      intro htext
      show w <+: a.text done' ++ fill done' ps
      rw [htext]
      rcases prefix_append_cases (show w <+: a.text done ++ fill done ps from h) with
        h | ⟨v, rfl, hv⟩
      · exact h.trans (prefix_append _ _)
      · refine (prefix_append_right_inj _).mpr
          (ih hps' ((suffix_append _ _).trans hw) ?_ hv)
        intro heq
        have := hw.length_le
        rw [← heq, length_append] at this
        exact hne (hw.eq_of_length_le (by rw [← heq, length_append]; omega))
    cases a with
    | keep x => exact hsame rfl
    | hole c =>
      by_cases hc : done c = true
      · exact hsame (by simp [Piece.text, hc, hle c hc])
      -- a mark still stands here, and the end of another cannot
      have hcT := hps c (.head _)
      obtain ⟨h₁, h₂⟩ := hT.suffix he hcT hw hne hnil
      have htext : (Piece.hole c).text done = c.mark := by simp [Piece.text, hc]
      have h : w <+: c.mark ++ fill done ps := by
        rw [← htext]
        exact h
      rcases prefix_or_prefix_of_prefix h (prefix_append _ _) with h | h
      · exact absurd h h₁
      · exact absurd h h₂

/-- **WHAT IS MADE STAYS MADE** when more values are filled in. -/
theorem made_mono (hle : ∀ c, done c = true → done' c = true) :
    made e done ps ≤ made e done' ps := by
  induction ps with
  | nil => exact Nat.le_refl 0
  | cons a ps ih =>
    have hps' := fun c hc => hps c (.tail _ hc)
    refine Nat.add_le_add ?_ (ih hps')
    split
    next => exact Nat.le_refl 0
    next ha =>
      have hsame : starts e.mark (a.text done) (fill done ps)
          ≤ starts e.mark (a.text done) (fill done' ps) :=
        starts_mono (fun v hv hne h => suffix_prefix_fill hT hps' he hle hv hne h)
      cases a with
      | keep x => exact hsame
      | hole c =>
        by_cases hc : done c = true
        · have htext : (Piece.hole c).text done' = (Piece.hole c).text done := by
            simp [Piece.text, hc, hle c hc]
          rw [htext]
          exact hsame
        · have htext : (Piece.hole c).text done = c.mark := by simp [Piece.text, hc]
          have hec : e ≠ c := fun h => ha (by rw [h])
          rw [htext, hT.starts_mark he (hps c (.head _)), if_neg hec]
          exact Nat.zero_le _

end Fill

theorem cut_append_of_starts (hu : ∀ e ∈ A, starts e.mark u rest = 0) (h : Cut A rest ps) :
    Cut A (u ++ rest) (u.map .keep ++ ps) := by
  induction u with
  | nil => exact h
  | cons x u ih =>
    refine .keep ?_ (ih (fun e he => (Nat.add_eq_zero_iff.mp (hu e he)).2))
    intro e he hp
    have hhead := (Nat.add_eq_zero_iff.mp (hu e he)).1
    rw [if_pos (show e.mark <+: x :: (u ++ rest) from hp)] at hhead
    cases hhead

omit [DecidableEq α] in
theorem fill_append (ps ps' : List (Piece α)) :
    fill done (ps ++ ps') = fill done ps ++ fill done ps' := flatMap_append

omit [DecidableEq α] in
theorem fill_map_keep (u : List α) : fill done (u.map .keep) = u := by
  induction u with
  | nil => rfl
  | cons x u ih => exact congrArg _ ih

/-- **A replacement that meets nothing made** fills in its entries. -/
theorem substitute_fill (hA : MarksApart A)
    (hnone : ∀ e ∈ A, done e = false ∧ made e done ps = 0) :
    substitute A (fill done ps) = fill (fun e => done e || decide (e ∈ A)) ps := by
  suffices hcut : ∃ ps', Cut A (fill done ps) ps'
      ∧ fill (fun _ => true) ps' = fill (fun e => done e || decide (e ∈ A)) ps by
    obtain ⟨ps', hcut, hfill⟩ := hcut
    rw [substitute, cut_of_cut hA hcut, hfill]
  induction ps with
  | nil => exact ⟨[], .nil, rfl⟩
  | cons a ps ih =>
    obtain ⟨ps', hcut, hfill⟩ :=
      ih (fun e he => ⟨(hnone e he).1, (Nat.add_eq_zero_iff.mp (hnone e he).2).2⟩)
    by_cases ha : ∃ e ∈ A, a = .hole e
    · obtain ⟨e, he, rfl⟩ := ha
      have htext : (Piece.hole e).text done = e.mark := by simp [Piece.text, (hnone e he).1]
      refine ⟨.hole e :: ps', ?_, ?_⟩
      · show Cut A ((Piece.hole e).text done ++ fill done ps) _
        rw [htext]
        exact .hole he hcut
      · show (Piece.hole e).text _ ++ fill _ ps' = (Piece.hole e).text _ ++ fill _ ps
        rw [hfill]
        simp [Piece.text, he]
    -- any other piece is read as it stands
    have hstarts : ∀ e ∈ A, starts e.mark (a.text done) (fill done ps) = 0 := by
      intro e he
      have := (Nat.add_eq_zero_iff.mp (hnone e he).2).1
      rwa [if_neg (fun h => ha ⟨e, he, h⟩)] at this
    have htext : a.text (fun e => done e || decide (e ∈ A)) = a.text done := by
      cases a with
      | keep x => rfl
      | hole c =>
        have hc : c ∉ A := fun hc => ha ⟨c, hc, rfl⟩
        simp [Piece.text, hc]
    refine ⟨_, cut_append_of_starts hstarts hcut, ?_⟩
    rw [fill_append, fill_map_keep, hfill]
    show _ = a.text _ ++ fill _ ps
    rw [htext]

/-! ## One replacement after the other. -/

/-- The replacements of `l`, one after the other. -/
def replaceEach (l : List (Entry α)) (xs : List α) : List α :=
  l.foldl (fun xs e => substitute [e] xs) xs

/-- Each replacement of `l` meets its mark as often as the text itself holds it. -/
def OnlyTemplate (l : List (Entry α)) (xs : List α) : Prop :=
  ∀ pre e post, l = pre ++ e :: post →
    occurrences e.mark (replaceEach pre xs) = occurrences e.mark xs

theorem OnlyTemplate.of_append {l l' : List (Entry α)} (h : OnlyTemplate (l ++ l') xs) :
    OnlyTemplate l xs := by
  intro pre e post heq
  exact h pre e (post ++ l') (by rw [heq]; simp)

section Orders

variable {l : List (Entry α)} (hT : MarksApart T)

omit [DecidableEq α] in
theorem MarksApart.subset (hT : MarksApart T) (hA : A ⊆ T) : MarksApart A :=
  fun e he c hc => hT e (hA he) c (hA hc)

include hT

theorem occurrences_eq_iff (hcut : Cut T xs ps) (he : e ∈ T) (hdone : done e = false) :
    occurrences e.mark (fill done ps) = occurrences e.mark xs ↔ made e done ps = 0 := by
  have hps := mem_of_cut hcut
  rw [occurrences_fill hT hps he hdone]
  conv =>
    lhs
    rhs
    rw [← fill_none_of_cut hcut, occurrences_fill hT hps he rfl, made_none_of_cut hT hcut he]
  omega

theorem substitute_subset (hcut : Cut T xs ps) (hA : A ⊆ T) :
    substitute A xs = fill (fun e => decide (e ∈ A)) ps := by
  have h := substitute_fill (hT.subset hA)
    (fun e he => ⟨rfl, made_none_of_cut hT hcut (hA he)⟩)
  rw [fill_none_of_cut hcut] at h
  simpa using h

/-- Replacements that meet only marks of the text are a substitution. -/
theorem OnlyTemplate.replaceEach_eq (h : OnlyTemplate l xs) (hl : l ⊆ T) (hnd : l.Nodup) :
    replaceEach l xs = substitute l xs := by
  have hcut := cut_spec hT _ xs (Nat.le_refl _)
  -- on the last replacement: it works on the result of those before it
  induction l using List.reverseRecOn with
  | nil =>
    rw [substitute_subset hT hcut hl]
    exact (fill_none_of_cut hcut).symm
  | append_singleton l e ih =>
    have hsub : l ⊆ T := fun c hc => hl (mem_append_left _ hc)
    have he : e ∈ T := hl (mem_append_right _ (.head _))
    have hel : e ∉ l := fun hel => disjoint_of_nodup_append hnd hel (.head _)
    have hprev := ih h.of_append hsub hnd.of_append_left
    rw [substitute_subset hT hcut hsub] at hprev
    have hmade := (occurrences_eq_iff hT hcut he (by simpa using hel)).mp
      (hprev ▸ h l e [] rfl)
    rw [substitute_subset hT hcut hl, replaceEach, foldl_append]
    show substitute [e] (replaceEach l xs) = _
    rw [hprev, substitute_fill (hT.subset (by simpa using he))
      (by simpa using ⟨hel, hmade⟩)]
    congr 1
    funext c
    simp

theorem substitute_perm {l' : List (Entry α)} (hl : l ⊆ T) (h : l'.Perm l) :
    substitute l' xs = substitute l xs := by
  have hcut := cut_spec hT _ xs (Nat.le_refl _)
  rw [substitute_subset hT hcut hl, substitute_subset hT hcut (fun e he => hl (h.subset he))]
  simp only [h.mem_iff]

/-- **WHEN ONE AFTER THE OTHER IS ALL AT ONCE**: where no mark is completed by what may have been
filled in before it. -/
theorem onlyTemplate_of_completes (hl : l ⊆ T) (hnd : l.Nodup)
    (h : ∀ pre e post, l = pre ++ e :: post → pre ≠ [] → ∃ A, pre ⊆ A ∧ A ⊆ T ∧ e ∉ A
      ∧ occurrences e.mark (substitute A xs) = occurrences e.mark xs) : OnlyTemplate l xs := by
  have hcut := cut_spec hT _ xs (Nat.le_refl _)
  induction l using List.reverseRecOn with
  | nil =>
    intro pre e post heq
    simp at heq
  | append_singleton l e ih =>
    have hsub : l ⊆ T := fun c hc => hl (mem_append_left _ hc)
    have he : e ∈ T := hl (mem_append_right _ (.head _))
    have hel : e ∉ l := fun hel => disjoint_of_nodup_append hnd hel (.head _)
    have honly : OnlyTemplate l xs := by
      refine ih hsub hnd.of_append_left ?_
      intro pre c post heq hne
      exact h pre c (post ++ [e]) (by rw [heq]; simp) hne
    intro pre c post heq
    rcases post.eq_nil_or_concat with rfl | ⟨post, b, rfl⟩
    · obtain ⟨rfl, hce⟩ := append_inj' heq rfl
      cases hce
      by_cases hnil : l = []
      · rw [hnil]
        rfl
      obtain ⟨A, hA, hAT, heA, hocc⟩ := h l e [] rfl hnil
      rw [substitute_subset hT hcut hAT, occurrences_eq_iff hT hcut he (by simpa using heA)] at hocc
      rw [honly.replaceEach_eq hT hsub hnd.of_append_left, substitute_subset hT hcut hsub,
        occurrences_eq_iff hT hcut he (by simpa using hel)]
      have hle : made e (fun c => decide (c ∈ l)) _ ≤ made e (fun c => decide (c ∈ A)) _ :=
        made_mono hT (mem_of_cut hcut) he (fun c hc => decide_eq_true (hA (of_decide_eq_true hc)))
      omega
    · have hinit : l = pre ++ c :: post := by
        have heq : l ++ [e] = (pre ++ c :: post) ++ [b] := by rw [heq]; simp
        exact (append_inj' heq rfl).1
      exact honly pre c post hinit

end Orders

end AiScheduler.Lib
