/-
  **A TEXT CUT BY BYTES IS A TEXT ONLY IF THE CUT FALLS BETWEEN TWO
  CHARACTERS.**

  A cut inside a character leaves its first bytes, and no suffix makes them
  valid again: what stands before a valid suffix of a valid text is valid.
-/
import AiScheduler.Ai.Texts

namespace AiScheduler.Texts

open String

variable {s suffix : String} {n : Nat} {b : ByteArray}

/-- The first characters of `s` take `n` bytes. -/
def OnBoundary (s : String) (n : Nat) : Prop := ∃ i, n = (ofList (s.toList.take i)).utf8ByteSize

/-- `r` is valid, at most `n` bytes from the start of `s`, perhaps with the suffix. -/
structure Keeps (s : String) (n : Nat) (suffix : String) (r : ByteArray) : Prop where
  valid : r.IsValidUTF8
  start : ∃ kept : ByteArray, kept = s.toByteArray.extract 0 kept.size ∧ kept.size ≤ n
    ∧ (r = kept ∨ r = kept ++ suffix.toByteArray)

theorem onBoundary_iff (h : n ≤ s.utf8ByteSize) :
    OnBoundary s n ↔ (s.toByteArray.extract 0 n).IsValidUTF8 := by
  have hpos := Pos.Raw.isValid_iff_isValidUTF8_extract_zero (s := s) (p := ⟨n⟩)
  rw [Pos.Raw.isValid_iff_exists_take_toList] at hpos
  exact hpos.trans (and_iff_right h)

theorem isValidUTF8_of_append (h : (b ++ suffix.toByteArray).IsValidUTF8) : b.IsValidUTF8 := by
  have hpos : Pos.Raw.IsValid (ofByteArray _ h) ⟨b.size⟩ := by
    rw [Pos.Raw.isValid_iff_isValidUTF8_extract_utf8ByteSize]
    constructor
    · show b.size ≤ (b ++ suffix.toByteArray).size
      rw [ByteArray.size_append]
      exact Nat.le_add_right _ _
    · show ((b ++ suffix.toByteArray).extract b.size (b ++ suffix.toByteArray).size).IsValidUTF8
      rw [ByteArray.extract_append_eq_right rfl ByteArray.size_append]
      exact suffix.isValidUTF8
  have hstart := hpos.isValidUTF8_extract_zero
  rwa [show ((ofByteArray _ h).toByteArray.extract 0 b.size) = b from
    ByteArray.extract_append_eq_left rfl] at hstart

/-- **A CUT TEXT IS KEPT VALID exactly when it is short, or cut on a boundary.** -/
theorem keeps_cut_iff :
    Keeps s n suffix (cut s n suffix) ↔ s.utf8ByteSize ≤ n ∨ OnBoundary s n := by
  unfold cut
  split
  next hlong =>
    have hsize : (s.toByteArray.extract 0 n).size = n := by
      rw [ByteArray.size_extract, size_toByteArray]
      omega
    -- what is left is whether the first `n` bytes are valid
    rw [or_iff_right (by omega), onBoundary_iff (by omega)]
    constructor
    · exact fun h => isValidUTF8_of_append h.valid
    · intro h
      exact ⟨h.append suffix.isValidUTF8, _, by rw [hsize], hsize.le, .inr rfl⟩
  next hshort =>
    refine iff_of_true ⟨s.isValidUTF8, _, ByteArray.extract_zero_size.symm, ?_, .inl rfl⟩ (.inl ?_)
    · rw [size_toByteArray]
      omega
    · omega

/-- **THE THREE FUNCTIONS KEEP A TEXT VALID exactly when what they cut is short enough or the limit
falls between two characters.** -/
theorem truncation_valid_iff (s : String) (n : Nat) :
    (Keeps (trim s) 1024 "" (trimExecutionMessage s)
        ↔ (trim s).utf8ByteSize ≤ 1024 ∨ OnBoundary (trim s) 1024)
      ∧ (Keeps s n "..." (truncateStr s n) ↔ s.utf8ByteSize ≤ n ∨ OnBoundary s n)
      ∧ (Keeps (oneLine s) n "..." (firstLine s n)
          ↔ (oneLine s).utf8ByteSize ≤ n ∨ OnBoundary (oneLine s) n) :=
  ⟨keeps_cut_iff, keeps_cut_iff, keeps_cut_iff⟩

/-- **A title of 17 Chinese characters** is cut after 50 bytes: in its last character. -/
theorem title_cut_inside_character :
    ¬ (firstLine (ofList (List.replicate 17 '测')) 50).IsValidUTF8 := by
  have hline : oneLine (ofList (List.replicate 17 '测')) = ofList (List.replicate 17 '测') := by
    decide
  have hcut : Pos.Raw.isValid (ofList (List.replicate 17 '测')) ⟨50⟩ = false := by decide
  intro hvalid
  unfold firstLine cut at hvalid
  rw [hline, if_pos (by decide)] at hvalid
  refine Pos.Raw.isValid_eq_false_iff.mp hcut ?_
  rw [Pos.Raw.isValid_iff_isValidUTF8_extract_zero]
  exact ⟨by decide, isValidUTF8_of_append hvalid⟩

end AiScheduler.Texts
