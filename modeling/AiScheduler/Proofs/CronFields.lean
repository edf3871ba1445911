/-
  **`parseField` ACCEPTS EXACTLY THE FIELDS OF THE GRAMMAR, and stores the values they denote.**

  One equivalence per function of the parser, from the integers up. An integer with a MINUS SIGN
  is where parser and `strconv.Atoi` part: `-0` is zero to `Atoi`.
-/
import AiScheduler.Cron.Grammar

namespace AiScheduler.Cron

open Lib List

variable {kind : FieldKind} {v start stop step : Int} {base seg token : List Char}

variable {text cs : List Char} {lit : List Char → Int → Prop} {values values' : List Int}

theorem bind_eq_ok_iff {ε α β : Type} {x : Except ε α} {f : α → Except ε β} {b : β} :
    (x >>= f) = .ok b ↔ ∃ a, x = .ok a ∧ f a = .ok b := by
  cases x with
  | error e | ok a => simp [Bind.bind, Except.bind]

/-! ## Values. -/

theorem normalizeValue_bounds_iff (kind : FieldKind) (v : Int) :
    (kind.min ≤ normalizeValue v kind.seven ∧ normalizeValue v kind.seven ≤ kind.max)
      ↔ kind.InRange v := by
  unfold normalizeValue FieldKind.InRange
  cases kind with
  | week =>
    by_cases hv : v = 7 <;> simp [FieldKind.seven, FieldKind.min, FieldKind.max, hv]
  | _ => simp [FieldKind.seven]

theorem inRange_between {a b : Int} (ha : kind.InRange a)
    (hb : kind.InRange b) (hav : a ≤ v) (hvb : v ≤ b) : kind.InRange v := by
  unfold FieldKind.InRange at *
  cases kind with
  | week =>
    simp only [FieldKind.min, FieldKind.max, FieldKind.seven, true_and] at *
    omega
  | _ =>
    simp only [FieldKind.min, FieldKind.max, FieldKind.seven, Bool.false_eq_true, false_and,
      or_false] at *
    omega

theorem bounds_of_inRange (h : kind.InRange v) : 0 ≤ v ∧ v ≤ 59 := by
  unfold FieldKind.InRange at h
  cases kind <;> simp only [FieldKind.min, FieldKind.max] at h <;> omega

theorem parseValue_eq_ok_iff :
    parseValue text kind.min kind.max kind.seven = .ok v ↔ atoi text = some v ∧ kind.InRange v := by
  have hbounds := normalizeValue_bounds_iff kind
  unfold parseValue
  grind

/-! ## Bases. -/

theorem ne_star_of_atoi (h : atoi text = some v) : text ≠ ['*'] := by
  intro heq
  have hnone : atoi ['*'] = none := by decide
  rw [heq, hnone] at h
  cases h

/-- **`parseRange` returns the ends of a base**, and fails on everything else. -/
theorem parseRange_eq_ok_iff :
    parseRange base kind.min kind.max kind.seven = .ok (start, stop)
      ↔ Base Unsigned kind base start stop := by
  constructor
  · intro h
    unfold parseRange at h
    split at h
    next hstar =>
      injection h with h
      obtain ⟨rfl, rfl⟩ := Prod.mk.inj h
      rw [hstar]
      exact Base.star
    next =>
      split at h
      next hminus =>
        split at h
        next a b hsplit =>
          obtain ⟨hbase, ha, hb⟩ := split_eq_pair_iff.mp hsplit
          obtain ⟨x, hstart, h⟩ := bind_eq_ok_iff.mp h
          obtain ⟨y, hstop, h⟩ := bind_eq_ok_iff.mp h
          split at h
          · cases h
          next hle =>
            injection h with h
            obtain ⟨rfl, rfl⟩ := Prod.mk.inj h
            obtain ⟨hx, hxr⟩ := parseValue_eq_ok_iff.mp hstart
            obtain ⟨hy, hyr⟩ := parseValue_eq_ok_iff.mp hstop
            rw [hbase]
            exact Base.range ⟨hx, ha⟩ ⟨hy, hb⟩ hxr hyr (by omega)
        next => cases h
      next hminus =>
        obtain ⟨v, hvalue, h⟩ := bind_eq_ok_iff.mp h
        injection h with h
        obtain ⟨rfl, rfl⟩ := Prod.mk.inj h
        obtain ⟨hv, hr⟩ := parseValue_eq_ok_iff.mp hvalue
        exact Base.value ⟨hv, hminus⟩ hr
  · intro h
    cases h with
    | star => rfl
    | value hlit hr =>
      unfold parseRange
      rw [if_neg (ne_star_of_atoi hlit.1), if_neg hlit.2, parseValue_eq_ok_iff.mpr ⟨hlit.1, hr⟩]
      rfl
    | @range a b start stop ha hb hra hrb hle =>
      unfold parseRange
      have hstar : a ++ '-' :: b ≠ ['*'] := by
        intro heq
        have hmem : '-' ∈ ['*'] := by
          rw [← heq]
          simp
        exact absurd hmem (by decide)
      rw [if_neg hstar, if_pos (by simp), split_eq_pair_iff.mpr ⟨rfl, ha.2, hb.2⟩]
      dsimp only
      rw [parseValue_eq_ok_iff.mpr ⟨ha.1, hra⟩, parseValue_eq_ok_iff.mpr ⟨hb.1, hrb⟩]
      simp only [Bind.bind, Except.bind]
      rw [if_neg (by omega)]

theorem Base.bounds (h : Base lit kind base start stop) :
    kind.InRange start ∧ kind.InRange stop ∧ start ≤ stop := by
  cases h with
  | star =>
    unfold FieldKind.InRange
    cases kind <;> simp [FieldKind.min, FieldKind.max]
  | value _ hr => exact ⟨hr, hr, Int.le_refl _⟩
  | range _ _ hra hrb hle => exact ⟨hra, hrb, hle⟩

theorem not_mem_base
    (h : Base Unsigned kind base start stop) {c : Char} (hc : isNumeral c = false)
    (hstar : c ≠ '*') : c ∉ base := by
  cases h with
  | star => simpa using hstar
  | value hlit _ => exact not_mem_of_atoi hlit.1 hc
  | range ha hb _ _ _ =>
  intro hmem
  rcases mem_append.mp hmem with hmem | hmem
  · exact not_mem_of_atoi ha.1 hc hmem
  · rcases mem_cons.mp hmem with rfl | hmem
    · exact absurd hc (by decide)
    · exact not_mem_of_atoi hb.1 hc hmem

/-! ## Segments. -/

theorem Segment.bounds (h : Segment lit kind seg start stop step) :
    kind.InRange start ∧ kind.InRange stop ∧ start ≤ stop ∧ 0 < step := by
  cases h with
  | plain hbase => exact ⟨hbase.bounds.1, hbase.bounds.2.1, hbase.bounds.2.2, by decide⟩
  | stepped hbase _ hpos => exact ⟨hbase.bounds.1, hbase.bounds.2.1, hbase.bounds.2.2, hpos⟩

theorem comma_not_mem_segment (h : Segment Unsigned kind seg start stop step) : ',' ∉ seg := by
  cases h with
  | plain hbase => exact not_mem_base hbase (by decide) (by decide)
  | stepped hbase hstep _ =>
    have hb := not_mem_base hbase (c := ',') (by decide) (by decide)
    have hs := not_mem_of_atoi hstep (c := ',') (by decide)
    simp [hb, hs]

theorem segment_ne_nil (h : Segment Unsigned kind seg start stop step) : seg ≠ [] := by
  cases h with
  | stepped _ _ _ => simp
  | plain hbase =>
  cases hbase with
  | star | range _ _ _ _ _ => simp
  | value hlit _ =>
    intro hnil
    have hnone : atoi [] = none := by decide
    rw [hnil] at hlit
    exact absurd (hnone.symm.trans hlit.1) (by simp)

theorem addSegment_of_segment (h : Segment Unsigned kind seg start stop step) (values : List Int) :
    addSegment values seg kind.min kind.max kind.seven
      = addValues stop step kind.min kind.max kind.seven
        ((stop - start).toNat + 2) start values := by
  cases h with
  | plain hbase =>
    have hslash : '/' ∉ seg := not_mem_base hbase (by decide) (by decide)
    unfold addSegment
    rw [if_neg hslash]
    simp only [Bind.bind, Except.bind]
    rw [parseRange_eq_ok_iff.mpr hbase]
  | @stepped base text _ _ step hbase hstep hpos =>
    have hsplit : split '/' (base ++ '/' :: text) = [base, text] :=
      split_eq_pair_iff.mpr ⟨rfl, not_mem_base hbase (by decide) (by decide),
        not_mem_of_atoi hstep (by decide)⟩
    unfold addSegment
    rw [if_pos (by simp), hsplit]
    dsimp only
    rw [hstep]
    dsimp only
    rw [if_neg (by omega)]
    simp only [Bind.bind, Except.bind]
    rw [parseRange_eq_ok_iff.mpr hbase]

theorem segment_of_addSegment
    (h : addSegment values seg kind.min kind.max kind.seven = .ok values') :
    ∃ start stop step, Segment Unsigned kind seg start stop step := by
  unfold addSegment at h
  split at h
  next hslash =>
    split at h
    next base text hsplit =>
      obtain ⟨rfl, _, _⟩ := split_eq_pair_iff.mp hsplit
      split at h
      next step hstep =>
        split at h
        · simp [Bind.bind, Except.bind] at h
        next hpos =>
          obtain ⟨_, heq, h⟩ := bind_eq_ok_iff.mp h
          cases heq
          obtain ⟨⟨start, stop⟩, hr, _⟩ := bind_eq_ok_iff.mp h
          exact ⟨start, stop, step, Segment.stepped (parseRange_eq_ok_iff.mp hr) hstep (by omega)⟩
      next => simp [Bind.bind, Except.bind] at h
    next => simp [Bind.bind, Except.bind] at h
  next hslash =>
    obtain ⟨_, heq, h⟩ := bind_eq_ok_iff.mp h
    cases heq
    obtain ⟨⟨start, stop⟩, hr, _⟩ := bind_eq_ok_iff.mp h
    exact ⟨start, stop, 1, Segment.plain (parseRange_eq_ok_iff.mp hr)⟩

/-- **The loop of `addSegment`** adds every `step`-th value if the first sum does not wrap around;
the later ones stay within the field. -/
theorem addValues_spec (hstop : kind.InRange stop) (hpos : 0 < step) :
    ∀ (fuel : Nat) (value : Int) (values : List Int),
      kind.InRange value ∧ value + step < 9223372036854775808 ∨ stop < value →
      (stop - value + 1).toNat < fuel →
      ∃ values', addValues stop step kind.min kind.max kind.seven fuel value values = .ok values'
        ∧ ∀ v, v ∈ values' ↔ v ∈ values ∨ ∃ k : Nat, value + k * step ≤ stop
                ∧ v = normalizeValue (value + k * step) kind.seven := by
  intro fuel
  induction fuel with
  | zero =>
    intro value values _ hfuel
    exact absurd hfuel (by omega)
  | succ fuel ih =>
  intro value values hvalue hfuel
  unfold addValues
  by_cases hle : value ≤ stop
  · obtain ⟨hrange, hfits⟩ := hvalue.resolve_right (by omega)
    have hnorm := (normalizeValue_bounds_iff kind value).mpr hrange
    have hsmall := bounds_of_inRange hstop
    have hsmall' := bounds_of_inRange hrange
    have hwrap : wrap64 (value + step) = value + step :=
      wrap64_of_range (by omega) (by omega)
    rw [if_pos hle]
    dsimp only
    rw [if_neg (by omega), hwrap]
    have hnext : kind.InRange (value + step) ∧ value + step + step < 9223372036854775808
        ∨ stop < value + step := by
      by_cases hgt : stop < value + step
      · exact .inr hgt
      · exact .inl ⟨inRange_between hrange hstop (by omega) (by omega), by omega⟩
    obtain ⟨values', hvalues', hmem⟩ := ih (value + step)
      (values ++ [normalizeValue value kind.seven]) hnext (by omega)
    refine ⟨values', hvalues', ?_⟩
    intro v
    rw [hmem v, mem_append, mem_singleton, or_assoc, ← Nat.or_exists_add_one
      (p := fun k : Nat => value + k * step ≤ stop ∧ v = normalizeValue (value + k * step) _)]
    simp only [candidate_zero, candidate_succ, hle, true_and]
  · -- past the end
    rw [if_neg hle]
    refine ⟨values, rfl, ?_⟩
    intro v
    refine (or_iff_left ?_).symm
    rintro ⟨k, hk, _⟩
    have : 0 ≤ (k : Int) * step := Int.mul_nonneg (by omega) (by omega)
    omega

theorem addSegment_spec
    (h : Segment Unsigned kind seg start stop step) (hfits : start + step < 9223372036854775808)
    (values : List Int) :
    ∃ values', addSegment values seg kind.min kind.max kind.seven = .ok values'
      ∧ ∀ v, v ∈ values' ↔ v ∈ values ∨ ∃ k : Nat, start + k * step ≤ stop
              ∧ v = normalizeValue (start + k * step) kind.seven := by
  obtain ⟨hstart, hstop, hle, hpos⟩ := h.bounds
  rw [addSegment_of_segment h]
  exact addValues_spec hstop hpos _ start values (.inl ⟨hstart, hfits⟩) (by omega)

/-- A step that does not fit: the sum wraps around to a negative number, below every field. -/
theorem addValues_wraps (hrange : kind.InRange start) (hle : start ≤ stop)
    (hstep : step ≤ 9223372036854775807) (hover : 9223372036854775807 < start + step)
    (fuel : Nat) (values : List Int) :
    addValues stop step kind.min kind.max kind.seven (fuel + 2) start values
      = .error (.text s!"value {start + step - 18446744073709551616} out of range") := by
  have hnorm := (normalizeValue_bounds_iff kind start).mpr hrange
  have hsmall := bounds_of_inRange hrange
  have hmin : 0 ≤ kind.min := by cases kind <;> decide
  have hwrap : wrap64 (start + step) = start + step - 18446744073709551616 := by
    unfold wrap64
    rw [Int.bmod_def]
    split <;> omega
  have hseven : normalizeValue (start + step - 18446744073709551616) kind.seven
      = start + step - 18446744073709551616 := if_neg (by omega)
  unfold addValues
  rw [if_pos hle]
  dsimp only
  rw [if_neg (by omega), hwrap]
  unfold addValues
  rw [if_pos (by omega), hseven]
  exact if_pos (by omega)

theorem atoi_le (h : atoi text = some v) : v ≤ 9223372036854775807 := by
  unfold atoi at h
  split at h
  next neg ds _ =>
    split at h
    · cases h
    obtain ⟨n, _, h⟩ := Option.bind_eq_some_iff.mp h
    dsimp only at h
    generalize (if neg = true then -(n : Int) else n) = m at h
    split at h
    next hm =>
      cases h
      exact hm.2
    next => cases h

/-- **A STEPPED SEGMENT IS ADDED EXACTLY when `start + step` is a 64-bit number**; otherwise the
first counter wraps around, and the segment is refused. -/
theorem stepped_added_iff (hbase : parseRange base kind.min kind.max kind.seven = .ok (start, stop))
    (hstep : atoi text = some step) (hpos : 0 < step) (values : List Int) :
    ((∀ k : Nat, start + k * step ≤ stop → start + (k + 1) * step ≤ 9223372036854775807)
        ∧ ∃ values', addSegment values (base ++ '/' :: text) kind.min kind.max kind.seven
              = .ok values'
            ∧ ∀ v, v ∈ values' ↔ v ∈ values ∨ ∃ k : Nat, start + k * step ≤ stop
                    ∧ v = normalizeValue (start + k * step) kind.seven)
      ↔ start + step ≤ 9223372036854775807 := by
  have hseg : Segment Unsigned kind (base ++ '/' :: text) start stop step :=
    Segment.stepped (parseRange_eq_ok_iff.mp hbase) hstep hpos
  obtain ⟨hstart, hstop, hle, _⟩ := hseg.bounds
  have hlo := bounds_of_inRange hstart
  have hhi := bounds_of_inRange hstop
  constructor
  · rintro ⟨_, values', hvalues', _⟩
    by_contra hover
    -- the first sum is below every field, and at most `stop`
    rw [addSegment_of_segment hseg,
      addValues_wraps hstart hle (atoi_le hstep) (by omega)] at hvalues'
    cases hvalues'
  · intro hfits
    refine ⟨?_, addSegment_spec hseg (by omega) values⟩
    intro k hk
    cases k with
    | zero => simpa using hfits
    | succ k =>
    -- a second value: the step is within the field
    have hmul : 0 ≤ (k : Int) * step := Int.mul_nonneg (by omega) (by omega)
    push_cast at hk ⊢
    rw [Int.add_mul, Int.one_mul] at hk ⊢
    rw [Int.add_mul, Int.one_mul]
    omega

/-- Days 1, 3 and 5. -/
theorem stepped_added_of_two :
    addSegment [] "1-5/2".toList 1 31 false = .ok [1, 3, 5]
      ∧ ∀ k : Nat, (1 : Int) + k * 2 ≤ 5 → (1 : Int) + (k + 1) * 2 ≤ 9223372036854775807 :=
  ⟨by decide +kernel,
    ((@stepped_added_iff .day 1 5 2 "1-5".toList ['2'] rfl rfl (by decide) []).mpr (by decide)).1⟩

/-- **The largest step**: `1/9223372036854775807` is day 1, and is refused. -/
theorem largest_step_refused :
    parseRange ['1'] 1 31 false = .ok (1, 1)
      ∧ atoi "9223372036854775807".toList = some 9223372036854775807
      ∧ addSegment [] "1/9223372036854775807".toList 1 31 false
          = .error (.text "value -9223372036854775808 out of range") := by
  decide

/-! ## Lists. -/

theorem dropWhile_of_no_space (h : ∀ c ∈ cs, isSpace c = false) :
    cs.dropWhile isSpace = cs := by
  cases cs with
  | nil => rfl
  | cons c cs => exact dropWhile_cons_of_neg (by simp [h c mem_cons_self])

theorem trimSpace_of_no_space (h : ∀ c ∈ cs, isSpace c = false) :
    trimSpace cs = cs := by
  unfold trimSpace
  rw [dropWhile_of_no_space h, dropWhile_of_no_space (by simpa using h), reverse_reverse]

theorem segments_of_addSegments :
    ∀ {parts : List (List Char)} {values values' : List Int},
      (∀ part ∈ parts, ∀ c ∈ part, isSpace c = false) →
      addSegments kind.min kind.max kind.seven parts values = .ok values' →
      ∀ part ∈ parts, ∃ start stop step, Segment Unsigned kind part start stop step := by
  intro parts
  induction parts with
  | nil =>
    intro values values' _ _ part hpart
    exact absurd hpart not_mem_nil
  | cons p ps ih =>
  intro values values' hspace h
  unfold addSegments at h
  rw [trimSpace_of_no_space (hspace p mem_cons_self)] at h
  dsimp only at h
  split at h
  · cases h
  obtain ⟨values₁, hseg, h⟩ := bind_eq_ok_iff.mp h
  intro part hpart
  rcases mem_cons.mp hpart with rfl | hpart
  · exact segment_of_addSegment hseg
  · exact ih (fun q hq => hspace q (.tail _ hq)) h part hpart

/-- **Segments with small steps are added**, each with the values it denotes. -/
theorem addSegments_spec :
    ∀ {parts : List (List Char)} (values : List Int),
      (∀ part ∈ parts, ∀ c ∈ part, isSpace c = false) →
      (∀ part ∈ parts, ∃ start stop step, Segment Unsigned kind part start stop step) →
      (∀ part ∈ parts, ∀ start stop step, Segment Unsigned kind part start stop step →
        step ≤ 2 ^ 32) →
      ∃ values', addSegments kind.min kind.max kind.seven parts values = .ok values'
        ∧ ∀ v, v ∈ values' ↔ v ∈ values ∨ ∃ part ∈ parts, Denotes Unsigned kind part v := by
  intro parts
  induction parts with
  | nil =>
    intro values _ _ _
    exact ⟨values, rfl, fun v => by simp⟩
  | cons p ps ih =>
  intro values hspace hsegs hsteps
  obtain ⟨start, stop, step, hseg⟩ := hsegs p mem_cons_self
  have hfits : ∀ {part start stop step}, part ∈ p :: ps →
      Segment Unsigned kind part start stop step → start + step < 9223372036854775808 := by
    intro part start stop step hpart hseg
    have hstep := hsteps part hpart start stop step hseg
    have hstart := bounds_of_inRange hseg.bounds.1
    omega
  obtain ⟨values₁, hvalues₁, hmem₁⟩ := addSegment_spec hseg (hfits mem_cons_self hseg) values
  obtain ⟨values₂, hvalues₂, hmem₂⟩ := ih values₁ (fun q hq => hspace q (.tail _ hq))
    (fun q hq => hsegs q (.tail _ hq))
    (fun q hq => hsteps q (.tail _ hq))
  have hne : p.isEmpty = false := by simpa using segment_ne_nil hseg
  refine ⟨values₂, ?_, ?_⟩
  · unfold addSegments
    rw [trimSpace_of_no_space (hspace p mem_cons_self)]
    dsimp only
    rw [hne, if_neg (by simp), hvalues₁]
    exact hvalues₂
  intro v
  rw [hmem₂ v, hmem₁ v]
  simp only [mem_cons, exists_eq_or_imp]
  rw [← or_assoc]
  refine or_congr_left ⟨?_, ?_⟩
  · rintro (hv | ⟨k, hk, rfl⟩)
    · exact .inl hv
    · exact .inr ⟨start, stop, step, k, hseg, hk, rfl⟩
  · rintro (hv | ⟨start', stop', step', k, hseg', hk, rfl⟩)
    · exact .inl hv
    -- whichever way the segment is read, the same values were added
    obtain ⟨values₁', hvalues₁', hmem₁'⟩ := addSegment_spec hseg' (hfits mem_cons_self hseg') values
    cases hvalues₁.symm.trans hvalues₁'
    rw [← hmem₁, hmem₁']
    exact .inr ⟨k, hk, rfl⟩

theorem mem_stepNumbers
    (hmem : seg ∈ split ',' token) (h : Segment Unsigned kind seg start stop step) :
    step = 1 ∨ step ∈ stepNumbers token := by
  cases h with
  | plain _ => exact .inl rfl
  | @stepped base text _ _ step hbase hstep _ =>
    right
    refine mem_filterMap.mpr ⟨_, hmem, ?_⟩
    have hsplit : split '/' (base ++ '/' :: text) = [base, text] :=
      split_eq_pair_iff.mpr ⟨rfl, not_mem_base hbase (by decide) (by decide),
        not_mem_of_atoi hstep (by decide)⟩
    rw [hsplit]
    exact hstep

/-! ## Fields. -/

theorem parseField_of_ne_star
    (hspace : ∀ c ∈ token, isSpace c = false) (hne : token ≠ ['*']) (hnil : token ≠ []) :
    parseField token kind.min kind.max kind.seven
      = (addSegments kind.min kind.max kind.seven (split ',' token) []).map
          (fun values => { values := values, any := false }) := by
  unfold parseField
  rw [trimSpace_of_no_space hspace]
  dsimp only
  rw [if_neg (by simpa using hnil), if_neg hne]
  cases addSegments kind.min kind.max kind.seven (split ',' token) [] with
  | error e | ok values => rfl

theorem parseField_nil (kind : FieldKind) :
    parseField [] kind.min kind.max kind.seven = .error (.text "empty field") := rfl

theorem parseField_star (kind : FieldKind) :
    parseField ['*'] kind.min kind.max kind.seven = .ok { values := [], any := true } := by
  cases kind <;> rfl

theorem split_of_isList (h : IsList Unsigned kind token) :
    ∀ seg ∈ split ',' token, ∃ start stop step, Segment Unsigned kind seg start stop step := by
  obtain ⟨segs, hne, rfl, hsegs⟩ := h
  have hcomma : ∀ seg ∈ segs, ',' ∉ seg := by
    intro seg hseg
    obtain ⟨start, stop, step, hs⟩ := hsegs seg hseg
    exact comma_not_mem_segment hs
  rw [split_intercalate hne hcomma]
  exact hsegs

/-- **`parseField` ACCEPTS A TOKEN exactly when the grammar does**, with `strconv.Atoi`'s integers
without a minus sign; it then stores exactly the values the segments denote. -/
theorem parseField_grammar (kind : FieldKind) (token : List Char)
    (hspace : ∀ c ∈ token, isSpace c = false) (hsteps : ∀ n ∈ stepNumbers token, n ≤ 2 ^ 32) :
    ((∃ f, parseField token kind.min kind.max kind.seven = .ok f)
        ↔ token = ['*'] ∨ IsList Unsigned kind token)
      ∧ ∀ f, parseField token kind.min kind.max kind.seven = .ok f → token ≠ ['*'] → f.any = false
            ∧ (∃ segs, segs ≠ [] ∧ token = [','].intercalate segs ∧ (∀ seg ∈ segs, ',' ∉ seg)
                ∧ ∀ v, v ∈ f.values ↔ ∃ seg ∈ segs, Denotes Unsigned kind seg v)
            ∧ ∀ v ∈ f.values, kind.min ≤ v ∧ v ≤ kind.max := by
  have hparts : ∀ part ∈ split ',' token, ∀ c ∈ part, isSpace c = false :=
    fun part hpart c hc => hspace c (mem_piece hpart c hc).2
  have hsmall : ∀ part ∈ split ',' token, ∀ start stop step,
      Segment Unsigned kind part start stop step → step ≤ 2 ^ 32 := by
    intro part hpart start stop step hseg
    rcases mem_stepNumbers hpart hseg with rfl | hmem
    · decide
    · exact hsteps step hmem
  -- what the parser accepts is a list of segments
  have hsound : ∀ f, parseField token kind.min kind.max kind.seven = .ok f → token ≠ ['*'] →
      ∃ values, addSegments kind.min kind.max kind.seven (split ',' token) [] = .ok values
        ∧ f = { values := values, any := false } := by
    intro f hf hne
    have hnil : token ≠ [] := by
      intro hnil
      rw [hnil, parseField_nil] at hf
      cases hf
    rw [parseField_of_ne_star hspace hne hnil] at hf
    cases hadd : addSegments kind.min kind.max kind.seven (split ',' token) [] with
    | error e =>
      rw [hadd] at hf
      simp [Except.map] at hf
    | ok values =>
      rw [hadd] at hf
      injection hf with hf
      exact ⟨values, rfl, hf.symm⟩
  constructor
  · constructor
    · rintro ⟨f, hf⟩
      by_cases hne : token = ['*']
      · exact .inl hne
      · obtain ⟨values, hadd, _⟩ := hsound f hf hne
        exact .inr ⟨split ',' token, split_ne_nil _ _, (intercalate_split _ _).symm,
          segments_of_addSegments hparts hadd⟩
    · rintro (rfl | hlist)
      · exact ⟨_, parseField_star kind⟩
      · by_cases hne : token = ['*']
        · rw [hne]
          exact ⟨_, parseField_star kind⟩
        have hsegs := split_of_isList hlist
        obtain ⟨values, hadd, _⟩ := addSegments_spec [] hparts hsegs hsmall
        have hnil : token ≠ [] := by
          rintro rfl
          obtain ⟨start, stop, step, hseg⟩ := hsegs [] (List.mem_singleton.mpr rfl)
          exact segment_ne_nil hseg rfl
        refine ⟨{ values := values, any := false }, ?_⟩
        rw [parseField_of_ne_star hspace hne hnil, hadd]
        rfl
  · intro f hf hne
    obtain ⟨values, hadd, rfl⟩ := hsound f hf hne
    have hsegs := segments_of_addSegments hparts hadd
    obtain ⟨values', hadd', hmem⟩ := addSegments_spec [] hparts hsegs hsmall
    rw [hadd] at hadd'
    injection hadd' with heq
    subst heq
    refine ⟨rfl, ⟨split ',' token, split_ne_nil _ _, (intercalate_split _ _).symm,
      fun seg hseg => not_mem_piece hseg, ?_⟩, ?_⟩
    · intro v
      rw [hmem v]
      simp
    intro v hv
    rcases (hmem v).mp hv with hv | ⟨seg, _, start, stop, step, k, hseg, hk, rfl⟩
    · exact absurd hv List.not_mem_nil
    obtain ⟨hstart, hstop, _, hpos⟩ := hseg.bounds
    have hnonneg : 0 ≤ (k : Int) * step := Int.mul_nonneg (by omega) (by omega)
    rw [normalizeValue_bounds_iff]
    exact inRange_between hstart hstop (by omega) hk

/-- **A minus sign**: `-0` reads as 0, which is in range, and is refused. -/
theorem minus_zero_refused :
    IsList Literal .minute "-0".toList
      ∧ ∀ f, parseField "-0".toList FieldKind.minute.min FieldKind.minute.max
          FieldKind.minute.seven ≠ .ok f := by
  refine ⟨⟨["-0".toList], by simp, by decide, ?_⟩, ?_⟩
  · intro seg hseg
    rw [List.mem_singleton.mp hseg]
    exact ⟨0, 0, 1, Segment.plain (Base.value (show atoi _ = some 0 by decide) (.inl (by decide)))⟩
  intro f hf
  have hno : parseField "-0".toList FieldKind.minute.min FieldKind.minute.max
      FieldKind.minute.seven = .error (.text "invalid integer \"\"") := by rfl
  rw [hno] at hf
  cases hf

/-- Friday to Sunday, and every other day from Monday on. -/
theorem parseField_grammar_week :
    parseField "5-7,1-5/2".toList 0 6 true
        = .ok { values := [5, 6, 0, 1, 3, 5], any := false }
      ∧ IsList Unsigned .week "5-7,1-5/2".toList := by
  have h : parseField "5-7,1-5/2".toList 0 6 true
      = .ok { values := [5, 6, 0, 1, 3, 5], any := false } := by decide +kernel
  have hall : "5-7,1-5/2".toList.all (fun c => isSpace c == false) = true := by decide
  have hspace : ∀ c ∈ "5-7,1-5/2".toList, isSpace c = false :=
    fun c hc => eq_of_beq (List.all_eq_true.mp hall c hc)
  have hlist := (parseField_grammar .week "5-7,1-5/2".toList hspace (by decide)).1.mp ⟨_, h⟩
  exact ⟨h, hlist.resolve_left (by decide)⟩

/-! ## Parsed schedules. -/

theorem mem_of_addValues {min max : Int} {seven : Bool} {fuel : Nat} {value : Int}
    (h : addValues stop step min max seven fuel value values = .ok values') :
    ∀ v ∈ values, v ∈ values' := by
  induction fuel generalizing value values with
  | zero => grind [addValues]
  | succ fuel ih =>
    unfold addValues at h
    split at h
    · have hrest := @ih (values ++ [normalizeValue value seven]) (wrap64 (value + step))
      grind
    · grind

theorem mem_of_addSegments {parts : List (List Char)}
    (h : addSegments kind.min kind.max kind.seven parts values = .ok values') :
    ∀ v ∈ values, v ∈ values' := by
  induction parts generalizing values with
  | nil => grind [addSegments]
  | cons p ps ih =>
  unfold addSegments at h
  dsimp only at h
  split at h
  · cases h
  obtain ⟨values₁, hseg, h⟩ := bind_eq_ok_iff.mp h
  obtain ⟨start, stop, step, hsegment⟩ := segment_of_addSegment hseg
  rw [addSegment_of_segment hsegment] at hseg
  exact fun v hv => ih h v (mem_of_addValues hseg v hv)

theorem start_mem_of_addSegment
    (h : addSegment values seg kind.min kind.max kind.seven = .ok values') :
    ∃ v ∈ values', kind.min ≤ v ∧ v ≤ kind.max := by
  obtain ⟨start, stop, step, hsegment⟩ := segment_of_addSegment h
  obtain ⟨hstart, _, hle, _⟩ := hsegment.bounds
  have hnorm := (normalizeValue_bounds_iff kind start).mpr hstart
  rw [addSegment_of_segment hsegment] at h
  unfold addValues at h
  rw [if_pos hle] at h
  dsimp only at h
  rw [if_neg (by omega)] at h
  exact ⟨normalizeValue start kind.seven,
    mem_of_addValues h _ (mem_append_right _ (mem_singleton.mpr rfl)), hnorm⟩

/-- **A parsed field contains a value of its range.** -/
theorem exists_contains_of_parseField {f : Field}
    (h : parseField token kind.min kind.max kind.seven = .ok f) :
    ∃ v, kind.min ≤ v ∧ v ≤ kind.max ∧ f.contains v = true := by
  unfold parseField at h
  dsimp only at h
  split at h
  · cases h
  split at h
  · injection h with h
    refine ⟨kind.min, Int.le_refl _, ?_, by rw [← h]; rfl⟩
    cases kind <;> decide
  obtain ⟨values, hadd, h⟩ := bind_eq_ok_iff.mp h
  injection h with h
  cases hparts : split ',' (trimSpace token) with
  | nil => exact absurd hparts (split_ne_nil _ _)
  | cons p ps =>
  -- the first segment is enough
  rw [hparts] at hadd
  unfold addSegments at hadd
  dsimp only at hadd
  split at hadd
  · cases hadd
  obtain ⟨values₁, hseg, hadd⟩ := bind_eq_ok_iff.mp hadd
  obtain ⟨v, hv, hmin, hmax⟩ := start_mem_of_addSegment hseg
  refine ⟨v, hmin, hmax, ?_⟩
  rw [← h]
  simpa [Field.contains] using mem_of_addSegments hadd v hv

theorem of_wrapping {α : Type} {context : String} {x : Except Err α} {a : α}
    (h : wrapping context x = .ok a) : x = .ok a := by
  cases x with
  | error e => simp [wrapping] at h
  | ok b => exact h

def Schedule.field (s : Schedule) : FieldKind → Field
  | .minute => s.minute
  | .hour => s.hour
  | .day => s.day
  | .month => s.month
  | .week => s.week

/-- **Each field of a parsed schedule contains a value of its range.** -/
theorem exists_contains_of_parse {expr : String} {s : Schedule} (h : parse expr = .ok s)
    (kind : FieldKind) : ∃ v, kind.min ≤ v ∧ v ≤ kind.max ∧ (s.field kind).contains v = true := by
  unfold parse at h
  split at h
  next p0 p1 p2 p3 p4 _ =>
    obtain ⟨minute, h0, h⟩ := bind_eq_ok_iff.mp h
    obtain ⟨hour, h1, h⟩ := bind_eq_ok_iff.mp h
    obtain ⟨day, h2, h⟩ := bind_eq_ok_iff.mp h
    obtain ⟨month, h3, h⟩ := bind_eq_ok_iff.mp h
    obtain ⟨week, h4, h⟩ := bind_eq_ok_iff.mp h
    cases h
    cases kind with
    | minute => exact exists_contains_of_parseField (of_wrapping h0)
    | hour => exact exists_contains_of_parseField (of_wrapping h1)
    | day => exact exists_contains_of_parseField (of_wrapping h2)
    | month => exact exists_contains_of_parseField (of_wrapping h3)
    | week => exact exists_contains_of_parseField (of_wrapping h4)
  next => cases h

end AiScheduler.Cron
