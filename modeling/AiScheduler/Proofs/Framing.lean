/-
  **FRAMES READ BACK.**

  Main results:
    * `frame_round_trips` — what `writeFrame` and a masking client send is what the reader finds.
    * `read_sound_iff` — which bytes at all the reader answers or refuses as it should.
-/
import AiScheduler.Ai.Frames
import Mathlib.Data.List.Basic

namespace AiScheduler.Frames

variable {n : Nat} {key rest : List UInt8} {heap : Heap}

/-! ## The parts of a frame. -/

theorem length_putUint (w n : Nat) : (putUint w n).length = w := by
  induction w generalizing n with
  | zero => rfl
  | succ w ih => simp [putUint, ih]

theorem uint_putUint (w : Nat) : ∀ n < 256 ^ w, uint (putUint w n) = n := by
  induction w with
  | zero =>
    intro n hn
    simp only [Nat.pow_zero] at hn
    simp [putUint, uint]
    omega
  | succ w ih =>
  intro n hn
  have hhigh := ih (n / 256) (by rw [Nat.pow_succ] at hn; omega)
  unfold uint at hhigh ⊢
  simp only [putUint, List.foldl_append, hhigh, List.foldl_cons, List.foldl_nil, UInt8.toNat_ofNat']
  omega

theorem readFull_append (xs ys : List UInt8) : readFull xs.length (xs ++ ys) = .ok (xs, ys) := by
  simp [readFull]

theorem mask_mask (key payload : List UInt8) : mask key (mask key payload) = payload := by
  apply List.ext_getElem
  · simp [mask]
  · intro i _ _
    simp only [mask, List.getElem_mapIdx]
    rw [UInt8.xor_assoc, UInt8.xor_self, UInt8.xor_zero]

theorem second_byte (n : Nat) : ∀ b, b = (lengthField n).1 →
    b &&& 0x7F = b ∧ b &&& 0x80 = 0 ∧ (b ||| 0x80) &&& 0x7F = b ∧ (b ||| 0x80) &&& 0x80 ≠ 0 := by
  have hall : ∀ m < 128, UInt8.ofNat m &&& 0x7F = UInt8.ofNat m ∧ UInt8.ofNat m &&& 0x80 = 0
      ∧ (UInt8.ofNat m ||| 0x80) &&& 0x7F = UInt8.ofNat m
      ∧ (UInt8.ofNat m ||| 0x80) &&& 0x80 ≠ 0 := by decide
  rintro b rfl
  unfold lengthField
  split
  · exact hall n (by omega)
  · split
    · exact hall 126 (by omega)
    · exact hall 127 (by omega)

theorem readLength_lengthField (h : n ≤ maxAlloc) (rest : List UInt8) :
    readLength (lengthField n).1 ((lengthField n).2 ++ rest) = .ok ((n : Int), rest) := by
  have hmax : maxAlloc = 281474976710656 := rfl
  have hread : ∀ w, readFull w (putUint w n ++ rest) = .ok (putUint w n, rest) := by
    intro w
    have happend := readFull_append (putUint w n) rest
    rwa [length_putUint] at happend
  unfold lengthField readLength
  split
  next hn =>
    have hval : (UInt8.ofNat n).toNat = n := by
      rw [UInt8.toNat_ofNat']
      omega
    have hne : ∀ m : UInt8, 125 < m.toNat → UInt8.ofNat n ≠ m := by
      rintro m hm rfl
      omega
    rw [if_neg (hne 126 (by decide)), if_neg (hne 127 (by decide)), hval]
    rfl
  next =>
    split
    next hn => simp [hread, Except.map, uint_putUint 2 n (by omega)]
    next =>
      have hwrap : wrap64 (n : Int) = n := by
        unfold wrap64
        rw [Int.bmod_def]
        omega
      simp [hread, Except.map, uint_putUint 8 n (by omega), hwrap]

/-- What a client sends: the frame of `writeFrame`, masked. -/
def maskedFrame (key : Vector UInt8 4) (payload : Bytes heap) : List UInt8 :=
  0x81 :: ((lengthField payload.data.length).1 ||| 0x80) ::
    ((lengthField payload.data.length).2 ++ (key.toList ++ mask key.toList payload.data))

theorem readHeader_plain (h : n ≤ maxAlloc) (rest : List UInt8) :
    readHeader (0x81 :: (lengthField n).1 :: ((lengthField n).2 ++ rest))
      = .ok (⟨n, none⟩, rest) := by
  obtain ⟨hlow, hbit, _, _⟩ := second_byte n _ rfl
  simp only [readHeader, hlow, hbit, readLength_lengthField h rest]
  rfl

theorem readHeader_masked (h : n ≤ maxAlloc) (hkey : key.length = 4) (rest : List UInt8) :
    readHeader (0x81 :: ((lengthField n).1 ||| 0x80) :: ((lengthField n).2 ++ (key ++ rest)))
      = .ok (⟨n, some key⟩, rest) := by
  obtain ⟨_, _, hlow, hbit⟩ := second_byte n _ rfl
  have hread := readFull_append key rest
  rw [hkey] at hread
  simp only [readHeader, hlow, readLength_lengthField h (key ++ rest), if_pos hbit]
  show Except.map _ (readFull 4 (key ++ rest)) = _
  rw [hread]
  rfl

theorem readFrame_of_header {bs body : List UInt8} {header : Header}
    (hbody : body.length ≤ heap.free) (hlength : header.length = body.length)
    (h : readHeader bs = .ok (header, body ++ rest)) :
    readFrame heap bs = .payload (header.unmask body) rest := by
  have hmax := heap.le_maxAlloc
  unfold readFrame
  rw [h]
  dsimp only
  rw [if_neg (by omega), if_neg (by omega), hlength, Int.toNat_natCast, readFull_append]

/-- **FRAMES ROUND-TRIP**: whatever follows it, a frame is read as its payload and its bytes exactly
are consumed, as `writeFrame` sends it and as a client masks it. -/
theorem frame_round_trips (heap : Heap) (payload : Bytes heap) (rest : List UInt8) :
    readFrame heap (writeFrame payload ++ rest) = .payload payload.data rest
      ∧ ∀ key : Vector UInt8 4,
          readFrame heap (maskedFrame key payload ++ rest) = .payload payload.data rest := by
  have hmax : payload.data.length ≤ maxAlloc := Nat.le_trans payload.fits heap.le_maxAlloc
  constructor
  · have hheader := readHeader_plain hmax (payload.data ++ rest)
    have hframe := readFrame_of_header payload.fits rfl hheader
    rw [show Header.unmask _ _ = payload.data from rfl] at hframe
    simpa [writeFrame] using hframe
  · intro key
    have hlength : (mask key.toList payload.data).length = payload.data.length := by simp [mask]
    have hheader := readHeader_masked hmax (key.length_toList)
      (mask key.toList payload.data ++ rest)
    have hframe := readFrame_of_header (by rw [hlength]; exact payload.fits) (by rw [hlength])
      hheader
    rw [show Header.unmask _ _ = mask _ _ from rfl, mask_mask] at hframe
    simpa [maskedFrame] using hframe

/-! ## Any bytes at all. -/

/-- The length a frame announces, where its header can be read. -/
def announced (bs : List UInt8) : Option Int := (readHeader bs).toOption.map (·.1.length)

/-- Reading ends with an error, or with a payload of the announced length. -/
def Sound (heap : Heap) (bs : List UInt8) : Prop :=
  (∃ text, readFrame heap bs = .error text)
    ∨ ∃ payload rest, readFrame heap bs = .payload payload rest
        ∧ announced bs = some (payload.length : Int)

theorem length_of_readFull {bs : List UInt8} {r : List UInt8 × List UInt8}
    (h : readFull n bs = .ok r) : r.1.length = n := by
  unfold readFull at h
  split at h
  next hle =>
    cases h
    exact List.length_take_of_le hle
  next => split at h <;> cases h

theorem length_unmask (header : Header) (payload : List UInt8) :
    (header.unmask payload).length = payload.length := by
  unfold Header.unmask
  split
  · simp [mask]
  · rfl

/-- **`ReadJSON` FAILS OR ANSWERS WHAT WAS ANNOUNCED, EXACTLY IF** the announced length can be
allocated. -/
theorem read_sound_iff (heap : Heap) (bs : List UInt8) :
    Sound heap bs
      ↔ ∀ length, announced bs = some length → 0 ≤ length ∧ length ≤ heap.free := by
  have hmax := heap.le_maxAlloc
  unfold Sound announced readFrame
  cases hheader : readHeader bs with
  | error text => exact ⟨fun _ _ h => (nomatch h), fun _ => .inl ⟨text, rfl⟩⟩
  | ok r =>
  obtain ⟨header, bs'⟩ := r
  simp only [Except.toOption, Option.map_some, Option.some.injEq, forall_eq']
  by_cases hrange : header.length < 0 ∨ maxAlloc < header.length
  · simp only [if_pos hrange]
    refine iff_of_false ?_ (by omega)
    rintro (⟨_, h⟩ | ⟨_, _, h, _⟩) <;> cases h
  by_cases hsize : heap.free < header.length
  · simp only [if_neg hrange, if_pos hsize]
    refine iff_of_false ?_ (by omega)
    rintro (⟨_, h⟩ | ⟨_, _, h, _⟩) <;> cases h
  refine ⟨fun _ => by omega, fun _ => ?_⟩
  simp only [if_neg hrange, if_neg hsize]
  cases hread : readFull header.length.toNat bs' with
  | error text => exact .inl ⟨text, rfl⟩
  | ok r =>
    refine .inr ⟨header.unmask r.1, r.2, rfl, ?_⟩
    rw [length_unmask, length_of_readFull hread]
    omega

theorem readFrame_of_out_of_range {bs : List UInt8} {length : Int}
    (h : announced bs = some length) (hrange : length < 0 ∨ maxAlloc < length) (heap : Heap) :
    readFrame heap bs = .panics "runtime error: makeslice: len out of range" := by
  unfold announced at h
  unfold readFrame
  cases hheader : readHeader bs with
  | error text =>
    rw [hheader] at h
    cases h
  | ok r =>
    rw [hheader] at h
    cases h
    exact if_pos hrange

/-- **A FRAME OF −1 BYTES**: eight length bytes 0xFF make the reader panic. -/
theorem negative_length_panics :
    announced [0x81, 0x7F, 0xFF, 0xFF, 0xFF, 0xFF, 0xFF, 0xFF, 0xFF, 0xFF] = some (-1)
      ∧ ∀ heap, readFrame heap [0x81, 0x7F, 0xFF, 0xFF, 0xFF, 0xFF, 0xFF, 0xFF, 0xFF, 0xFF]
          = .panics "runtime error: makeslice: len out of range" := by
  have hlength : announced [0x81, 0x7F, 0xFF, 0xFF, 0xFF, 0xFF, 0xFF, 0xFF, 0xFF, 0xFF]
      = some (-1) := by decide
  exact ⟨hlength, readFrame_of_out_of_range hlength (by decide)⟩

end AiScheduler.Frames
