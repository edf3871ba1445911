/-
  **WEBSOCKET FRAMES** (`internal/ai/stream/ws.go`): `writeFrame`, and what
  `ReadJSON` does before `json.Unmarshal`.
-/
import AiScheduler.Model.Types
import Mathlib.Algebra.GroupWithZero.Nat

namespace AiScheduler.Frames

/-- Go's `maxAlloc` on 64-bit Linux: `make` panics beyond it. -/
def maxAlloc : Nat := 2 ^ 48

/-- The bytes a process can still allocate, which is never more than `maxAlloc`. -/
structure Heap where
  free : Nat
  le_maxAlloc : free ≤ maxAlloc

/-- A slice of bytes that fits into the heap. -/
structure Bytes (heap : Heap) where
  data : List UInt8
  fits : data.length ≤ heap.free

/-- `binary.BigEndian.PutUint16` and `PutUint64`, for `w` bytes. -/
def putUint : Nat → Nat → List UInt8
  | 0, _ => []
  | w + 1, n => putUint w (n / 256) ++ [UInt8.ofNat n]

/-- `binary.BigEndian.Uint16` and `Uint64`. -/
def uint (bs : List UInt8) : Nat := bs.foldl (fun n b => n * 256 + b.toNat) 0

/-- The length of a frame: its byte in the header, and the bytes after it. -/
def lengthField (n : Nat) : UInt8 × List UInt8 :=
  if n ≤ 125 then (UInt8.ofNat n, [])
  else if n ≤ 65535 then (126, putUint 2 n)
  else (127, putUint 8 n)

/-- `writeFrame`: what it sends. -/
def writeFrame {heap : Heap} (payload : Bytes heap) : List UInt8 :=
  0x81 :: (lengthField payload.data.length).1 ::
    ((lengthField payload.data.length).2 ++ payload.data)

/-- `io.ReadFull` of `n` bytes: they and the bytes left. -/
def readFull (n : Nat) (bs : List UInt8) : Except String (List UInt8 × List UInt8) :=
  if n ≤ bs.length then .ok (bs.take n, bs.drop n)
  else if bs = [] then .error "EOF"
  else .error "unexpected EOF"

/-- The length of the payload, by the low bits of the second byte. -/
def readLength (b : UInt8) (bs : List UInt8) : Except String (Int × List UInt8) :=
  if b = 126 then (readFull 2 bs).map (fun r => ((uint r.1 : Int), r.2))
  else if b = 127 then (readFull 8 bs).map (fun r => (wrap64 (uint r.1), r.2))
  else .ok ((b.toNat : Int), bs)

/-- What stands before the payload. -/
structure Header where
  length : Int
  maskKey : Option (List UInt8)

/-- `ReadJSON` up to the allocation of the payload. -/
def readHeader : List UInt8 → Except String (Header × List UInt8)
  | [] => .error "read ws header: EOF"
  | [_] => .error "read ws header: unexpected EOF"
  | h₀ :: h₁ :: bs =>
    if h₀ &&& 0x0F = 0x08 then .error "client closed connection"
    else do
      let (length, bs) ← readLength (h₁ &&& 0x7F) bs
      if h₁ &&& 0x80 ≠ 0 then (readFull 4 bs).map (fun r => (⟨length, some r.1⟩, r.2))
      else .ok (⟨length, none⟩, bs)

/-- `payload[i] ^= maskKey[i%4]`, for every `i`. -/
def mask (key payload : List UInt8) : List UInt8 :=
  payload.mapIdx (fun i b => b ^^^ key.getD (i % 4) 0)

/-- The payload as the client had it. -/
def Header.unmask (header : Header) (payload : List UInt8) : List UInt8 :=
  match header.maskKey with
  | some key => mask key payload
  | none => payload

/-- An error of `ReadJSON`, a panic, the end of the process, or the payload and the bytes left. -/
inductive Outcome where
  | error (text : String)
  | panics (text : String)
  | fatal (text : String)
  | payload (bytes rest : List UInt8)
  deriving DecidableEq

/-- `ReadJSON`, before `json.Unmarshal`. -/
def readFrame (heap : Heap) (bs : List UInt8) : Outcome :=
  match readHeader bs with
  | .error text => .error text
  | .ok (header, bs) =>
    if header.length < 0 ∨ maxAlloc < header.length then
      .panics "runtime error: makeslice: len out of range"
    else if heap.free < header.length then .fatal "runtime: out of memory"
    else
      match readFull header.length.toNat bs with
      | .error text => .error text
      | .ok (payload, bs) => .payload (header.unmask payload) bs

end AiScheduler.Frames
