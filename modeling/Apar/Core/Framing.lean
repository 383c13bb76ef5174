/-
Streams of length-prefixed frames. A library: nothing here is about payments.

A frame is the length of its header in eight bytes, the most significant first, the header, and the payload. A stream is
the concatenation of its frames; where one payload ends is for the header to say.

- `BigEndian.value_bytes`, `BigEndian.bytes_value`: numbers and their bytes.
-/
import Mathlib.Tactic

namespace Apar

namespace BigEndian

/-- `n.to_bytes(width, "big")`, of a number that fits -/
def bytes : ℕ → ℕ → List UInt8
  | 0, _ => []
  | width + 1, n => bytes width (n / 256) ++ [UInt8.ofNat (n % 256)]

/-- `int.from_bytes(bs, "big")` -/
def value (bs : List UInt8) : ℕ := bs.foldl (fun n b => 256 * n + b.toNat) 0

@[simp] theorem length_bytes (width n : ℕ) : (bytes width n).length = width := by
  induction width generalizing n with
  | zero => rfl
  | succ width ih => rw [bytes, List.length_append, ih, List.length_singleton]

@[simp] theorem value_append_singleton (bs : List UInt8) (b : UInt8) : value (bs ++ [b]) = 256 * value bs + b.toNat := by
  simp [value]

theorem value_bytes {width n : ℕ} (h : n < 256 ^ width) : value (bytes width n) = n := by
  induction width generalizing n with
  | zero => simp [bytes, value] at h ⊢; omega
  | succ width ih =>
    have hdiv : n / 256 < 256 ^ width := Nat.div_lt_of_lt_mul (by rwa [Nat.pow_succ'] at h)
    have hbyte : (UInt8.ofNat (n % 256)).toNat = n % 256 := by
      rw [UInt8.toNat_ofNat']
      omega
    rw [bytes, value_append_singleton, ih hdiv, hbyte]
    omega

theorem bytes_value (bs : List UInt8) : bytes bs.length (value bs) = bs := by
  induction bs using List.reverseRecOn with
  | nil => rfl
  | append_singleton bs b ih =>
    have hb := b.toNat_lt
    have hdiv : (256 * value bs + b.toNat) / 256 = value bs := by omega
    have hmod : (256 * value bs + b.toNat) % 256 = b.toNat := by omega
    rw [List.length_append, List.length_singleton, bytes, value_append_singleton, hdiv, hmod, ih, UInt8.ofNat_toNat]

end BigEndian

namespace Framing

/-- a frame -/
def frame (header payload : List UInt8) : List UInt8 := BigEndian.bytes 8 header.length ++ header ++ payload

theorem length_frame (header payload : List UInt8) :
    (frame header payload).length = 8 + header.length + payload.length := by
  simp [frame, Nat.add_assoc]

/-- the header that a text starts with -/
theorem frame_prefix {header payload rest : List UInt8} (h : header.length < 256 ^ 8) :
    8 ≤ (frame header payload ++ rest).length ∧
      BigEndian.value ((frame header payload ++ rest).take 8) = header.length ∧
      ((frame header payload ++ rest).drop 8).take header.length = header ∧
      ((frame header payload ++ rest).drop 8).drop header.length = payload ++ rest := by
  have hsplit : frame header payload ++ rest = BigEndian.bytes 8 header.length ++ (header ++ (payload ++ rest)) := by
    simp [frame]
  have htake : (BigEndian.bytes 8 header.length ++ (header ++ (payload ++ rest))).take 8 = _ :=
    List.take_left' (BigEndian.length_bytes 8 header.length)
  have hdrop : (BigEndian.bytes 8 header.length ++ (header ++ (payload ++ rest))).drop 8 = _ :=
    List.drop_left' (BigEndian.length_bytes 8 header.length)
  refine ⟨?_, ?_, ?_, ?_⟩
  · simp [hsplit]
  · rw [hsplit, htake, BigEndian.value_bytes h]
  · rw [hsplit, hdrop, List.take_left' rfl]
  · rw [hsplit, hdrop, List.drop_left' rfl]

section Streams

variable {R : Type} (header payload : R → List UInt8)

/-- the stream of these records -/
def stream (rs : List R) : List UInt8 := rs.flatMap fun r => frame (header r) (payload r)

@[simp] theorem stream_nil : stream header payload [] = [] := rfl

@[simp] theorem stream_cons (r : R) (rs : List R) :
    stream header payload (r :: rs) = frame (header r) (payload r) ++ stream header payload rs := List.flatMap_cons

@[simp] theorem stream_append (rs rs' : List R) :
    stream header payload (rs ++ rs') = stream header payload rs ++ stream header payload rs' := List.flatMap_append

theorem stream_singleton (r : R) : stream header payload [r] = frame (header r) (payload r) := by simp

variable {header payload}

end Streams

end Framing

end Apar
