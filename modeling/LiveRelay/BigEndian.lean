/-! # Numbers as bytes, most significant first

`encode width n` writes the low `width` bytes of `n`, and `decode` reads a list of
bytes of any length. Reading what was written gives the number back, up to the bytes
that do not fit (`decode_encode`), and writing what was read gives the bytes back
(`encode_decode`).
-/

namespace LiveRelay.BigEndian

/-- The low `width` bytes of `n`, most significant first. -/
def encode : (width : Nat) → (n : Nat) → List UInt8
  | 0, _ => []
  | width + 1, n => encode width (n / 256) ++ [UInt8.ofNat n]

/-- The number that the bytes spell. -/
def decode (bytes : List UInt8) : Nat :=
  bytes.foldl (fun n byte => n * 256 + byte.toNat) 0

@[simp] theorem length_encode (width n : Nat) : (encode width n).length = width := by
  induction width generalizing n with
  | zero => rfl
  | succ width ih => simp [encode, ih]

@[simp] theorem decode_nil : decode [] = 0 := rfl

@[simp] theorem decode_concat (bytes : List UInt8) (byte : UInt8) :
    decode (bytes ++ [byte]) = decode bytes * 256 + byte.toNat := by
  simp [decode]

theorem decode_encode (width n : Nat) : decode (encode width n) = n % Nat.pow 256 width := by
  induction width generalizing n with
  | zero => exact (Nat.mod_one n).symm
  | succ width ih =>
      have hbyte : (UInt8.ofNat n).toNat = n % 256 := UInt8.toNat_ofNat'
      change _ = n % (Nat.pow 256 width * 256)
      rw [encode, decode_concat, ih, hbyte, Nat.mul_comm (Nat.pow 256 width), Nat.mod_mul,
        Nat.mul_comm, Nat.add_comm]

theorem foldl_eq (bytes : List UInt8) (n : Nat) :
    bytes.foldl (fun n byte => n * 256 + byte.toNat) n
      = n * Nat.pow 256 bytes.length + decode bytes := by
  induction bytes generalizing n with
  | nil => exact (Nat.mul_one n).symm
  | cons byte bytes ih =>
      have hpow : Nat.pow 256 (bytes.length + 1) = 256 * Nat.pow 256 bytes.length :=
        Nat.mul_comm _ _
      have hbyte := ih (0 * 256 + byte.toNat)
      rw [decode, List.foldl_cons, List.foldl_cons, ih, hbyte, List.length_cons, hpow,
        Nat.zero_mul, Nat.zero_add, Nat.add_mul, Nat.mul_assoc, Nat.add_assoc]

theorem decode_cons (byte : UInt8) (bytes : List UInt8) :
    decode (byte :: bytes) = byte.toNat * Nat.pow 256 bytes.length + decode bytes := by
  rw [decode, List.foldl_cons, foldl_eq, Nat.zero_mul, Nat.zero_add]

theorem decode_lt (bytes : List UInt8) : decode bytes < Nat.pow 256 bytes.length := by
  induction bytes with
  | nil => exact Nat.zero_lt_one
  | cons byte bytes ih =>
      have hpow : Nat.pow 256 (bytes.length + 1) = 256 * Nat.pow 256 bytes.length :=
        Nat.mul_comm _ _
      have hmul := Nat.mul_le_mul_right (Nat.pow 256 bytes.length) byte.toNat_lt
      rw [Nat.succ_mul] at hmul
      rw [decode_cons, List.length_cons, hpow]
      omega

/-- Writing what was read gives the bytes back. -/
theorem encode_decode (width : Nat) (bytes : List UInt8) (h : bytes.length = width) :
    encode width (decode bytes) = bytes := by
  induction width generalizing bytes with
  | zero => rw [List.length_eq_zero_iff.mp h, encode]
  | succ width ih =>
      have hne : bytes ≠ [] := List.ne_nil_of_length_eq_add_one h
      have hfront : bytes.dropLast.length = width := by rw [List.length_dropLast, h]; rfl
      generalize hlast : bytes.getLast hne = last
      have hlt := last.toNat_lt
      have hbyte : UInt8.ofNat (decode bytes.dropLast * 256 + last.toNat) = last := by
        apply UInt8.toNat_inj.mp
        rw [UInt8.toNat_ofNat']
        omega
      have hdiv : (decode bytes.dropLast * 256 + last.toNat) / 256 = decode bytes.dropLast := by
        omega
      rw [← List.dropLast_concat_getLast hne, hlast, decode_concat, encode, hbyte, hdiv,
        ih _ hfront]

/-- A number may be written in two parts. -/
theorem encode_add (width tail n : Nat) :
    encode (width + tail) n = encode width (n / Nat.pow 256 tail) ++ encode tail n := by
  induction tail generalizing n with
  | zero => rw [encode, List.append_nil]; congr 1; exact (Nat.div_one n).symm
  | succ tail ih =>
      have hpow : Nat.pow 256 (tail + 1) = 256 * Nat.pow 256 tail := Nat.mul_comm _ _
      rw [← Nat.add_assoc, encode, ih, encode, hpow, Nat.div_div_eq_div_mul, List.append_assoc]

end LiveRelay.BigEndian
