import NavHAL.Boot.Image
import NavHAL.Crypto.Edsign

/-!
# The image check over compact25519 (`backend_compact25519.c`)

* `UsesCompact.ok_iff` : what the backend answers is what `edsign_verify` finds;
* `image_mod_order` : which changes of a signature an accepted image survives.
-/

namespace NavHAL.Boot

open Bytes Limbs Memory Flash Crypto

/-- `hal_boot_ed25519_verify`, where `none` is a null pointer -/
def halBootEd25519Verify (sig pk msg : Option (List UInt8)) (len : ℕ) : HalStatus :=
  if sig = none ∨ pk = none ∨ msg = none ∧ len ≠ 0 then .errInvalidArg
  else if compactEd25519Verify (sig.getD []) (pk.getD []) ((msg.getD []).take len) then .ok
  else .err

/-- The loader is built with this backend, whatever the tool signs with. -/
def UsesCompact (ed : Ed25519) : Prop :=
  ∀ sig pk msg, ed.verify sig pk msg = halBootEd25519Verify (some sig) (some pk) (some msg) msg.length

theorem UsesCompact.ok_iff {ed : Ed25519} (hed : UsesCompact ed) (sig pk msg : List UInt8) :
    ed.verify sig pk msg = .ok ↔ edsignVerify sig pk msg = 1 := by
  have hnull : ¬ (some sig = none ∨ some pk = none ∨ some msg = none ∧ msg.length ≠ 0) := by simp
  rw [hed, halBootEd25519Verify, if_neg hnull, Option.getD_some, Option.getD_some,
    Option.getD_some, List.take_length, ← compactEd25519Verify_eq_true]
  split
  · next h => exact iff_of_true rfl h
  · next h => exact iff_of_false (by decide) h

/-! ## Other signatures -/

/-- `S` of the signature in the header at `a`. -/
def sigScalar (mem : Mem) (a : ℕ) : ℕ := value (slice32 (headerAt mem a).sig 32).1

/-- Only the second half of the signature may differ. -/
def SameButScalar (mem mem' : Mem) (a : ℕ) : Prop :=
  ∀ x, x < a + 0x4C ∨ a + 0x6C ≤ x → mem' x = mem x

theorem slice_flash (mem : Mem) (a : ℕ) {n off : ℕ} (h : off + 32 ≤ n) :
    (slice32 (flashBytes mem a n) off).1 = flashBytes mem (a + off) 32 := by
  apply List.map_congr_left
  intro i hi
  have hin : off + i < (flashBytes mem a n).length := by
    rw [flashBytes_length]
    have hlt := List.mem_range.mp hi
    omega
  rw [List.getD_eq_getElem?_getD, List.getElem?_eq_getElem hin, Option.getD_some]
  simp only [flashBytes, List.getElem_map, List.getElem_range, Nat.add_assoc]

/-- **An accepted image stays accepted under another `S` exactly where that leaves the same
remainder by the order**, so that it is not the only image with its contents. -/
theorem image_mod_order {ed : Ed25519} (hed : UsesCompact ed) {pk : List UInt8} {mem mem' : Mem}
    {base maxBody : UInt32} (hsame : SameButScalar mem mem' base.toNat)
    (hgood : bootImageIsGood ed pk mem base maxBody = true) :
    bootImageIsGood ed pk mem' base maxBody = true ↔
      sigScalar mem' base.toNat % order = sigScalar mem base.toNat % order := by
  have hbytes : ∀ k n, k + n ≤ 0x4C ∨ 0x6C ≤ k →
      flashBytes mem' (base.toNat + k) n = flashBytes mem (base.toNat + k) n := by
    intro k n hk
    apply flashBytes_congr.mpr
    intro i hi
    apply hsame
    omega
  have hfirst : slice32 (headerAt mem' base.toNat).sig 0 =
      slice32 (headerAt mem base.toNat).sig 0 := by
    apply Subtype.ext
    rw [headerAt, headerAt, slice_flash _ _ (by decide), slice_flash _ _ (by decide)]
    exact hbytes 0x2C 32 (by omega)
  have hword : ∀ k, k + 4 ≤ 0x4C →
      flashWord mem' (base.toNat + k) = flashWord mem (base.toNat + k) := by
    intro k hk
    apply le32_inj
    rw [← flashBytes_word, ← flashBytes_word]
    exact hbytes k 4 (by omega)
  have hmagic : (headerAt mem' base.toNat).magic = (headerAt mem base.toNat).magic :=
    hword 0 (by decide)
  have hlength : (headerAt mem' base.toNat).length = (headerAt mem base.toNat).length :=
    hword 8 (by decide)
  have hdigest : (headerAt mem' base.toNat).digest = (headerAt mem base.toNat).digest :=
    hbytes 0x0C 32 (by decide)
  have hsigned : signedBytes mem' base.toNat = signedBytes mem base.toNat := by
    rw [signedBytes, signedBytes, bodyAt, bodyAt, hlength]
    congr 1
    · exact hbytes 0 12 (by decide)
    · exact hbytes _ _ (.inr (by decide))
  rw [bootImageIsGood_iff, hed.ok_iff] at hgood ⊢
  rw [hmagic, hlength, hdigest, hsigned]
  obtain ⟨hok₁, hok₂, hok₃, hok₄, hok⟩ := hgood
  rw [sigScalar, sigScalar, ← verify_mod_order hfirst hok]
  constructor
  · rintro ⟨-, -, -, -, h⟩
    exact h
  · intro h
    exact ⟨hok₁, hok₂, hok₃, hok₄, h⟩

/-! The neutral element as the key, which needs no secret to sign for. -/

def neutralSigner : Ed25519 where
  sign := fun _ _ => neutralKey ++ List.replicate 32 0
  verify := fun sig pk msg => halBootEd25519Verify (some sig) (some pk) (some msg) msg.length
  sign_length := fun _ _ => rfl

theorem neutral_usesCompact : UsesCompact neutralSigner := fun _ _ _ => rfl

theorem neutral_keyPair : neutralSigner.KeyPair (List.replicate 64 0) neutralKey where
  sk_length := rfl
  verifies := by
    intro msg
    have hsign : neutralSigner.sign (List.replicate 64 0) msg =
        neutralKey ++ List.replicate 32 0 := rfl
    rw [hsign, neutral_usesCompact.ok_iff]
    exact neutral_accepted msg (by decide +kernel) (by decide +kernel)

/-- What the tool makes of a body of one byte, the loader takes with its version and length. -/
theorem compact_format_agrees :
    (∃ image, navhalSign neutralSigner "app" (List.replicate 64 0) 7 [0xA5] = .ok image ∧
      ∀ mem, Shows mem bootmapAppBase.toNat image.length image →
        bootImageIsGood neutralSigner neutralKey mem bootmapAppBase bootmapAppUsable = true ∧
          (headerAt mem bootmapAppBase.toNat).version.toNat = 7 ∧
          (headerAt mem bootmapAppBase.toNat).length.toNat = 1) ∧
      AcceptsBounded neutralSigner neutralKey ∧ EditsRejected neutralSigner neutralKey := by
  obtain ⟨hsigner, hbounded, hedits⟩ :=
    image_format_agrees neutralSigner (List.replicate 64 0) neutralKey neutral_keyPair
  have happ : ⟨"app", bootmapAppUsable⟩ ∈ partitions := .tail _ (.head _)
  obtain ⟨hmakes, hgood⟩ := hsigner _ happ 7 [0xA5] (by decide)
  obtain ⟨image, himage⟩ := hmakes.mpr (by decide)
  exact ⟨⟨image, himage, hgood image himage⟩, hbounded, hedits⟩

/-- A memory that starts with an image of one byte. -/
def neutralImage : Mem := byteAt ((signedHeader neutralSigner [] 1 [0xA5]).bytes ++ [0xA5])

theorem shows_byteAt (img : List UInt8) (n : ℕ) : Shows (byteAt img) (0 : UInt32).toNat n img := by
  intro i _
  rw [UInt32.toNat_zero, Nat.zero_add]

theorem image_mod_order_neutral :
    bootImageIsGood neutralSigner neutralKey (write neutralImage 0x4C ed25519Order) 0 1 = true ↔
      sigScalar (write neutralImage 0x4C ed25519Order) (0 : UInt32).toNat % order =
        sigScalar neutralImage (0 : UInt32).toNat % order := by
  have hgood : bootImageIsGood neutralSigner neutralKey neutralImage 0 1 = true :=
    (signed_image_good neutral_keyPair (by decide) (by decide) (shows_byteAt _ _)).1
  apply image_mod_order neutral_usesCompact _ hgood
  intro x hx
  rw [UInt32.toNat_zero] at hx
  have hlen : ed25519Order.length = 32 := rfl
  rw [write, if_neg (by omega)]

end NavHAL.Boot
