import NavHAL.Boot.Sha256
import NavHAL.Flash.Device
import Mathlib.Data.List.Basic

/-!
# The signed image

The partitions and the header of `hal_bootmap.h`, the check of
`verify_image.c`, and the signing half of `navhal_sign.c`.  The Ed25519
backends are a parameter.

* `image_format_agrees` : what the tool signs the loaders accept, and what
  they accept is bounded and cannot be edited under its digest.
-/

namespace NavHAL.Boot

open Bytes Memory Flash

/-! ## Partitions (`hal_bootmap.h`) -/

def bootmapStage2Base : UInt32 := 0x08010000
def bootmapStage2Size : UInt32 := 0x00010000
def bootmapAppBase : UInt32 := 0x08020000
def bootmapAppSize : UInt32 := 0x00060000
def bootmapHeaderSize : UInt32 := 512
def bootmapStage2Usable : UInt32 := bootmapStage2Size - bootmapHeaderSize
def bootmapAppUsable : UInt32 := bootmapAppSize - bootmapHeaderSize
def bootmapImageMagic : UInt32 := 0x4D49484E

/-- `HAL_BOOTMAP_SIGNED_PREFIX` -/
def bootmapSignedPrefix : Nat := 12

/-- `HAL_BOOT_SIG_SIZE` -/
def halBootSigSize : Nat := 64

/-- What fills the header up to its 512 bytes. -/
def bootmapPadSize : Nat := 512 - 12 - 32 - 64

/-! ## The header -/

/-- `hal_boot_image_header_t` -/
structure BootImageHeader where
  magic : UInt32
  version : UInt32
  length : UInt32
  digest : List UInt8
  sig : List UInt8
  pad : List UInt8
  digest_length : digest.length = halBootDigestSize
  sig_length : sig.length = halBootSigSize
  pad_length : pad.length = bootmapPadSize

/-- The first twelve bytes. -/
def BootImageHeader.prefixBytes (h : BootImageHeader) : List UInt8 :=
  le32 h.magic ++ le32 h.version ++ le32 h.length

def BootImageHeader.bytes (h : BootImageHeader) : List UInt8 :=
  h.prefixBytes ++ h.digest ++ h.sig ++ h.pad

/-- The header a `hal_boot_image_header_t *` at `a` reads. -/
def headerAt (mem : Mem) (a : Nat) : BootImageHeader where
  magic := flashWord mem a
  version := flashWord mem (a + 4)
  length := flashWord mem (a + 8)
  digest := flashBytes mem (a + 0x0C) halBootDigestSize
  sig := flashBytes mem (a + 0x2C) halBootSigSize
  pad := flashBytes mem (a + 0x6C) bootmapPadSize
  digest_length := flashBytes_length _ _ _
  sig_length := flashBytes_length _ _ _
  pad_length := flashBytes_length _ _ _

/-- The body behind the header at `a`. -/
def bodyAt (mem : Mem) (a : Nat) : List UInt8 :=
  flashBytes mem (a + bootmapHeaderSize.toNat) (headerAt mem a).length.toNat

/-! ## Ed25519 -/

/-- `crypto_ed25519_sign` of the tool and `hal_boot_ed25519_verify` of the loader. -/
structure Ed25519 where
  sign : (sk msg : List UInt8) → List UInt8
  verify : (sig pk msg : List UInt8) → HalStatus
  sign_length : ∀ sk msg, (sign sk msg).length = halBootSigSize

/-- A secret key of the right size, and the public key under which what it
signs verifies. -/
structure Ed25519.KeyPair (ed : Ed25519) (sk pk : List UInt8) : Prop where
  sk_length : sk.length = 64
  verifies : ∀ msg, ed.verify (ed.sign sk msg) pk msg = .ok

/-! ## Verifying -/

/-- `boot_image_is_good` -/
def bootImageIsGood (ed : Ed25519) (bootPubkey : List UInt8) (mem : Mem) (base maxBody : UInt32) :
    Bool :=
  let h := headerAt mem base.toNat
  if h.magic ≠ bootmapImageMagic then false
  else if h.length = 0 ∨ maxBody < h.length then false
  else
    let digest := halBootHashSplit (flashBytes mem base.toNat bootmapSignedPrefix)
      (bodyAt mem base.toNat)
    if digest ≠ h.digest then false
    else ed.verify h.sig bootPubkey digest == .ok

/-! ## Signing -/

/-- `struct partition` -/
structure Partition where
  name : String
  usable : UInt32

def partitions : List Partition :=
  [⟨"stage2", bootmapStage2Usable⟩, ⟨"app", bootmapAppUsable⟩]

/-- The header before it is hashed: `memset` to `0xFF`, then the first three fields. -/
def blankHeader (version length : UInt32) : BootImageHeader where
  magic := bootmapImageMagic
  version := version
  length := length
  digest := List.replicate halBootDigestSize 0xFF
  sig := List.replicate halBootSigSize 0xFF
  pad := List.replicate bootmapPadSize 0xFF
  digest_length := List.length_replicate
  sig_length := List.length_replicate
  pad_length := List.length_replicate

/-- The header with its digest and its signature filled in. -/
def signedHeader (ed : Ed25519) (sk : List UInt8) (version : UInt32) (body : List UInt8) :
    BootImageHeader :=
  let h := blankHeader version (UInt32.ofNat body.length)
  let h := { h with
    digest := halBootHashSplit h.prefixBytes body
    digest_length := halBootHashSplit_length _ _ }
  { h with
    sig := ed.sign sk h.digest
    sig_length := ed.sign_length _ _ }

/-- `main` of `navhal_sign` from the partition's name on: the image it writes,
or the message it dies with. -/
def navhalSign (ed : Ed25519) (part : String) (sk : List UInt8) (version : UInt64)
    (body : List UInt8) : Except String (List UInt8) :=
  match partitions.find? (fun p => p.name == part) with
  | none => .error "--partition must be stage2 or app"
  | some p =>
    if sk.length ≠ 64 then .error "--key must be a 64-byte secret key from --genkey"
    else if body.length = 0 then .error "--in is empty"
    else if p.usable.toNat < body.length then
      .error ("body is " ++ toString body.length ++ " bytes, " ++ p.name ++ " holds " ++
        toString p.usable)
    else .ok ((signedHeader ed sk version.toUInt32 body).bytes ++ body)

/-- Where a partition lies. -/
def Partition.base (p : Partition) : UInt32 :=
  if p.name = "stage2" then bootmapStage2Base else bootmapAppBase

/-! ## The header as bytes -/

theorem prefixBytes_length (h : BootImageHeader) : h.prefixBytes.length = bootmapSignedPrefix := rfl

theorem bytes_length (h : BootImageHeader) : h.bytes.length = bootmapHeaderSize.toNat := by
  simp only [BootImageHeader.bytes, List.length_append, prefixBytes_length, h.digest_length,
    h.sig_length, h.pad_length]
  rfl

theorem bytes_inj {h h' : BootImageHeader} (heq : h.bytes = h'.bytes) : h = h' := by
  obtain ⟨magic, version, length, digest, sig, pad, hdigest, hsig, hpad⟩ := h
  obtain ⟨magic', version', length', digest', sig', pad', hdigest', hsig', hpad'⟩ := h'
  simp only [BootImageHeader.bytes, BootImageHeader.prefixBytes] at heq
  obtain ⟨heq₁, rfl⟩ := List.append_inj' heq (hpad.trans hpad'.symm)
  obtain ⟨heq₂, rfl⟩ := List.append_inj' heq₁ (hsig.trans hsig'.symm)
  obtain ⟨heq₃, rfl⟩ := List.append_inj' heq₂ (hdigest.trans hdigest'.symm)
  obtain ⟨heq₄, hlength⟩ := List.append_inj' heq₃ rfl
  obtain ⟨hmagic, hversion⟩ := List.append_inj' heq₄ rfl
  obtain rfl := le32_inj hlength
  obtain rfl := le32_inj hmagic
  obtain rfl := le32_inj hversion
  rfl

section Header

variable (mem : Mem) (a : Nat)

/-- The header read at `a` is made of the 512 bytes there. -/
theorem headerAt_bytes : (headerAt mem a).bytes = flashBytes mem a 512 := by
  simp only [BootImageHeader.bytes, BootImageHeader.prefixBytes, headerAt, ← flashBytes_word,
    ← flashBytes_add, halBootDigestSize, halBootSigSize, bootmapPadSize]

theorem headerAt_prefix :
    (headerAt mem a).prefixBytes = flashBytes mem a bootmapSignedPrefix := by
  simp only [BootImageHeader.prefixBytes, headerAt, ← flashBytes_word, ← flashBytes_add]
  rfl

end Header

/-- A signed image in flash reads as its header and its body. -/
theorem headerAt_shows {mem : Mem} {a : Nat} {h : BootImageHeader} {body : List UInt8}
    (hshows : Shows mem a (h.bytes ++ body).length (h.bytes ++ body))
    (hlength : h.length.toNat = body.length) : headerAt mem a = h ∧ bodyAt mem a = body := by
  have hsize := bytes_length h
  have htotal : (h.bytes ++ body).length = h.bytes.length + body.length := List.length_append
  have hheader : headerAt mem a = h := by
    apply bytes_inj
    have hread := flashBytes_shows [] h.bytes body hshows (by simp)
    rw [headerAt_bytes, ← hread, hsize]
    rfl
  refine ⟨hheader, ?_⟩
  have hread := flashBytes_shows h.bytes body [] (by simpa using hshows) (by omega)
  rw [bodyAt, hheader, hlength, ← hsize, hread]

/-! ## What the check accepts -/

/-- What the digest covers. -/
def signedBytes (mem : Mem) (a : Nat) : List UInt8 :=
  flashBytes mem a bootmapSignedPrefix ++ bodyAt mem a

theorem bootImageIsGood_iff {ed : Ed25519} {pk : List UInt8} {mem : Mem} {base maxBody : UInt32} :
    bootImageIsGood ed pk mem base maxBody = true ↔
      (headerAt mem base.toNat).magic = bootmapImageMagic ∧
        1 ≤ (headerAt mem base.toNat).length.toNat ∧
        (headerAt mem base.toNat).length ≤ maxBody ∧
        halBootHash (signedBytes mem base.toNat) = (headerAt mem base.toNat).digest ∧
        ed.verify (headerAt mem base.toNat).sig pk (headerAt mem base.toNat).digest = .ok := by
  have hzero : (headerAt mem base.toNat).length = 0 ↔ (headerAt mem base.toNat).length.toNat = 0 :=
    (UInt32.toNat_inj (b := 0)).symm
  simp only [bootImageIsGood, halBootHashSplit_eq, ← signedBytes.eq_def]
  constructor
  · intro h
    split at h
    · cases h
    · next hmagic =>
      split at h
      · cases h
      · next hlength =>
        split at h
        · cases h
        · next hdigest =>
          rw [not_not] at hmagic hdigest
          rw [not_or, UInt32.not_lt, hzero] at hlength
          rw [hdigest] at h
          exact ⟨hmagic, by omega, hlength.2, hdigest, by simpa using h⟩
  · rintro ⟨hmagic, hpos, hle, hdigest, hsig⟩
    have hlength : ¬ ((headerAt mem base.toNat).length = 0 ∨
        maxBody < (headerAt mem base.toNat).length) := by
      rw [not_or, UInt32.not_lt, hzero]
      exact ⟨by omega, hle⟩
    rw [if_neg (not_not.mpr hmagic), if_neg hlength, if_neg (not_not.mpr hdigest), hdigest, hsig]
    rfl

/-- The check looks at nothing from `base + 512 + maxBody` on. -/
theorem bootImageIsGood_congr (ed : Ed25519) (pk : List UInt8) {mem mem' : Mem}
    {base maxBody : UInt32} (h : ∀ x, base.toNat ≤ x → x < base.toNat + 512 + maxBody.toNat →
      mem' x = mem x) :
    bootImageIsGood ed pk mem' base maxBody = bootImageIsGood ed pk mem base maxBody := by
  have hread : ∀ k n, k + n ≤ 512 + maxBody.toNat →
      flashBytes mem' (base.toNat + k) n = flashBytes mem (base.toNat + k) n := by
    intro k n hkn
    apply flashBytes_congr.mpr
    intro i hi
    exact h _ (by omega) (by omega)
  have hheader : headerAt mem' base.toNat = headerAt mem base.toNat := by
    apply bytes_inj
    rw [headerAt_bytes, headerAt_bytes]
    exact hread 0 512 (by omega)
  have hhead := hread 0 bootmapSignedPrefix (by simp only [bootmapSignedPrefix]; omega)
  by_cases hlength : (headerAt mem base.toNat).length ≤ maxBody
  · have hbody : bodyAt mem' base.toNat = bodyAt mem base.toNat := by
      rw [bodyAt, bodyAt, hheader]
      apply hread
      rw [UInt32.le_iff_toNat_le] at hlength
      exact Nat.add_le_add_left hlength 512
    rw [bootImageIsGood, bootImageIsGood, hheader, hbody, show flashBytes mem' base.toNat _ =
      flashBytes mem base.toNat _ from hhead]
  · rw [Bool.eq_iff_iff, bootImageIsGood_iff, bootImageIsGood_iff, hheader]
    constructor
    · rintro ⟨-, -, hle, -⟩
      exact absurd hle hlength
    · rintro ⟨-, -, hle, -⟩
      exact absurd hle hlength

/-! ## What the tool signs -/

section Signing

variable {ed : Ed25519} {sk pk : List UInt8} {p : Partition}

theorem partitions_find (hp : p ∈ partitions) :
    partitions.find? (fun q => q.name == p.name) = some p := by
  simp only [partitions, List.mem_cons, List.not_mem_nil, or_false] at hp
  rcases hp with rfl | rfl
  · rfl
  · rfl

/-- The tool signs every body that fits, and only those. -/
theorem navhalSign_ok_iff (hkey : ed.KeyPair sk pk) (hp : p ∈ partitions) (version : UInt64)
    (body image : List UInt8) :
    navhalSign ed p.name sk version body = .ok image ↔
      (1 ≤ body.length ∧ body.length ≤ p.usable.toNat) ∧
        image = (signedHeader ed sk version.toUInt32 body).bytes ++ body := by
  have hsk : ¬ sk.length ≠ 64 := not_not.mpr hkey.sk_length
  simp only [navhalSign, partitions_find hp, if_neg hsk]
  by_cases hempty : body.length = 0
  · simp only [hempty]
    constructor
    · intro h
      cases h
    · rintro ⟨⟨hpos, -⟩, -⟩
      omega
  · rw [if_neg hempty]
    by_cases hlarge : p.usable.toNat < body.length
    · rw [if_pos hlarge]
      constructor
      · intro h
        cases h
      · rintro ⟨⟨-, hle⟩, -⟩
        omega
    · rw [if_neg hlarge, Except.ok.injEq]
      constructor
      · rintro rfl
        exact ⟨⟨by omega, by omega⟩, rfl⟩
      · rintro ⟨-, rfl⟩
        rfl

/-- A signed body that fits is accepted wherever its image lies. -/
theorem signed_image_good (hkey : ed.KeyPair sk pk) {version : UInt32} {body : List UInt8}
    {base maxBody : UInt32} (hpos : 1 ≤ body.length) (hle : body.length ≤ maxBody.toNat)
    {mem : Mem} (hshows : Shows mem base.toNat
      ((signedHeader ed sk version body).bytes ++ body).length
      ((signedHeader ed sk version body).bytes ++ body)) :
    bootImageIsGood ed pk mem base maxBody = true ∧
      (headerAt mem base.toNat).version = version ∧
      (headerAt mem base.toNat).length.toNat = body.length := by
  have hlength : (signedHeader ed sk version body).length.toNat = body.length := by
    have hmax := maxBody.toNat_lt
    simp only [signedHeader, blankHeader, UInt32.toNat_ofNat']
    omega
  obtain ⟨hheader, hbody⟩ := headerAt_shows hshows hlength
  have hsigned : signedBytes mem base.toNat =
      (signedHeader ed sk version body).prefixBytes ++ body := by
    rw [signedBytes, ← headerAt_prefix, hheader, hbody]
  refine ⟨?_, by rw [hheader]; rfl, by rw [hheader, hlength]⟩
  rw [bootImageIsGood_iff, hsigned, hheader]
  refine ⟨rfl, by omega, ?_, ?_, hkey.verifies _⟩
  · rw [UInt32.le_iff_toNat_le, hlength]
    exact hle
  · rw [← halBootHashSplit_eq]
    rfl

end Signing

/-! ## One format -/

/-- The tool signs the bodies that fit a partition, and the loader accepts
their images, whatever else is in flash, with the version and length given. -/
def SignerAgrees (ed : Ed25519) (sk pk : List UInt8) : Prop :=
  ∀ p ∈ partitions, ∀ (version : UInt64) (body : List UInt8), version.toNat < UInt32.size →
    ((∃ image, navhalSign ed p.name sk version body = .ok image) ↔
      1 ≤ body.length ∧ body.length ≤ p.usable.toNat) ∧
    ∀ image, navhalSign ed p.name sk version body = .ok image →
      ∀ mem, Shows mem p.base.toNat image.length image →
        bootImageIsGood ed pk mem p.base p.usable = true ∧
          (headerAt mem p.base.toNat).version.toNat = version.toNat ∧
          (headerAt mem p.base.toNat).length.toNat = body.length

/-- What is accepted has the magic and a length within the bound, and no answer
depends on anything past the bound. -/
def AcceptsBounded (ed : Ed25519) (pk : List UInt8) : Prop :=
  ∀ (mem : Mem) (base maxBody : UInt32),
    (bootImageIsGood ed pk mem base maxBody = true →
      (headerAt mem base.toNat).magic = bootmapImageMagic ∧
        1 ≤ (headerAt mem base.toNat).length.toNat ∧
        (headerAt mem base.toNat).length.toNat ≤ maxBody.toNat) ∧
    ∀ mem' : Mem, (∀ x, base.toNat ≤ x → x < base.toNat + 512 + maxBody.toNat → mem' x = mem x) →
      bootImageIsGood ed pk mem' base maxBody = bootImageIsGood ed pk mem base maxBody

/-- Some byte of the magic, the version, the length or the body differs. -/
def SignedPartDiffers (mem mem' : Mem) (a : Nat) : Prop :=
  (∃ i < bootmapSignedPrefix, mem' (a + i) ≠ mem (a + i)) ∨
    ∃ i < (headerAt mem a).length.toNat, mem' (a + 512 + i) ≠ mem (a + 512 + i)

/-- An edit under the same digest is rejected, or is a collision of the hash. -/
def EditsRejected (ed : Ed25519) (pk : List UInt8) : Prop :=
  ∀ (mem mem' : Mem) (base maxBody : UInt32), bootImageIsGood ed pk mem base maxBody = true →
    (headerAt mem' base.toNat).digest = (headerAt mem base.toNat).digest →
    SignedPartDiffers mem mem' base.toNat →
    bootImageIsGood ed pk mem' base maxBody = false ∨
      signedBytes mem' base.toNat ≠ signedBytes mem base.toNat ∧
        halBootHash (signedBytes mem' base.toNat) = halBootHash (signedBytes mem base.toNat)

theorem signedBytes_ne {mem mem' : Mem} {a : Nat} (h : SignedPartDiffers mem mem' a) :
    signedBytes mem' a ≠ signedBytes mem a := by
  intro heq
  obtain ⟨hhead, hbody⟩ := List.append_inj heq (by simp)
  have hlength : (headerAt mem' a).length = (headerAt mem a).length := by
    rw [← headerAt_prefix, ← headerAt_prefix] at hhead
    exact le32_inj (List.append_inj' hhead rfl).2
  rw [bodyAt, bodyAt, hlength] at hbody
  rcases h with ⟨i, hi, hne⟩ | ⟨i, hi, hne⟩
  · exact hne (flashBytes_congr.mp hhead i hi)
  · exact hne (flashBytes_congr.mp hbody i hi)

theorem edits_rejected (ed : Ed25519) (pk : List UInt8) : EditsRejected ed pk := by
  intro mem mem' base maxBody hgood hdigest hdiffers
  cases hedited : bootImageIsGood ed pk mem' base maxBody with
  | false => exact Or.inl rfl
  | true =>
    obtain ⟨-, -, -, hhash, -⟩ := bootImageIsGood_iff.mp hgood
    obtain ⟨-, -, -, hhash', -⟩ := bootImageIsGood_iff.mp hedited
    exact Or.inr ⟨signedBytes_ne hdiffers, by rw [hhash, hhash', hdigest]⟩

/-- **Signer and verifier share one image format.** -/
theorem image_format_agrees (ed : Ed25519) (sk pk : List UInt8) (hkey : ed.KeyPair sk pk) :
    SignerAgrees ed sk pk ∧ AcceptsBounded ed pk ∧ EditsRejected ed pk := by
  refine ⟨?_, ?_, edits_rejected ed pk⟩
  · intro p hp version body hversion
    have hsign := navhalSign_ok_iff hkey hp version body
    constructor
    · constructor
      · rintro ⟨image, himage⟩
        exact ((hsign image).mp himage).1
      · intro hfits
        exact ⟨_, (hsign _).mpr ⟨hfits, rfl⟩⟩
    · intro image himage mem hshows
      obtain ⟨⟨hpos, hle⟩, rfl⟩ := (hsign image).mp himage
      obtain ⟨hgood, hver, hlength⟩ := signed_image_good hkey hpos hle hshows
      refine ⟨hgood, ?_, hlength⟩
      rw [hver, UInt64.toNat_toUInt32, Nat.mod_eq_of_lt hversion]
  · intro mem base maxBody
    constructor
    · intro hgood
      obtain ⟨hmagic, hpos, hle, -, -⟩ := bootImageIsGood_iff.mp hgood
      exact ⟨hmagic, hpos, UInt32.le_iff_toNat_le.mp hle⟩
    · intro mem' hsame
      exact bootImageIsGood_congr ed pk hsame

/-- A scheme that signs with the message itself, filled up to 64 bytes. -/
def echoEd25519 : Ed25519 where
  sign := fun _ msg => (msg ++ List.replicate halBootSigSize 0).take halBootSigSize
  verify := fun sig _ msg =>
    if sig = (msg ++ List.replicate halBootSigSize 0).take halBootSigSize then .ok else .err
  sign_length := by
    intro _ msg
    simp

end NavHAL.Boot
