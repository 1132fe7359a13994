import NavHAL.Boot.Frame
import NavHAL.Lib.CrcRegister

/-!
# Bits, bytes and words of CRC-32/MPEG-2

The three ways of the repository to fold data into the register: bit by bit
(`crc32_mpeg2` of the loader), a byte at a time from a table (`hal_crc.c`) and a
word at a time in the peripheral.

* `halCrcSwStep_eq` : the table computes what the bits do;
* `crcUnitWrite_eq` : a word written is its four bytes, the high one first.
-/

namespace NavHAL.Crc

open CrcRegister Boot

/-! ## The table (`hal_crc.c`) -/

/-- `crc32_mpeg2_table` -/
def crc32Mpeg2Table : List UInt32 := [
  0x00000000, 0x04C11DB7, 0x09823B6E, 0x0D4326D9, 0x130476DC, 0x17C56B6B, 0x1A864DB2, 0x1E475005,
  0x2608EDB8, 0x22C9F00F, 0x2F8AD6D6, 0x2B4BCB61, 0x350C9B64, 0x31CD86D3, 0x3C8EA00A, 0x384FBDBD,
  0x4C11DB70, 0x48D0C6C7, 0x4593E01E, 0x4152FDA9, 0x5F15ADAC, 0x5BD4B01B, 0x569796C2, 0x52568B75,
  0x6A1936C8, 0x6ED82B7F, 0x639B0DA6, 0x675A1011, 0x791D4014, 0x7DDC5DA3, 0x709F7B7A, 0x745E66CD,
  0x9823B6E0, 0x9CE2AB57, 0x91A18D8E, 0x95609039, 0x8B27C03C, 0x8FE6DD8B, 0x82A5FB52, 0x8664E6E5,
  0xBE2B5B58, 0xBAEA46EF, 0xB7A96036, 0xB3687D81, 0xAD2F2D84, 0xA9EE3033, 0xA4AD16EA, 0xA06C0B5D,
  0xD4326D90, 0xD0F37027, 0xDDB056FE, 0xD9714B49, 0xC7361B4C, 0xC3F706FB, 0xCEB42022, 0xCA753D95,
  0xF23A8028, 0xF6FB9D9F, 0xFBB8BB46, 0xFF79A6F1, 0xE13EF6F4, 0xE5FFEB43, 0xE8BCCD9A, 0xEC7DD02D,
  0x34867077, 0x30476DC0, 0x3D044B19, 0x39C556AE, 0x278206AB, 0x23431B1C, 0x2E003DC5, 0x2AC12072,
  0x128E9DCF, 0x164F8078, 0x1B0CA6A1, 0x1FCDBB16, 0x018AEB13, 0x054BF6A4, 0x0808D07D, 0x0CC9CDCA,
  0x7897AB07, 0x7C56B6B0, 0x71159069, 0x75D48DDE, 0x6B93DDDB, 0x6F52C06C, 0x6211E6B5, 0x66D0FB02,
  0x5E9F46BF, 0x5A5E5B08, 0x571D7DD1, 0x53DC6066, 0x4D9B3063, 0x495A2DD4, 0x44190B0D, 0x40D816BA,
  0xACA5C697, 0xA864DB20, 0xA527FDF9, 0xA1E6E04E, 0xBFA1B04B, 0xBB60ADFC, 0xB6238B25, 0xB2E29692,
  0x8AAD2B2F, 0x8E6C3698, 0x832F1041, 0x87EE0DF6, 0x99A95DF3, 0x9D684044, 0x902B669D, 0x94EA7B2A,
  0xE0B41DE7, 0xE4750050, 0xE9362689, 0xEDF73B3E, 0xF3B06B3B, 0xF771768C, 0xFA325055, 0xFEF34DE2,
  0xC6BCF05F, 0xC27DEDE8, 0xCF3ECB31, 0xCBFFD686, 0xD5B88683, 0xD1799B34, 0xDC3ABDED, 0xD8FBA05A,
  0x690CE0EE, 0x6DCDFD59, 0x608EDB80, 0x644FC637, 0x7A089632, 0x7EC98B85, 0x738AAD5C, 0x774BB0EB,
  0x4F040D56, 0x4BC510E1, 0x46863638, 0x42472B8F, 0x5C007B8A, 0x58C1663D, 0x558240E4, 0x51435D53,
  0x251D3B9E, 0x21DC2629, 0x2C9F00F0, 0x285E1D47, 0x36194D42, 0x32D850F5, 0x3F9B762C, 0x3B5A6B9B,
  0x0315D626, 0x07D4CB91, 0x0A97ED48, 0x0E56F0FF, 0x1011A0FA, 0x14D0BD4D, 0x19939B94, 0x1D528623,
  0xF12F560E, 0xF5EE4BB9, 0xF8AD6D60, 0xFC6C70D7, 0xE22B20D2, 0xE6EA3D65, 0xEBA91BBC, 0xEF68060B,
  0xD727BBB6, 0xD3E6A601, 0xDEA580D8, 0xDA649D6F, 0xC423CD6A, 0xC0E2D0DD, 0xCDA1F604, 0xC960EBB3,
  0xBD3E8D7E, 0xB9FF90C9, 0xB4BCB610, 0xB07DABA7, 0xAE3AFBA2, 0xAAFBE615, 0xA7B8C0CC, 0xA379DD7B,
  0x9B3660C6, 0x9FF77D71, 0x92B45BA8, 0x9675461F, 0x8832161A, 0x8CF30BAD, 0x81B02D74, 0x857130C3,
  0x5D8A9099, 0x594B8D2E, 0x5408ABF7, 0x50C9B640, 0x4E8EE645, 0x4A4FFBF2, 0x470CDD2B, 0x43CDC09C,
  0x7B827D21, 0x7F436096, 0x7200464F, 0x76C15BF8, 0x68860BFD, 0x6C47164A, 0x61043093, 0x65C52D24,
  0x119B4BE9, 0x155A565E, 0x18197087, 0x1CD86D30, 0x029F3D35, 0x065E2082, 0x0B1D065B, 0x0FDC1BEC,
  0x3793A651, 0x3352BBE6, 0x3E119D3F, 0x3AD08088, 0x2497D08D, 0x2056CD3A, 0x2D15EBE3, 0x29D4F654,
  0xC5A92679, 0xC1683BCE, 0xCC2B1D17, 0xC8EA00A0, 0xD6AD50A5, 0xD26C4D12, 0xDF2F6BCB, 0xDBEE767C,
  0xE3A1CBC1, 0xE760D676, 0xEA23F0AF, 0xEEE2ED18, 0xF0A5BD1D, 0xF464A0AA, 0xF9278673, 0xFDE69BC4,
  0x89B8FD09, 0x8D79E0BE, 0x803AC667, 0x84FBDBD0, 0x9ABC8BD5, 0x9E7D9662, 0x933EB0BB, 0x97FFAD0C,
  0xAFB010B1, 0xAB710D06, 0xA6322BDF, 0xA2F33668, 0xBCB4666D, 0xB8757BDA, 0xB5365D03, 0xB1F740B4]

/-- `CRC_TABLE_READ` -/
def crcTableRead (i : UInt8) : UInt32 := crc32Mpeg2Table.getD i.toNat 0

/-- `hal_crc_sw_step` on a buffer that is there. -/
def halCrcSwStep (crc : UInt32) (data : List UInt8) : UInt32 :=
  data.foldl (fun (crc : UInt32) (b : UInt8) =>
    (crc <<< 8) ^^^ crcTableRead ((crc >>> 24) ^^^ b.toUInt32).toUInt8) crc

/-! ## The peripheral -/

/-- A word written to `CRC->DR`: the register folds in its thirty-two bits. -/
def crcUnitWrite (dr word : UInt32) : UInt32 := Nat.repeat crcBit 32 (dr ^^^ word)

/-- Four bytes as the driver writes them. -/
def crcWord (b0 b1 b2 b3 : UInt8) : UInt32 :=
  (b0.toUInt32 <<< 24) ||| (b1.toUInt32 <<< 16) ||| (b2.toUInt32 <<< 8) ||| b3.toUInt32

/-! ## Bit vectors -/

/-- A byte at bit `k` of the register. -/
def byteAt (b : UInt8) (k : Nat) : BitVec 32 := b.toBitVec.setWidth 32 <<< k

theorem byteAt_getLsbD (b : UInt8) (k i : Nat) (hi : i < 32) :
    (byteAt b k).getLsbD i = (decide (k ≤ i) && b.toBitVec.getLsbD (i - k)) := by
  have hlt : i - k < 32 := by omega
  simp only [byteAt, BitVec.getLsbD_shiftLeft, BitVec.getLsbD_setWidth, hi, hlt, decide_true,
    Bool.true_and]
  by_cases hk : k ≤ i
  · simp [hk]
  · simp [hk, Nat.lt_of_not_le hk]

theorem byte_getLsbD (b : UInt8) {i : Nat} (hi : 8 ≤ i) : b.toBitVec.getLsbD i = false :=
  BitVec.getLsbD_of_ge _ _ hi

/-- The polynomial of `crcBit`. -/
def mpeg2Poly : BitVec 32 := 0x04C11DB7#32

theorem topBit_and (x : BitVec 32) : x &&& 0x80000000#32 = 0#32 ↔ x.msb = false := by
  have hand : x &&& 0x80000000#32 = if x.getLsbD 31 then 0x80000000#32 else 0#32 :=
    BitVec.and_twoPow x 31
  have hmsb : x.msb = x.getLsbD 31 := BitVec.msb_eq_getLsbD_last x
  rw [hand, hmsb]
  cases x.getLsbD 31 <;> decide

theorem crcBit_toBitVec (crc : UInt32) :
    (crcBit crc).toBitVec = bitStep mpeg2Poly crc.toBitVec := by
  have htop : crc &&& 0x80000000 ≠ 0 ↔ crc.toBitVec.msb = true := by
    rw [ne_eq, ← UInt32.toBitVec_inj, UInt32.toBitVec_and]
    exact (not_congr (topBit_and crc.toBitVec)).trans (by rw [Bool.not_eq_false])
  unfold crcBit bitStep
  by_cases h : crc &&& 0x80000000 ≠ 0
  · rw [if_pos h, if_pos (htop.mp h)]
    rfl
  · rw [if_neg h, if_neg (fun hmsb => h (htop.mpr hmsb))]
    rfl

theorem repeat_crcBit_toBitVec (n : Nat) (crc : UInt32) :
    (Nat.repeat crcBit n crc).toBitVec = bitSteps mpeg2Poly n crc.toBitVec := by
  induction n with
  | zero => rfl
  | succ n ih =>
    rw [bitSteps_succ, ← ih]
    exact crcBit_toBitVec _

theorem byte_toBitVec (b : UInt8) : (b.toUInt32 <<< 24).toBitVec = byteAt b 24 := rfl

/-- One byte of the reference. -/
theorem crc32Mpeg2_byte (crc : UInt32) (b : UInt8) :
    (crc32Mpeg2 crc [b]).toBitVec = bitSteps mpeg2Poly 8 (crc.toBitVec ^^^ byteAt b 24) := by
  change (Nat.repeat crcBit 8 (crc ^^^ (b.toUInt32 <<< 24))).toBitVec = _
  rw [repeat_crcBit_toBitVec, UInt32.toBitVec_xor, byte_toBitVec]

theorem crc32Mpeg2_cons (crc : UInt32) (b : UInt8) (data : List UInt8) :
    crc32Mpeg2 crc (b :: data) = crc32Mpeg2 (crc32Mpeg2 crc [b]) data := rfl

/-! ## A byte from the table -/

theorem crc32Mpeg2Table_eq : crc32Mpeg2Table =
    (List.range 256).map fun i => Nat.repeat crcBit 8 (UInt32.ofNat i <<< 24) := by
  decide +kernel

theorem crcTableRead_eq (i : UInt8) :
    (crcTableRead i).toBitVec = bitSteps mpeg2Poly 8 (byteAt i 24) := by
  have hlt : i.toNat < 256 := i.toNat_lt
  have hindex : UInt32.ofNat i.toNat = i.toUInt32 := UInt32.ofNat_uInt8ToNat i
  have hentry : crcTableRead i = Nat.repeat crcBit 8 (i.toUInt32 <<< 24) := by
    rw [crcTableRead, crc32Mpeg2Table_eq, List.getD_eq_getElem?_getD, List.getElem?_map,
      List.getElem?_range hlt, Option.map_some, Option.getD_some, hindex]
  rw [hentry, repeat_crcBit_toBitVec, byte_toBitVec]

theorem lowMask_getLsbD (i : Nat) : (0x00FFFFFF#32).getLsbD i = decide (i < 24) := by
  have hmask : (0x00FFFFFF : Nat) = 2 ^ 24 - 1 := rfl
  rw [BitVec.getLsbD_ofNat, hmask, Nat.testBit_two_pow_sub_one]
  by_cases h : i < 24
  · simp [h, Nat.lt_trans h (show 24 < 32 by decide)]
  · simp [h]

theorem topByte_getLsbD (crc : UInt32) (b : UInt8) {i : Nat} (hi : i < 8) :
    ((crc >>> 24) ^^^ b.toUInt32).toUInt8.toBitVec.getLsbD i =
      (crc.toBitVec.getLsbD (24 + i) ^^ b.toBitVec.getLsbD i) := by
  have hvec : ((crc >>> 24) ^^^ b.toUInt32).toUInt8.toBitVec =
      ((crc.toBitVec >>> 24) ^^^ b.toBitVec.setWidth 32).setWidth 8 := rfl
  have hi' : i < 32 := by omega
  rw [hvec]
  simp [hi, hi']

/-- The index of the table at the top of the register, and the three bytes below it. -/
theorem split_top (crc : UInt32) (b : UInt8) : crc.toBitVec ^^^ byteAt b 24 =
    byteAt ((crc >>> 24) ^^^ b.toUInt32).toUInt8 24 ^^^ (crc.toBitVec &&& 0x00FFFFFF#32) := by
  apply BitVec.eq_of_getLsbD_eq
  intro i hi
  rw [BitVec.getLsbD_xor, BitVec.getLsbD_xor, BitVec.getLsbD_and, byteAt_getLsbD _ _ _ hi,
    byteAt_getLsbD _ _ _ hi, lowMask_getLsbD]
  by_cases hhigh : 24 ≤ i
  · have hback : 24 + (i - 24) = i := by omega
    rw [topByte_getLsbD crc b (by omega), hback]
    simp [hhigh, Nat.not_lt_of_le hhigh]
  · simp [hhigh, Nat.lt_of_not_le hhigh]

theorem low_msbD (x : BitVec 32) (i : Nat) (hi : i < 8) :
    (x &&& 0x00FFFFFF#32).getMsbD i = false := by
  have hlow : ¬ 32 - 1 - i < 24 := by omega
  rw [BitVec.getMsbD_and, BitVec.getMsbD, BitVec.getMsbD, lowMask_getLsbD, decide_eq_false hlow,
    Bool.and_false, Bool.and_false]

theorem low_shift (x : BitVec 32) : (x &&& 0x00FFFFFF#32) <<< 8 = x <<< 8 := by
  apply BitVec.eq_of_getLsbD_eq
  intro i hi
  simp only [BitVec.getLsbD_shiftLeft, BitVec.getLsbD_and, lowMask_getLsbD]
  have hlt : i - 8 < 24 := by omega
  simp [hlt]

theorem halCrcSwStep_byte (crc : UInt32) (b : UInt8) :
    halCrcSwStep crc [b] = crc32Mpeg2 crc [b] := by
  apply UInt32.toBitVec_inj.mp
  have htable : (halCrcSwStep crc [b]).toBitVec =
      crc.toBitVec <<< 8 ^^^ (crcTableRead ((crc >>> 24) ^^^ b.toUInt32).toUInt8).toBitVec := rfl
  rw [htable, crc32Mpeg2_byte, bitSteps_split mpeg2Poly 8 _ _ _ (split_top crc b) (low_msbD _),
    crcTableRead_eq, low_shift, BitVec.xor_comm]

theorem halCrcSwStep_eq (crc : UInt32) (data : List UInt8) :
    halCrcSwStep crc data = crc32Mpeg2 crc data := by
  induction data generalizing crc with
  | nil => rfl
  | cons b data ih =>
    have hcons : halCrcSwStep crc (b :: data) = halCrcSwStep (halCrcSwStep crc [b]) data := rfl
    rw [hcons, halCrcSwStep_byte, ih, ← crc32Mpeg2_cons]

/-! ## A word -/

/-- The bytes of a word do not overlap. -/
theorem crcWord_toBitVec (b0 b1 b2 b3 : UInt8) : (crcWord b0 b1 b2 b3).toBitVec =
    byteAt b0 24 ^^^ (byteAt b1 16 ^^^ (byteAt b2 8 ^^^ byteAt b3 0)) := by
  have hvec : (crcWord b0 b1 b2 b3).toBitVec =
      byteAt b0 24 ||| byteAt b1 16 ||| byteAt b2 8 ||| byteAt b3 0 := by
    simp [crcWord, byteAt]
  rw [hvec]
  apply BitVec.eq_of_getLsbD_eq
  intro i hi
  simp only [BitVec.getLsbD_or, BitVec.getLsbD_xor, byteAt_getLsbD _ _ _ hi]
  by_cases h8 : 8 ≤ i
  · have hb3 : b3.toBitVec.getLsbD i = false := byte_getLsbD b3 h8
    by_cases h16 : 16 ≤ i
    · have hb2 : b2.toBitVec.getLsbD (i - 8) = false := byte_getLsbD b2 (by omega)
      by_cases h24 : 24 ≤ i
      · have hb1 : b1.toBitVec.getLsbD (i - 16) = false := byte_getLsbD b1 (by omega)
        simp [hb1, hb2, hb3]
      · simp [h24, hb2, hb3]
    · have h24 : ¬ 24 ≤ i := by omega
      simp [h16, h24, hb3]
  · have h16 : ¬ 16 ≤ i := by omega
    have h24 : ¬ 24 ≤ i := by omega
    simp [h8, h16, h24]

theorem byteAt_shift (b : UInt8) (k : Nat) : byteAt b k <<< 8 = byteAt b (k + 8) :=
  (BitVec.shiftLeft_add _ k 8).symm

/-- The top byte is clear. -/
def TopClear (x : BitVec 32) : Prop := ∀ i, i < 8 → x.getMsbD i = false

theorem topClear_byteAt (b : UInt8) {k : Nat} (hk : k ≤ 16) : TopClear (byteAt b k) := by
  intro i hi
  rw [BitVec.getMsbD, byteAt_getLsbD _ _ _ (by omega), byte_getLsbD b (by omega), Bool.and_false,
    Bool.and_false]

theorem TopClear.xor {x y : BitVec 32} (hx : TopClear x) (hy : TopClear y) :
    TopClear (x ^^^ y) := by
  intro i hi
  rw [BitVec.getMsbD_xor, hx i hi, hy i hi, Bool.xor_false]

/-- Eight bits of a word take its top byte and move the others up. -/
theorem bitSteps_topByte (x rest : BitVec 32) (b : UInt8) (hrest : TopClear rest) :
    bitSteps mpeg2Poly 8 (x ^^^ (byteAt b 24 ^^^ rest)) =
      bitSteps mpeg2Poly 8 (x ^^^ byteAt b 24) ^^^ rest <<< 8 :=
  bitSteps_split mpeg2Poly 8 _ _ rest (BitVec.xor_assoc ..).symm hrest

/-- A word written to the peripheral is its four bytes fed one by one. -/
theorem crcUnitWrite_eq (dr : UInt32) (b0 b1 b2 b3 : UInt8) :
    crcUnitWrite dr (crcWord b0 b1 b2 b3) = crc32Mpeg2 dr [b0, b1, b2, b3] := by
  have hsteps : ∀ x : BitVec 32, bitSteps mpeg2Poly 32 x = bitSteps mpeg2Poly 8
      (bitSteps mpeg2Poly 8 (bitSteps mpeg2Poly 8 (bitSteps mpeg2Poly 8 x))) := by
    intro x
    rw [← bitSteps_add, ← bitSteps_add, ← bitSteps_add]
  have hone := topClear_byteAt b1 (k := 16) (by decide)
  have htwo := topClear_byteAt b2 (k := 8) (by decide)
  have htwo' := topClear_byteAt b2 (k := 16) (by decide)
  have hthree := topClear_byteAt b3 (k := 0) (by decide)
  have hthree' := topClear_byteAt b3 (k := 8) (by decide)
  have hthree'' := topClear_byteAt b3 (k := 16) (by decide)
  apply UInt32.toBitVec_inj.mp
  rw [crcUnitWrite, repeat_crcBit_toBitVec, UInt32.toBitVec_xor, crcWord_toBitVec, hsteps,
    bitSteps_topByte _ _ _ (hone.xor (htwo.xor hthree)), BitVec.shiftLeft_xor_distrib,
    BitVec.shiftLeft_xor_distrib, byteAt_shift, byteAt_shift, byteAt_shift,
    bitSteps_topByte _ _ _ (htwo'.xor hthree'), BitVec.shiftLeft_xor_distrib, byteAt_shift,
    byteAt_shift, bitSteps_topByte _ _ _ hthree'', byteAt_shift]
  rw [crc32Mpeg2_cons dr, crc32Mpeg2_cons _ b1, crc32Mpeg2_cons _ b2, crc32Mpeg2_byte,
    crc32Mpeg2_byte, crc32Mpeg2_byte, crc32Mpeg2_byte]

/-! ## Different registers stay different -/

theorem crc32Mpeg2_injective (data : List UInt8) {x y : UInt32}
    (h : crc32Mpeg2 x data = crc32Mpeg2 y data) : x = y := by
  induction data generalizing x y with
  | nil => exact h
  | cons b data ih =>
    rw [crc32Mpeg2_cons x, crc32Mpeg2_cons y] at h
    have hbyte := congrArg UInt32.toBitVec (ih h)
    rw [crc32Mpeg2_byte, crc32Mpeg2_byte] at hbyte
    have hxor := bitSteps_injective (by decide) 8 hbyte
    exact UInt32.toBitVec_inj.mp ((BitVec.xor_left_inj _).mp hxor)

end NavHAL.Crc
