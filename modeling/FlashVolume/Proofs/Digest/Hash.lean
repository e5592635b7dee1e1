import FlashVolume.Proofs.Digest.Chunks
import FlashVolume.Proofs.Digest.Standard
/-!
# The hash of a message is that of the standard

Bytes and bits go together block by block. The padding has the bits of the standard's
(`ofBytes_padded`), a block of 64 bytes has its sixteen words (`bigEndianWords_eq`), and the
schedule grows from these as the recurrence has it (`extend_scheduleWords`): the words that are kept
newest first are the last sixteen of the standard's sequence. So each block takes the words from one
hash value to the next (`variables_compress`), and a message without a remainder takes them to the
last (`absorbBlocks_eq`).
-/

namespace FlashVolume
namespace Sha256

/-! ### Words -/

/-- A shift of a word is the shift of its bits, while it is shorter than the word. -/
theorem toBitVec_shiftRight (x : UInt32) {n : UInt32} (h : n.toNat < 32) :
    (x >>> n).toBitVec = x.toBitVec >>> n.toNat := by
  have hmod : (n.toBitVec % 32).toNat = n.toNat := by
    rw [BitVec.toNat_umod]
    exact Nat.mod_eq_of_lt h
  rw [UInt32.toBitVec_shiftRight, BitVec.ushiftRight_eq', hmod]

/-- Two shifts that overlap nowhere rotate the bits. -/
theorem toBitVec_rotate (x : UInt32) {n : UInt32} (hpos : 0 < n.toNat) (hless : n.toNat < 32) :
    (rotate x n).toBitVec = x.toBitVec.rotateRight n.toNat := by
  have hleft : ((32 - n).toBitVec % 32).toNat = 32 - n.toNat := by
    rw [BitVec.toNat_umod, UInt32.toNat_toBitVec, UInt32.toNat_sub_of_le _ _ hless.le]
    exact Nat.mod_eq_of_lt (by change 32 - n.toNat < 32; omega)
  rw [rotate, UInt32.toBitVec_or, toBitVec_shiftRight x hless, UInt32.toBitVec_shiftLeft,
    BitVec.rotateRight_def, Nat.mod_eq_of_lt hless, BitVec.shiftLeft_eq', hleft]

/-! ### Words and bytes -/

/-- The bytes of a number, highest first, have the bits of the number. -/
theorem ofBytes_bigEndianBytes (width n : Nat) :
    Bits.ofBytes (bigEndianBytes width n) = Bits.ofNumber (8 * width) n := by
  induction width with
  | zero => rfl
  | succ width ih =>
    have hcons : bigEndianBytes (width + 1) n =
        UInt8.ofNat (n >>> (8 * width)) :: bigEndianBytes width n := by
      rw [bigEndianBytes, List.range_succ_eq_map, List.map_cons, List.map_map]
      congr 1
      refine List.map_congr_left fun i _ => ?_
      show UInt8.ofNat (n >>> (8 * (width + 1 - 1 - (i + 1)))) = _
      rw [show width + 1 - 1 - (i + 1) = width - 1 - i by omega]
    rw [hcons, Bits.ofBytes_cons, ih, UInt8.toNat_ofNat', Bits.ofNumber_mod, Nat.mul_succ,
      Nat.add_comm (8 * width), Bits.ofNumber_add]

/-- A byte in a word keeps all of its bits. -/
theorem toNat_toUInt32_shiftLeft (b : UInt8) {n : UInt32} (h : n.toNat ≤ 24) :
    (b.toUInt32 <<< n).toNat = b.toNat <<< n.toNat := by
  have hfits : b.toNat <<< n.toNat < 2 ^ 32 := by
    rw [Nat.shiftLeft_eq]
    calc b.toNat * 2 ^ n.toNat < 2 ^ 8 * 2 ^ n.toNat :=
          Nat.mul_lt_mul_of_pos_right b.toNat_lt (Nat.two_pow_pos _)
      _ ≤ 2 ^ 8 * 2 ^ 24 := Nat.mul_le_mul_left _ (Nat.pow_le_pow_right (by decide) h)
  rw [UInt32.toNat_shiftLeft, UInt8.toNat_toUInt32, Nat.mod_eq_of_lt (h.trans_lt (by decide)),
    Nat.mod_eq_of_lt hfits]

/-- Four bytes shifted into a word are read highest first. -/
theorem toNat_bigEndian (a b c d : UInt8) :
    ((a.toUInt32 <<< 24) ||| (b.toUInt32 <<< 16) ||| (c.toUInt32 <<< 8) ||| d.toUInt32).toNat =
      ((a.toNat <<< 8 ||| b.toNat) <<< 8 ||| c.toNat) <<< 8 ||| d.toNat := by
  simp (disch := decide) only [UInt32.toNat_or, toNat_toUInt32_shiftLeft, UInt8.toNat_toUInt32,
    Nat.shiftLeft_or_distrib, ← Nat.shiftLeft_add]
  rfl

/-- The big-endian words are the groups of 32 bits. -/
theorem bigEndianWords_eq {bytes : Bytes} {n : Nat} (h : bytes.length = 4 * n) :
    (bigEndianWords bytes).map UInt32.toBitVec =
      (List.range n).map (Bits.group 32 (Bits.ofBytes bytes)) := by
  -- By induction on the words: four bytes are taken off at a time.
  induction n generalizing bytes with
  | zero =>
    rw [List.length_eq_zero_iff.1 h]
    rfl
  | succ n ih =>
    match bytes, h with
    | a :: b :: c :: d :: rest, h =>
      have hrest : rest.length = 4 * n := by
        simp only [List.length_cons] at h
        omega
      have hword : Bits.ofBytes (a :: b :: c :: d :: rest) =
          Bits.ofNumber 32 (((a.toUInt32 <<< 24) ||| (b.toUInt32 <<< 16) ||| (c.toUInt32 <<< 8) |||
            d.toUInt32).toNat) ++ Bits.ofBytes rest := by
        rw [toNat_bigEndian, Bits.ofNumber_shiftLeft_or (v := 24) d.toNat_lt,
          Bits.ofNumber_shiftLeft_or (v := 16) c.toNat_lt,
          Bits.ofNumber_shiftLeft_or (v := 8) b.toNat_lt]
        simp only [Bits.ofBytes_cons, List.append_assoc]
      rw [bigEndianWords, List.map_cons, ih hrest, List.range_succ_eq_map, List.map_cons,
        List.map_map, hword, Bits.group_ofNumber]
      refine congrArg₂ List.cons (BitVec.eq_of_toNat_eq (by simp)) ?_
      refine List.map_congr_left fun i _ => ?_
      rw [Function.comp_apply, Nat.succ_eq_one_add,
        Bits.group_append_right (Bits.length_ofNumber 32 _)]

/-! ### The schedule -/

/-- The first words of the schedule of a block. -/
def scheduleWords (block : Nat → BitVec 32) (n : Nat) : List UInt32 :=
  (List.range n).map fun t => .ofBitVec (Standard.schedule block t)

/-- The schedule grows by the word the standard puts next. -/
theorem scheduleWords_succ (block : Nat → BitVec 32) (n : Nat) :
    scheduleWords block (n + 1) =
      scheduleWords block n ++ [.ofBitVec (Standard.schedule block n)] := by
  rw [scheduleWords, List.range_succ, List.map_append]
  rfl

/-- The words that a new word is made of, newest first. -/
theorem toBitVec_nextWord (w : Nat → UInt32) :
    (nextWord ((List.range 16).map w)).toBitVec =
      Standard.rotationsShift 17 19 10 (w 1).toBitVec + (w 6).toBitVec +
        Standard.rotationsShift 7 18 3 (w 14).toBitVec + (w 15).toBitVec := by
  have hword : nextWord ((List.range 16).map w) =
      w 15 + (rotate (w 14) 7 ^^^ rotate (w 14) 18 ^^^ (w 14 >>> 3)) + w 6 +
        (rotate (w 1) 17 ^^^ rotate (w 1) 19 ^^^ (w 1 >>> 10)) := rfl
  have hsum : ∀ a b c d : BitVec 32, a + b + c + d = d + c + b + a := fun a b c d => by ac_rfl
  rw [hword, hsum]
  simp (disch := decide) only [UInt32.toBitVec_add, UInt32.toBitVec_xor, toBitVec_rotate,
    toBitVec_shiftRight]
  rfl

/-- The next word is that of the standard. -/
theorem nextWord_scheduleWords (block : Nat → BitVec 32) (t : Nat) :
    nextWord ((scheduleWords block (t + 16)).reverse.take 16) =
      .ofBitVec (Standard.schedule block (t + 16)) := by
  have hrecent : (scheduleWords block (t + 16)).reverse.take 16 =
      (List.range 16).map fun i => .ofBitVec (Standard.schedule block (t + 15 - i)) := by
    simp only [scheduleWords_succ, List.reverse_append, List.reverse_singleton]
    rfl
  rw [hrecent, ← UInt32.toBitVec_inj, toBitVec_nextWord, Standard.schedule.eq_def _ (t + 16),
    if_neg (by omega)]
  rfl

/-- The schedule grows by the words of the standard. -/
theorem extend_scheduleWords (block : Nat → BitVec 32) (n t : Nat) :
    extend n (scheduleWords block (t + 16)).reverse =
      (scheduleWords block (t + 16 + n)).reverse := by
  induction n generalizing t with
  | zero => rfl
  | succ n ih =>
    have hnext : nextWord ((scheduleWords block (t + 16)).reverse.take 16) ::
        (scheduleWords block (t + 16)).reverse = (scheduleWords block (t + 1 + 16)).reverse := by
      rw [nextWord_scheduleWords, Nat.add_right_comm t 1, scheduleWords_succ block (t + 16),
        List.reverse_concat]
    rw [extend, hnext, ih]
    congr 2
    omega

/-- **The schedule is that of the standard.** -/
theorem schedule_eq {bytes : Bytes} (h : bytes.length = 64) :
    schedule bytes = scheduleWords (Bits.group 32 (Bits.ofBytes bytes)) 64 := by
  have hwords : bigEndianWords bytes = scheduleWords (Bits.group 32 (Bits.ofBytes bytes)) 16 := by
    refine List.map_injective_iff.2 (fun x y => UInt32.toBitVec_inj.1) ?_
    rw [bigEndianWords_eq (n := 16) h, scheduleWords, List.map_map]
    refine List.map_congr_left fun t ht => ?_
    rw [Function.comp_apply, Standard.schedule, if_pos (List.mem_range.1 ht)]
  rw [schedule, hwords, extend_scheduleWords _ 48 0, List.reverse_reverse]

/-! ### Rounds -/

/-- The words as variables. -/
def Words.variables (s : Words) : Standard.Variables :=
  ⟨s.a.toBitVec, s.b.toBitVec, s.c.toBitVec, s.d.toBitVec, s.e.toBitVec, s.f.toBitVec,
    s.g.toBitVec, s.h.toBitVec⟩

/-- One round of the code is one round of the standard. -/
theorem variables_round (s : Words) (k w : UInt32) :
    (round s (k, w)).variables = Standard.round k.toBitVec w.toBitVec s.variables := by
  simp (disch := decide) only [round, Words.variables, UInt32.toBitVec_add, UInt32.toBitVec_xor,
    UInt32.toBitVec_and, UInt32.toBitVec_not, toBitVec_rotate]
  rfl

/-- The code starts from the initial value of the standard. -/
theorem variables_initialWords : initialWords.variables = Standard.initial := by
  obtain ⟨ha, hb, hc, hd, he, hf, hg, hh, -⟩ : _ ∧ _ ∧ _ ∧ _ ∧ _ ∧ _ ∧ _ ∧ _ ∧ True := by
    simpa [List.range_succ] using initialWords_eq
  simp only [Words.variables, Standard.initial, *]

/-- **All rounds**: a block goes through the 64 rounds of the standard. -/
theorem variables_rounds (s : Words) {bytes : Bytes} (h : bytes.length = 64) :
    ((roundConstants.zip (schedule bytes)).foldl round s).variables =
      Standard.rounds (Bits.group 32 (Bits.ofBytes bytes)) s.variables 64 := by
  have hpairs : (List.range 64).map (fun t =>
      (rootBits 3 t, Standard.schedule (Bits.group 32 (Bits.ofBytes bytes)) t)) =
      (roundConstants.zip (schedule bytes)).map (Prod.map UInt32.toBitVec UInt32.toBitVec) := by
    rw [← List.zip_map, roundConstants_eq, schedule_eq h, scheduleWords, List.map_map,
      List.zip_map']
    rfl
  rw [Standard.rounds_eq_foldl, hpairs, List.foldl_map]
  exact (List.foldl_hom Words.variables fun s kw => (variables_round s kw.1 kw.2).symm).symm

/-- **A block is compressed as the standard has it.** -/
theorem variables_compress (s : Words) {bytes : Bytes} (h : bytes.length = 64) :
    (compress s bytes).variables =
      Standard.next (Bits.group 32 (Bits.ofBytes bytes)) s.variables := by
  rw [compress, Standard.next, ← variables_rounds s h]
  generalize (roundConstants.zip (schedule bytes)).foldl round s = r
  simp only [Words.variables, Words.add, UInt32.toBitVec_add, BitVec.add_comm]

/-! ### Padding -/

/-- The padding fills the last block and holds the mark and the length. -/
theorem length_padding (length : Nat) :
    (padding length).length = 9 + (119 - length % 64) % 64 := by
  simp only [padding, bigEndianBytes, List.length_append, List.length_cons, List.length_replicate,
    List.length_map, List.length_range]
  omega

/-- **The message is padded as the standard has it.** -/
theorem ofBytes_padded (message : Bytes) :
    Bits.ofBytes (message ++ padding message.length) = Standard.pad (Bits.ofBytes message) := by
  have hzeros : Nat.find (Standard.exists_zeros (Bits.ofBytes message).length) =
      7 + 8 * ((119 - message.length % 64) % 64) := by
    rw [Nat.find_eq_iff, Bits.length_ofBytes]
    refine ⟨by omega, fun k hk => by omega⟩
  rw [Standard.pad, hzeros, Bits.length_ofBytes, padding, Bits.ofBytes_append,
    List.cons_append, Bits.ofBytes_cons, Bits.ofBytes_append, Bits.ofBytes_replicate_zero,
    ofBytes_bigEndianBytes, List.replicate_add, List.append_assoc]
  rfl

/-! ### Blocks -/

/-- **Blocks lead to the hash value of the standard.** -/
theorem absorbBlocks_eq {bytes : Bytes} {n : Nat} (h : bytes.length = 64 * n) :
    ∃ s, absorbBlocks initialWords bytes = (s, []) ∧
      s.variables = Standard.hashValue (Bits.ofBytes bytes) n := by
  -- By induction on the number of blocks, the last one taken off.
  induction n generalizing bytes with
  | zero =>
    rw [List.length_eq_zero_iff.1 h, absorbBlocks_of_lt (by decide)]
    exact ⟨_, rfl, variables_initialWords⟩
  | succ n ih =>
    obtain ⟨before, last, rfl, hbefore, hlast⟩ :
        ∃ before last, bytes = before ++ last ∧ before.length = 64 * n ∧ last.length = 64 :=
      ⟨bytes.take (64 * n), bytes.drop (64 * n), (List.take_append_drop ..).symm,
        by rw [List.length_take]; omega, by rw [List.length_drop]; omega⟩
    obtain ⟨s, habsorb, hs⟩ := ih hbefore
    have hbits : (Bits.ofBytes before).length = 512 * n := by
      rw [Bits.length_ofBytes, hbefore]
      omega
    have hblock : ((Bits.ofBytes before ++ Bits.ofBytes last).drop (512 * n)).take 512 =
        Bits.ofBytes last := by
      rw [List.drop_left' hbits]
      exact List.take_of_length_le (by rw [Bits.length_ofBytes, hlast])
    refine ⟨compress s last, ?_, ?_⟩
    · rw [absorbBlocks_append, habsorb, List.nil_append, absorbBlocks_of_le hlast.ge,
        List.take_of_length_le hlast.le, List.drop_of_length_le hlast.le,
        absorbBlocks_of_lt (by decide)]
    · rw [variables_compress s hlast, hs, Bits.ofBytes_append, Standard.hashValue, hblock,
        Standard.hashValue_append hbits.ge]

/-- **The hash of a message is its digest.** -/
theorem ofBytes_hash (message : Bytes) :
    Bits.ofBytes (hash message) = Standard.digest (Bits.ofBytes message) := by
  obtain ⟨n, hn⟩ : ∃ n, (message ++ padding message.length).length = 64 * n := by
    rw [List.length_append, length_padding]
    exact ⟨(message.length + (9 + (119 - message.length % 64) % 64)) / 64, by omega⟩
  obtain ⟨s, habsorb, hs⟩ := absorbBlocks_eq hn
  have hblocks : (Bits.ofBytes (message ++ padding message.length)).length / 512 = n := by
    rw [Bits.length_ofBytes, hn]
    omega
  rw [hash, habsorb, Standard.digest, ← ofBytes_padded, hblocks, ← hs]
  simp only [Words.toBytes, Words.variables, List.flatMap_cons, List.flatMap_nil, List.append_nil,
    Bits.ofBytes_append, ofBytes_bigEndianBytes, UInt32.toNat_toBitVec]

/-- The hash of the three letters `abc`. -/
example : hash [0x61, 0x62, 0x63] =
    [0xba, 0x78, 0x16, 0xbf, 0x8f, 0x01, 0xcf, 0xea, 0x41, 0x41, 0x40, 0xde, 0x5d, 0xae, 0x22,
     0x23, 0xb0, 0x03, 0x61, 0xa3, 0x96, 0x17, 0x7a, 0x9c, 0xb4, 0x10, 0xff, 0x61, 0xf2, 0x00,
     0x15, 0xad] := by
  decide +kernel

end Sha256
end FlashVolume
