import SrtlaOutput.Wire.Frames
import Mathlib.Data.Nat.Bitwise
import Mathlib.Data.Option.Basic

/-! Which packets are read as a handshake that declares a latency. The extension blocks form
a chain, and the first request or response in it is the one that counts. -/

namespace Srtla.Wire
open BigEndian

/-- A block behind a handshake; its length is given in words. -/
structure ExtensionBlock where
  cmd : UInt16
  count : UInt16
  body : List UInt8
  length_eq : body.length = count.toNat * 4

namespace ExtensionBlock

def bytes (b : ExtensionBlock) : List UInt8 := be16Bytes b.cmd ++ be16Bytes b.count ++ b.body

def Declares (b : ExtensionBlock) : Prop := b.cmd = srtHsExtCmdHsreq ∨ b.cmd = srtHsExtCmdHsrsp

def latency (b : ExtensionBlock) : SrtHandshakeLatency where
  isResponse := b.cmd == srtHsExtCmdHsrsp
  rcvMs := if (word 4 b.body 4).testBit 1 then some (UInt16.ofNat (word 2 b.body 8)) else none
  sndMs := if (word 4 b.body 4).testBit 0 then some (UInt16.ofNat (word 2 b.body 10)) else none

theorem length_bytes (b : ExtensionBlock) : b.bytes.length = 4 + b.count.toNat * 4 := by
  rw [bytes, List.length_append, List.length_append, length_be16Bytes, length_be16Bytes,
    b.length_eq]

end ExtensionBlock

/-! Halves and bits of a word. -/

theorem word_halves {buf : List UInt8} {off : ℕ} (h : off + 4 ≤ buf.length) :
    word 4 buf off = word 2 buf off * 65536 + word 2 buf (off + 2) :=
  word_add (v := 2) (w := 2) h

theorem high_half {buf : List UInt8} {off : ℕ} (h : off + 4 ≤ buf.length) :
    (UInt32.ofNat (word 4 buf off) >>> 16).toUInt16 = UInt16.ofNat (word 2 buf off) := by
  have hword := word_halves h
  have hhigh := word_lt 2 buf off
  have hlow := word_lt 2 buf (off + 2)
  rw [← UInt16.toNat_inj, UInt32.toNat_toUInt16, UInt32.toNat_shiftRight,
    UInt32.toNat_ofNat_of_lt' (word_lt 4 buf off), UInt16.toNat_ofNat_of_lt' hhigh,
    Nat.shiftRight_eq_div_pow]
  have hsixteen : (16 : UInt32).toNat % 32 = 16 := rfl
  rw [hsixteen]
  omega

theorem low_half_toNat {buf : List UInt8} {off : ℕ} (h : off + 4 ≤ buf.length) :
    (UInt32.ofNat (word 4 buf off) &&& 0xffff).toNat = word 2 buf (off + 2) := by
  have hword := word_halves h
  have hlow := word_lt 2 buf (off + 2)
  have hmask : (0xffff : UInt32).toNat = 2 ^ 16 - 1 := rfl
  rw [UInt32.toNat_and, UInt32.toNat_ofNat_of_lt' (word_lt 4 buf off), hmask,
    Nat.and_two_pow_sub_one_eq_mod]
  omega

theorem low_half {buf : List UInt8} {off : ℕ} (h : off + 4 ≤ buf.length) :
    (UInt32.ofNat (word 4 buf off) &&& 0xffff).toUInt16 = UInt16.ofNat (word 2 buf (off + 2)) := by
  rw [← UInt16.toNat_inj, UInt32.toNat_toUInt16, low_half_toNat h, UInt16.toNat_ofNat']

theorem bit_ne_zero_iff {buf : List UInt8} {off : ℕ} (i : ℕ) (mask : UInt32) (hmask : mask.toNat = 2 ^ i) :
    UInt32.ofNat (word 4 buf off) &&& mask ≠ 0 ↔ (word 4 buf off).testBit i = true := by
  have hzero : (0 : UInt32).toNat = 0 := rfl
  rw [Ne, ← UInt32.toNat_inj, UInt32.toNat_and, UInt32.toNat_ofNat_of_lt' (word_lt 4 buf off),
    hmask, Nat.and_two_pow, hzero]
  cases (word 4 buf off).testBit i <;> simp

theorem be32_eq_some {buf : List UInt8} {off : ℕ} (h : off + 4 ≤ buf.length) :
    be32 buf off = some (UInt32.ofNat (word 4 buf off)) :=
  if_pos h

/-! One step of the walk. -/

theorem readExtensions_append (b : ExtensionBlock) (rest : List UInt8) :
    readExtensions (b.bytes ++ rest) =
      if b.cmd = srtHsExtCmdHsreq ∨ b.cmd = srtHsExtCmdHsrsp then
        if b.count.toNat < 3 then none else some b.latency
      else readExtensions rest := by
  have hlength : (b.bytes ++ rest).length = 4 + b.count.toNat * 4 + rest.length := by
    rw [List.length_append, b.length_bytes]
  have hcmd : word 2 (b.bytes ++ rest) 0 = b.cmd.toNat := by
    rw [ExtensionBlock.bytes, List.append_assoc, List.append_assoc, word_be16Bytes]
  have hcount : word 2 (b.bytes ++ rest) 2 = b.count.toNat := by
    rw [ExtensionBlock.bytes, List.append_assoc, List.append_assoc,
      word_append (length_be16Bytes _).le, length_be16Bytes, Nat.sub_self, word_be16Bytes]
  have hblock : ((b.bytes ++ rest).drop 4).take (b.count.toNat * 4) = b.body := by
    have hfront : (be16Bytes b.cmd ++ be16Bytes b.count).length = 4 := by
      rw [List.length_append, length_be16Bytes, length_be16Bytes]
    rw [ExtensionBlock.bytes, List.append_assoc _ b.body, List.drop_append,
      List.drop_of_length_le hfront.le, hfront, List.nil_append, Nat.sub_self, List.drop_zero,
      ← b.length_eq, List.take_left]
  have hrest : (b.bytes ++ rest).drop (4 + b.count.toNat * 4) = rest := by
    rw [← b.length_bytes, List.drop_left]
  have hspec : 0 + 4 ≤ (b.bytes ++ rest).length := by omega
  rw [readExtensions, if_pos (by omega)]
  simp only [high_half hspec, low_half_toNat hspec, Nat.zero_add, hcmd, hcount, hblock, hrest,
    UInt16.ofNat_toNat, b.length_eq]
  rw [if_pos (by omega)]
  split_ifs with hdeclares hshort hshort' hshort'
  · rfl
  · exact absurd hshort (by rw [srtHsExtHsreqWords]; omega)
  · exact absurd hshort' (by rw [srtHsExtHsreqWords] at hshort; omega)
  · have hbody : 12 ≤ b.body.length := by
      rw [b.length_eq]
      omega
    rw [be32_eq_some (by omega), be32_eq_some (by omega)]
    simp only [Option.bind_eq_bind, Option.bind_some, ExtensionBlock.latency,
      bit_ne_zero_iff 1 srtHsOptTsbpdrcv rfl,
      bit_ne_zero_iff 0 srtHsOptTsbpdsnd rfl,
      high_half (show 8 + 4 ≤ b.body.length by omega),
      low_half (show 8 + 4 ≤ b.body.length by omega)]
  · rfl

theorem exists_block_of_readExtensions {rest : List UInt8} {l : SrtHandshakeLatency}
    (h : readExtensions rest = some l) :
    ∃ b : ExtensionBlock, ∃ rest', rest = b.bytes ++ rest' := by
  -- a walk that does not stop at once has a whole block in front of it
  have hspec : 4 ≤ rest.length := by
    by_contra hshort
    rw [readExtensions, if_neg hshort] at h
    exact Option.some_ne_none l h.symm
  have hfits : 4 + word 2 rest 2 * 4 ≤ rest.length := by
    by_contra hlong
    rw [readExtensions, if_pos hspec] at h
    simp only [low_half_toNat (show 0 + 4 ≤ rest.length by omega), Nat.zero_add] at h
    rw [if_neg hlong] at h
    exact Option.some_ne_none l h.symm
  have hcount : word 2 rest 2 < 2 ^ 16 := word_lt 2 rest 2
  have hbody : ((rest.drop 4).take (word 2 rest 2 * 4)).length =
      (UInt16.ofNat (word 2 rest 2)).toNat * 4 := by
    rw [List.length_take, List.length_drop, UInt16.toNat_ofNat_of_lt' hcount]
    omega
  refine ⟨⟨UInt16.ofNat (word 2 rest 0), UInt16.ofNat (word 2 rest 2), _, hbody⟩,
    rest.drop (4 + word 2 rest 2 * 4), ?_⟩
  have hdrop := drop_eq 2 0 rest (by omega)
  rw [drop_eq 2 (0 + 2) _ (by omega), List.drop_zero] at hdrop
  rw [ExtensionBlock.bytes, be16Bytes_word, be16Bytes_word, List.append_assoc,
    ← List.drop_drop, List.take_append_drop, List.append_assoc]
  exact hdrop

theorem readExtensions_eq_some {rest : List UInt8} {l : SrtHandshakeLatency} :
    readExtensions rest = some l ↔
      ∃ (before : List ExtensionBlock) (b : ExtensionBlock) (tail : List UInt8),
        rest = before.flatMap ExtensionBlock.bytes ++ b.bytes ++ tail ∧
        (∀ x ∈ before, ¬ x.Declares) ∧ b.Declares ∧ 3 ≤ b.count.toNat ∧ l = b.latency := by
  constructor
  · intro h
    obtain ⟨n, hn⟩ : ∃ n, rest.length ≤ n := ⟨_, le_rfl⟩
    induction n generalizing rest with
    | zero =>
      rw [readExtensions, if_neg (by omega)] at h
      exact absurd h.symm (Option.some_ne_none l)
    | succ n ih =>
      obtain ⟨b, rest', rfl⟩ := exists_block_of_readExtensions h
      rw [readExtensions_append] at h
      split_ifs at h with hdeclares hshort
      · exact ⟨[], b, rest', rfl, by simp, hdeclares, by omega, (Option.some_inj.mp h).symm⟩
      · have hlength : rest'.length ≤ n := by
          rw [List.length_append, b.length_bytes] at hn
          omega
        obtain ⟨before, c, tail, rfl, hbefore, hc⟩ := ih h hlength
        refine ⟨b :: before, c, tail, ?_, List.forall_mem_cons.mpr ⟨hdeclares, hbefore⟩, hc⟩
        rw [List.flatMap_cons, List.append_assoc, List.append_assoc, List.append_assoc]
  · rintro ⟨before, b, tail, rfl, hbefore, hdeclares, hcount, rfl⟩
    induction before with
    | nil =>
      rw [List.flatMap_nil, List.nil_append, readExtensions_append,
        if_pos (show b.cmd = _ ∨ b.cmd = _ from hdeclares), if_neg (by omega)]
    | cons x before ih =>
      obtain ⟨hx, hrest⟩ := List.forall_mem_cons.mp hbefore
      rw [List.flatMap_cons, List.append_assoc, List.append_assoc, readExtensions_append,
        if_neg (show ¬ (x.cmd = _ ∨ x.cmd = _) from hx), ← List.append_assoc]
      exact ih hrest

theorem conclusion_iff (buf : List UInt8) (off : ℕ) :
    (UInt32.ofNat (word 4 buf off)).toInt32 = srtHsReqtypeConclusion ↔
      word 4 buf off = 2 ^ 32 - 1 := by
  have hconclusion : srtHsReqtypeConclusion = (UInt32.ofNat (2 ^ 32 - 1)).toInt32 := rfl
  have hinjective : Function.Injective UInt32.toInt32 :=
    Function.LeftInverse.injective UInt32.toUInt32_toInt32
  rw [hconclusion, hinjective.eq_iff, ← UInt32.toNat_inj,
    UInt32.toNat_ofNat_of_lt' (word_lt 4 buf off), UInt32.toNat_ofNat_of_lt' (by decide)]

theorem version_iff (buf : List UInt8) (off : ℕ) :
    UInt32.ofNat (word 4 buf off) = srtHsVersion5 ↔ word 4 buf off = 5 := by
  rw [← UInt32.toNat_inj, UInt32.toNat_ofNat_of_lt' (word_lt 4 buf off)]
  rfl

theorem extension_iff (buf : List UInt8) (off : ℕ) :
    (UInt32.ofNat (word 4 buf off) &&& 0xffff) &&& srtHsExtFlagHsreq ≠ 0 ↔
      (word 4 buf off).testBit 0 = true := by
  have hmask : (0xffff : UInt32) &&& srtHsExtFlagHsreq = srtHsExtFlagHsreq := rfl
  rw [UInt32.and_assoc, hmask, bit_ne_zero_iff 0 srtHsExtFlagHsreq rfl]

theorem parseSrtHandshakeLatency_eq_some {buf : List UInt8} {l : SrtHandshakeLatency} :
    parseSrtHandshakeLatency buf = some l ↔
      getPacketType buf = some srtTypeHandshake ∧
      srtHandshakeCifLen ≤ (buf.drop srtControlHeaderLen).length ∧
      word 4 (buf.drop srtControlHeaderLen) 0 = 5 ∧
      word 4 (buf.drop srtControlHeaderLen) 20 = 2 ^ 32 - 1 ∧
      (word 4 (buf.drop srtControlHeaderLen) 4).testBit 0 = true ∧
      readExtensions ((buf.drop srtControlHeaderLen).drop srtHandshakeCifLen) = some l := by
  rw [parseSrtHandshakeLatency]
  simp only [Option.bind_eq_bind, Option.bind_eq_some_iff, Option.guard_eq_some', exists_const]
  constructor
  · rintro ⟨type, htype, rfl, hheader, hcif, w0, hw0, hversion, w5, hw5, hrequest, w1, hw1,
      hextension, hwalk⟩
    rw [srtHandshakeCifLen] at hcif
    rw [be32_eq_some (by omega), Option.some_inj] at hw0 hw5 hw1
    subst hw0 hw5 hw1
    exact ⟨htype, hcif, (version_iff _ _).mp hversion, (conclusion_iff _ _).mp hrequest,
      (extension_iff _ _).mp hextension, hwalk⟩
  · rintro ⟨htype, hcif, hversion, hrequest, hextension, hwalk⟩
    rw [srtHandshakeCifLen] at hcif
    have hheader : srtControlHeaderLen ≤ buf.length := by
      rw [List.length_drop] at hcif
      omega
    exact ⟨_, htype, rfl, hheader, hcif, _, be32_eq_some (by omega), (version_iff _ _).mpr hversion,
      _, be32_eq_some (by omega), (conclusion_iff _ _).mpr hrequest, _, be32_eq_some (by omega),
      (extension_iff _ _).mpr hextension, hwalk⟩

/-- A latency is read from a packet exactly when it is the conclusion of a version 5 handshake
with a request or response behind it: `l` is what the first of these declares, in whichever
block it stands. -/
theorem handshake_latency_iff (buf : List UInt8) (l : SrtHandshakeLatency) :
    parseSrtHandshakeLatency buf = some l ↔
      ∃ (header cif : List UInt8) (before : List ExtensionBlock) (b : ExtensionBlock)
        (tail : List UInt8),
        buf = be16Bytes srtTypeHandshake ++ header ++ cif ++
          (before.flatMap ExtensionBlock.bytes ++ b.bytes ++ tail) ∧
        header.length = 14 ∧ cif.length = srtHandshakeCifLen ∧
        word 4 cif 0 = 5 ∧ word 4 cif 20 = 2 ^ 32 - 1 ∧ (word 4 cif 4).testBit 0 = true ∧
        (∀ x ∈ before, ¬ x.Declares) ∧ b.Declares ∧ 3 ≤ b.count.toNat ∧ l = b.latency := by
  rw [parseSrtHandshakeLatency_eq_some]
  constructor
  · rintro ⟨htype, hcif, hversion, hrequest, hextension, hwalk⟩
    obtain ⟨rest, rfl⟩ := getPacketType_eq_some.mp htype
    obtain ⟨before, b, tail, hblocks, hwalked⟩ := readExtensions_eq_some.mp hwalk
    have hbody : (be16Bytes srtTypeHandshake ++ rest).drop srtControlHeaderLen = rest.drop 14 := by
      rw [List.drop_append, List.drop_of_length_le (by rw [length_be16Bytes]; decide),
        length_be16Bytes, List.nil_append]
      rfl
    rw [hbody] at hcif hversion hrequest hextension hblocks
    have hheader : (rest.take 14).length = 14 := by
      rw [srtHandshakeCifLen, List.length_drop] at hcif
      rw [List.length_take]
      omega
    have hword : ∀ w off, off + w ≤ srtHandshakeCifLen →
        word w ((rest.drop 14).take srtHandshakeCifLen) off = word w (rest.drop 14) off := by
      intro w off hfits
      rw [word, word, List.drop_take, List.take_take, min_eq_left (by omega)]
    refine ⟨rest.take 14, (rest.drop 14).take srtHandshakeCifLen, before, b, tail, ?_, hheader,
      List.length_take_of_le hcif, ?_, ?_, ?_, hwalked⟩
    · rw [← hblocks, List.append_assoc, List.append_assoc, List.take_append_drop,
        List.take_append_drop]
    · rw [hword 4 0 (by decide), hversion]
    · rw [hword 4 20 (by decide), hrequest]
    · rw [hword 4 4 (by decide), hextension]
  · rintro ⟨header, cif, before, b, tail, rfl, hheader, hcif, hversion, hrequest, hextension,
      hwalked⟩
    have hfront : (be16Bytes srtTypeHandshake ++ header).length = srtControlHeaderLen := by
      rw [List.length_append, length_be16Bytes, hheader]
      rfl
    have hbody : (be16Bytes srtTypeHandshake ++ header ++ cif ++
        (before.flatMap ExtensionBlock.bytes ++ b.bytes ++ tail)).drop srtControlHeaderLen =
        cif ++ (before.flatMap ExtensionBlock.bytes ++ b.bytes ++ tail) := by
      rw [List.append_assoc _ cif, ← hfront, List.drop_left]
    have hword : ∀ off, off + 4 ≤ srtHandshakeCifLen → ∀ rest : List UInt8,
        word 4 (cif ++ rest) off = word 4 cif off := by
      intro off hfits rest
      rw [word, word, List.drop_append_of_le_length (by omega),
        List.take_append_of_le_length (by rw [List.length_drop]; omega)]
    have htype : getPacketType (be16Bytes srtTypeHandshake ++ header ++ cif ++
        (before.flatMap ExtensionBlock.bytes ++ b.bytes ++ tail)) = some srtTypeHandshake := by
      rw [List.append_assoc, List.append_assoc, getPacketType_append]
    rw [hbody, hword 0 (by decide), hword 20 (by decide), hword 4 (by decide)]
    refine ⟨htype, ?_, hversion, hrequest, hextension, ?_⟩
    · rw [List.length_append, hcif]
      omega
    · rw [← hcif, List.drop_left]
      exact readExtensions_eq_some.mpr ⟨before, b, tail, rfl, hwalked⟩

end Srtla.Wire
