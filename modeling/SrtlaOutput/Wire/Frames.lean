import SrtlaOutput.Wire.Defs

/-! What the keepalive and acknowledgement parsers accept is what the builders write, up to
the bytes that a reader skips. -/

namespace Srtla.Wire
open BigEndian

@[simp] theorem length_be16Bytes (n : UInt16) : (be16Bytes n).length = 2 := length_bytes 2 _
@[simp] theorem length_be32Bytes (n : UInt32) : (be32Bytes n).length = 4 := length_bytes 4 _
@[simp] theorem length_be64Bytes (n : UInt64) : (be64Bytes n).length = 8 := length_bytes 8 _

@[simp] theorem word_be16Bytes (n : UInt16) (rest : List UInt8) :
    word 2 (be16Bytes n ++ rest) 0 = n.toNat :=
  word_bytes_append n.toNat_lt rest

@[simp] theorem word_be32Bytes (n : UInt32) (rest : List UInt8) :
    word 4 (be32Bytes n ++ rest) 0 = n.toNat :=
  word_bytes_append n.toNat_lt rest

@[simp] theorem word_be64Bytes (n : UInt64) (rest : List UInt8) :
    word 8 (be64Bytes n ++ rest) 0 = n.toNat :=
  word_bytes_append n.toNat_lt rest

@[simp] theorem be16Bytes_word (buf : List UInt8) (off : ℕ) :
    be16Bytes (UInt16.ofNat (word 2 buf off)) = bytes 2 (word 2 buf off) := by
  rw [be16Bytes, UInt16.toNat_ofNat_of_lt' (word_lt 2 buf off)]

@[simp] theorem be32Bytes_word (buf : List UInt8) (off : ℕ) :
    be32Bytes (UInt32.ofNat (word 4 buf off)) = bytes 4 (word 4 buf off) := by
  rw [be32Bytes, UInt32.toNat_ofNat_of_lt' (word_lt 4 buf off)]

@[simp] theorem be64Bytes_word (buf : List UInt8) (off : ℕ) :
    be64Bytes (UInt64.ofNat (word 8 buf off)) = bytes 8 (word 8 buf off) := by
  rw [be64Bytes, UInt64.toNat_ofNat_of_lt' (word_lt 8 buf off)]

@[simp] theorem getPacketType_append (type : UInt16) (rest : List UInt8) :
    getPacketType (be16Bytes type ++ rest) = some type := by
  have hlength : ¬ (be16Bytes type ++ rest).length < 2 := by
    rw [List.length_append, length_be16Bytes]
    omega
  rw [getPacketType, if_neg hlength, word_be16Bytes, UInt16.ofNat_toNat]

theorem getPacketType_eq_some {buf : List UInt8} {type : UInt16} :
    getPacketType buf = some type ↔ ∃ rest, buf = be16Bytes type ++ rest := by
  constructor
  · intro h
    have hlength : ¬ buf.length < 2 := by
      intro hshort
      rw [getPacketType, if_pos hshort] at h
      exact Option.some_ne_none _ h.symm
    rw [getPacketType, if_neg hlength, Option.some_inj] at h
    have hdrop := drop_eq 2 0 buf (by omega)
    refine ⟨buf.drop 2, ?_⟩
    rwa [List.drop_zero, ← be16Bytes_word, h] at hdrop
  · rintro ⟨rest, rfl⟩
    exact getPacketType_append type rest

/-! Keepalives. -/

theorem extractKeepaliveTimestamp_append (now : UInt64) (rest : List UInt8) :
    extractKeepaliveTimestamp (createKeepalivePacket now ++ rest) = some now := by
  have hlength : ¬ (createKeepalivePacket now ++ rest).length < 10 := by
    simp only [createKeepalivePacket, List.length_append, length_be16Bytes, length_be64Bytes]
    omega
  have hword : word 8 (createKeepalivePacket now ++ rest) 2 = now.toNat := by
    rw [createKeepalivePacket, List.append_assoc, word_append (length_be16Bytes _).le,
      length_be16Bytes, word_be64Bytes]
  have htype : getPacketType (createKeepalivePacket now ++ rest) = some srtlaTypeKeepalive := by
    rw [createKeepalivePacket, List.append_assoc, getPacketType_append]
  rw [extractKeepaliveTimestamp, if_neg hlength, if_neg (not_not_intro htype), hword,
    UInt64.ofNat_toNat]

theorem extractKeepaliveTimestamp_eq_some {buf : List UInt8} {now : UInt64} :
    extractKeepaliveTimestamp buf = some now ↔
      ∃ rest, buf = createKeepalivePacket now ++ rest := by
  constructor
  · intro h
    rw [extractKeepaliveTimestamp] at h
    split_ifs at h with hlength htype
    obtain ⟨tail, rfl⟩ := getPacketType_eq_some.mp (not_not.mp htype)
    rw [List.length_append, length_be16Bytes] at hlength
    rw [word_append (length_be16Bytes _).le, length_be16Bytes, Option.some_inj] at h
    have htail := drop_eq 8 0 tail (by omega)
    refine ⟨tail.drop 8, ?_⟩
    rw [List.drop_zero, ← be64Bytes_word, h] at htail
    rw [createKeepalivePacket, List.append_assoc, ← htail]
  · rintro ⟨rest, rfl⟩
    exact extractKeepaliveTimestamp_append now rest

def connectionInfoBytes (info : ConnectionInfo) : List UInt8 :=
  be16Bytes srtlaKeepaliveMagic ++ be16Bytes srtlaKeepaliveExtVersion ++ be32Bytes info.connId ++
    be32Bytes info.window.toUInt32 ++ be32Bytes info.inFlight.toUInt32 ++
    be32Bytes info.rttMs ++ be32Bytes info.nakCount ++ be32Bytes info.bitrateBytesPerSec

theorem createKeepalivePacketExt_eq (info : ConnectionInfo) (now : UInt64) :
    createKeepalivePacketExt info now = createKeepalivePacket now ++ connectionInfoBytes info := by
  simp only [createKeepalivePacketExt, connectionInfoBytes, List.append_assoc]

@[simp] theorem length_createKeepalivePacketExt (info : ConnectionInfo) (now : UInt64) :
    (createKeepalivePacketExt info now).length = srtlaKeepaliveExtLen := by
  simp [createKeepalivePacketExt, createKeepalivePacket, srtlaKeepaliveExtLen]

theorem extractKeepaliveConnInfo_append (info : ConnectionInfo) (now : UInt64)
    (rest : List UInt8) :
    extractKeepaliveConnInfo (createKeepalivePacketExt info now ++ rest) = some info := by
  have hlength : ¬ (createKeepalivePacketExt info now ++ rest).length < srtlaKeepaliveExtLen := by
    rw [List.length_append, length_createKeepalivePacketExt]
    omega
  rw [extractKeepaliveConnInfo, if_neg hlength]
  simp [createKeepalivePacketExt, createKeepalivePacket, word_append]

theorem extractKeepaliveConnInfo_eq_some {buf : List UInt8} {info : ConnectionInfo} :
    extractKeepaliveConnInfo buf = some info ↔
      ∃ now rest, buf = createKeepalivePacketExt info now ++ rest := by
  constructor
  · intro h
    rw [extractKeepaliveConnInfo] at h
    split_ifs at h with hlength htype hmagic hversion
    obtain ⟨tail, rfl⟩ := getPacketType_eq_some.mp (not_not.mp htype)
    rw [List.length_append, length_be16Bytes, srtlaKeepaliveExtLen] at hlength
    simp only [not_not, word_append, length_be16Bytes, Nat.reduceLeDiff, Nat.reduceSub]
      at hmagic hversion h
    have htail := drop_eq 8 0 tail (by omega)
    rw [drop_eq 2 (0 + 8) _ (by omega), drop_eq 2 (0 + 8 + 2) _ (by omega),
      drop_eq 4 (0 + 8 + 2 + 2) _ (by omega),
      drop_eq 4 (0 + 8 + 2 + 2 + 4) _ (by omega),
      drop_eq 4 (0 + 8 + 2 + 2 + 4 + 4) _ (by omega),
      drop_eq 4 (0 + 8 + 2 + 2 + 4 + 4 + 4) _ (by omega),
      drop_eq 4 (0 + 8 + 2 + 2 + 4 + 4 + 4 + 4) _ (by omega),
      drop_eq 4 (0 + 8 + 2 + 2 + 4 + 4 + 4 + 4 + 4) _ (by omega)] at htail
    simp only [← be64Bytes_word, ← be32Bytes_word, ← be16Bytes_word, List.drop_zero,
      Nat.reduceAdd, hmagic, hversion] at htail
    obtain rfl := Option.some_inj.mp h
    refine ⟨UInt64.ofNat (word 8 tail 0), tail.drop 36, ?_⟩
    simp only [createKeepalivePacketExt, createKeepalivePacket, UInt32.toUInt32_toInt32, List.append_assoc]
    exact congrArg _ htail
  · rintro ⟨now, rest, rfl⟩
    exact extractKeepaliveConnInfo_append info now rest

/-- Each reader accepts exactly what its builder writes, whatever follows it, and finds the
written fields there. A reader that knows no connection info finds the timestamp as well. -/
theorem keepalive_read_iff_written (buf : List UInt8) :
    (∀ now, extractKeepaliveTimestamp buf = some now ↔
      ∃ rest, buf = createKeepalivePacket now ++ rest) ∧
    (∀ info, extractKeepaliveConnInfo buf = some info ↔
      ∃ now rest, buf = createKeepalivePacketExt info now ++ rest ∧
        extractKeepaliveTimestamp buf = some now) := by
  refine ⟨fun now => extractKeepaliveTimestamp_eq_some, fun info => ?_⟩
  rw [extractKeepaliveConnInfo_eq_some]
  constructor
  · rintro ⟨now, rest, rfl⟩
    refine ⟨now, rest, rfl, extractKeepaliveTimestamp_eq_some.mpr ?_⟩
    exact ⟨connectionInfoBytes info ++ rest,
      by rw [createKeepalivePacketExt_eq, List.append_assoc]⟩
  · rintro ⟨now, rest, hbuf, -⟩
    exact ⟨now, rest, hbuf⟩

/-! Acknowledgements. -/

theorem map_words_be32 {buf : List UInt8} {ns : List UInt32}
    (h : (words 4 buf).map UInt32.ofNat = ns) :
    ∃ fragment, fragment.length < 4 ∧ buf = ns.flatMap be32Bytes ++ fragment := by
  obtain ⟨fragment, hfragment, hbuf⟩ := exists_words_append (w := 4) (by decide) buf
  refine ⟨fragment, hfragment, ?_⟩
  have hbytes : ∀ n ∈ words 4 buf, be32Bytes (UInt32.ofNat n) = bytes 4 n := by
    intro n hn
    rw [be32Bytes, UInt32.toNat_ofNat_of_lt' (lt_of_mem_words hn)]
  have hflat : ns.flatMap be32Bytes = (words 4 buf).flatMap (bytes 4) := by
    rw [← h, List.flatMap_map]
    exact List.flatMap_congr hbytes
  rw [hflat, ← hbuf]

theorem words_flatMap_be32 (ns : List UInt32) {fragment : List UInt8} (h : fragment.length < 4) :
    (words 4 (ns.flatMap be32Bytes ++ fragment)).map UInt32.ofNat = ns := by
  have hflat : ns.flatMap be32Bytes = (ns.map UInt32.toNat).flatMap (bytes 4) := by
    rw [List.flatMap_map]
    rfl
  have hlt : ∀ n ∈ ns.map UInt32.toNat, n < 256 ^ 4 := by
    intro n hn
    obtain ⟨m, -, rfl⟩ := List.mem_map.mp hn
    exact m.toNat_lt
  rw [hflat, words_flatMap hlt h, List.map_map]
  exact (List.map_congr_left fun n _ => UInt32.ofNat_toNat).trans (List.map_id ns)

theorem parseSrtlaAck_eq_iff {buf : List UInt8} {acks : List UInt32} (hacks : acks ≠ []) :
    parseSrtlaAck buf = acks ↔
      ∃ padding fragment : List UInt8, padding.length = 2 ∧ fragment.length < 4 ∧
        buf = be16Bytes srtlaTypeAck ++ padding ++ acks.flatMap be32Bytes ++ fragment := by
  constructor
  · intro h
    rw [parseSrtlaAck] at h
    split_ifs at h with hlength htype
    · exact absurd h.symm hacks
    · exact absurd h.symm hacks
    obtain ⟨fragment, hfragment, hids⟩ := map_words_be32 h
    obtain ⟨tail, rfl⟩ := getPacketType_eq_some.mp (not_not.mp htype)
    rw [List.length_append, length_be16Bytes] at hlength
    have hpadding : (tail.take 2).length = 2 := by
      rw [List.length_take]
      omega
    have hdrop : (be16Bytes srtlaTypeAck ++ tail).drop 4 = tail.drop 2 := by
      rw [List.drop_append, List.drop_of_length_le (by rw [length_be16Bytes]; decide),
        length_be16Bytes, List.nil_append]
    refine ⟨tail.take 2, fragment, hpadding, hfragment, ?_⟩
    rw [List.append_assoc, List.append_assoc, ← hids, hdrop, List.take_append_drop]
  · rintro ⟨padding, fragment, hpadding, hfragment, rfl⟩
    have hids : 4 ≤ (acks.flatMap be32Bytes).length := by
      obtain ⟨ack, rest, rfl⟩ := List.exists_cons_of_ne_nil hacks
      rw [List.flatMap_cons, List.length_append, length_be32Bytes]
      omega
    have hfront : (be16Bytes srtlaTypeAck ++ padding).length = 4 := by
      rw [List.length_append, length_be16Bytes, hpadding]
    have hlength : ¬ (be16Bytes srtlaTypeAck ++ padding ++ acks.flatMap be32Bytes ++
        fragment).length < 8 := by
      rw [List.append_assoc _ _ fragment, List.length_append, hfront, List.length_append]
      omega
    have htype : getPacketType (be16Bytes srtlaTypeAck ++ padding ++ acks.flatMap be32Bytes ++
        fragment) = some srtlaTypeAck := by
      rw [List.append_assoc, List.append_assoc, getPacketType_append]
    have hdrop : (be16Bytes srtlaTypeAck ++ padding ++ acks.flatMap be32Bytes ++
        fragment).drop 4 = acks.flatMap be32Bytes ++ fragment := by
      rw [List.append_assoc _ _ fragment, List.drop_append, List.drop_of_length_le hfront.le,
        hfront, List.nil_append, Nat.sub_self, List.drop_zero]
    rw [parseSrtlaAck, if_neg hlength, if_neg (not_not_intro htype), hdrop,
      words_flatMap_be32 acks hfragment]

theorem parseSrtlaAck_createAckPacket (acks : List UInt32) {fragment : List UInt8}
    (h : fragment.length < 4) : parseSrtlaAck (createAckPacket acks ++ fragment) = acks := by
  cases acks with
  | nil =>
    have hlength : (createAckPacket [] ++ fragment).length < 8 := by
      rw [createAckPacket, List.flatMap_nil, List.append_nil, List.length_append,
        List.length_append, length_be16Bytes, List.length_cons, List.length_singleton]
      omega
    rw [parseSrtlaAck, if_pos hlength]
  | cons ack acks =>
    have hwritten : createAckPacket (ack :: acks) ++ fragment = be16Bytes srtlaTypeAck ++ [0, 0] ++
        (ack :: acks).flatMap be32Bytes ++ fragment := rfl
    exact (parseSrtlaAck_eq_iff (List.cons_ne_nil ack acks)).mpr
      ⟨[0, 0], fragment, rfl, h, hwritten⟩

/-- A receiver's acknowledgement is read in full, and nothing else is read as it. -/
theorem ack_read_iff_written {acks : List UInt32} (hacks : acks ≠ []) :
    (∀ fragment : List UInt8, fragment.length < 4 →
      parseSrtlaAck (createAckPacket acks ++ fragment) = acks) ∧
    ∀ buf, parseSrtlaAck buf = acks ↔
      ∃ padding fragment : List UInt8, padding.length = 2 ∧ fragment.length < 4 ∧
        buf = be16Bytes srtlaTypeAck ++ padding ++ acks.flatMap be32Bytes ++ fragment :=
  ⟨fun _ h => parseSrtlaAck_createAckPacket acks h, fun _ => parseSrtlaAck_eq_iff hacks⟩

theorem ack_read_two_ids : parseSrtlaAck (createAckPacket [7, 0x7fffffff] ++ [0, 1, 2]) =
    [7, 0x7fffffff] :=
  (ack_read_iff_written (List.cons_ne_nil 7 [0x7fffffff])).1 [0, 1, 2] (by decide)

end Srtla.Wire
