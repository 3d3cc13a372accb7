import SrtlaOutput.Wire.Frames
import Mathlib.Data.Nat.Bitwise

/-! The loss list of a negative acknowledgement: its entries, what the parser makes of a
list that was written from entries, and what it makes of any bytes at all. -/

namespace Srtla.Wire
open BigEndian

inductive LossEntry
  | single (id : UInt32)
  | range (first last : UInt32)
  deriving DecidableEq, Repr

namespace LossEntry

def words : LossEntry → List UInt32
  | single id => [id]
  | range first last => [first ||| srtNakRangeFlag, last]

def ids : LossEntry → List UInt32
  | single id => [id]
  | range first last =>
    (List.range (last.toNat + 1 - first.toNat)).map fun k => first + UInt32.ofNat k

def Valid : LossEntry → Prop
  | single id => id.toNat < 2 ^ 31
  | range first last => first.toNat ≤ last.toNat ∧ last.toNat < 2 ^ 31

/-- The ids of an entry that are taken after `count` ids; only ranges stop at the limit. -/
def taken (count : ℕ) : LossEntry → List UInt32
  | single id => [id]
  | range first last => (range first last).ids.take (srtNakMaxLossIds - count)

end LossEntry

/-! The flag of a word. -/

theorem flag_eq_zero_iff (id : UInt32) : id &&& srtNakRangeFlag = 0 ↔ id.toNat < 2 ^ 31 := by
  have hflag : srtNakRangeFlag.toNat = 2 ^ 31 := rfl
  have hlt : id.toNat < 2 ^ 32 := id.toNat_lt
  rw [← UInt32.toNat_inj, UInt32.toNat_and, hflag, Nat.and_two_pow,
    Nat.testBit_eq_decide_div_mod_eq]
  rcases Nat.lt_or_ge id.toNat (2 ^ 31) with hlow | hhigh
  · have hdiv : id.toNat / 2 ^ 31 = 0 := Nat.div_eq_of_lt hlow
    rw [hdiv]
    exact iff_of_true rfl hlow
  · have hdiv : id.toNat / 2 ^ 31 = 1 := by omega
    rw [hdiv]
    exact iff_of_false (by decide) (Nat.not_lt.mpr hhigh)

theorem toNat_without_flag (id : UInt32) :
    (id &&& ~~~srtNakRangeFlag).toNat = id.toNat % 2 ^ 31 := by
  have hmask : (~~~srtNakRangeFlag).toNat = 2 ^ 31 - 1 := rfl
  rw [UInt32.toNat_and, hmask, Nat.and_two_pow_sub_one_eq_mod]

theorem toNat_with_flag {id : UInt32} (h : id.toNat < 2 ^ 31) :
    (id ||| srtNakRangeFlag).toNat = 2 ^ 31 + id.toNat := by
  have hflag : srtNakRangeFlag.toNat = 2 ^ 31 * 1 := rfl
  rw [UInt32.toNat_or, hflag, Nat.or_comm, ← Nat.two_pow_add_eq_or_of_lt h, Nat.mul_one]

theorem start_of_range {first : UInt32} (h : first.toNat < 2 ^ 31) :
    ¬ (first ||| srtNakRangeFlag) &&& srtNakRangeFlag = 0 ∧
      (first ||| srtNakRangeFlag) &&& ~~~srtNakRangeFlag = first := by
  constructor
  · rw [flag_eq_zero_iff, toNat_with_flag h]
    omega
  · rw [← UInt32.toNat_inj, toNat_without_flag, toNat_with_flag h, Nat.add_mod_left,
      Nat.mod_eq_of_lt h]

/-! Ranges. -/

theorem ids_range_cons {seq last : UInt32} (h : seq.toNat < last.toNat) :
    (LossEntry.range seq last).ids = seq :: (LossEntry.range (seq + 1) last).ids := by
  have hnext : (seq + 1).toNat = seq.toNat + 1 := by
    rw [UInt32.toNat_add]
    exact Nat.mod_eq_of_lt (Nat.lt_of_le_of_lt h last.toNat_lt)
  have hcount : last.toNat + 1 - seq.toNat = last.toNat + 1 - (seq + 1).toNat + 1 := by omega
  rw [LossEntry.ids, LossEntry.ids, hcount, List.range_succ_eq_map, List.map_cons, List.map_map]
  congr 1
  · exact UInt32.add_zero seq
  · refine List.map_congr_left fun k _ => ?_
    rw [Function.comp_apply, Nat.succ_eq_add_one, UInt32.ofNat_add, UInt32.add_comm (.ofNat k),
      UInt32.add_assoc]
    rfl

theorem ids_range_self (seq : UInt32) : (LossEntry.range seq seq).ids = [seq] := by
  have hcount : seq.toNat + 1 - seq.toNat = 1 := by omega
  rw [LossEntry.ids, hcount, List.range_one, List.map_singleton]
  exact congrArg (fun id => [id]) (UInt32.add_zero seq)

theorem pushRange_eq {last seq : UInt32} (h : seq.toNat ≤ last.toNat) (out : List UInt32) :
    pushRange last seq out = out ++ (LossEntry.range seq last).taken out.length := by
  -- the inner loop stops at the last id or at the limit, whichever comes first
  fun_induction pushRange last seq out with
  | case1 seq out hfull =>
    rw [LossEntry.taken, Nat.sub_eq_zero_of_le hfull, List.take_zero, List.append_nil]
  | case2 out hroom =>
    rw [LossEntry.taken, ids_range_self, List.take_of_length_le]
    rw [List.length_singleton]
    omega
  | case3 seq out hroom hne ih =>
    have hlt : seq.toNat < last.toNat :=
      Nat.lt_of_le_of_ne h fun heq => hne (UInt32.toNat_inj.mp heq)
    have hnext : (seq + 1).toNat ≤ last.toNat := by
      rw [UInt32.toNat_add]
      exact (Nat.mod_le _ _).trans hlt
    have htake : srtNakMaxLossIds - out.length =
        srtNakMaxLossIds - (out ++ [seq]).length + 1 := by
      rw [List.length_append, List.length_singleton]
      omega
    rw [ih hnext, LossEntry.taken, LossEntry.taken, ids_range_cons hlt, htake, List.take_succ_cons,
      List.append_assoc]
    rfl

/-! The whole list. -/

/-- The valid entries of a list of words. An invalid range costs both its words; the words
behind it are still read as entries. -/
def readEntries : List UInt32 → List LossEntry
  | [] => []
  | id :: rest =>
    if id.toNat < 2 ^ 31 then .single id :: readEntries rest
    else match rest with
      | [] => []
      | last :: rest =>
        if id.toNat % 2 ^ 31 ≤ last.toNat ∧ last.toNat < 2 ^ 31 then
          .range (id &&& ~~~srtNakRangeFlag) last :: readEntries rest
        else readEntries rest

theorem readEntries_single {id : UInt32} (h : id.toNat < 2 ^ 31) (rest : List UInt32) :
    readEntries (id :: rest) = .single id :: readEntries rest := by
  rw [readEntries.eq_def]
  exact if_pos h

def takeEntry (out : List UInt32) (e : LossEntry) : List UInt32 := out ++ e.taken out.length

theorem readLossList_eq (ws out : List UInt32) :
    readLossList ws out = (readEntries ws).foldl takeEntry out := by
  fun_induction readLossList ws out with
  | case1 out => rfl
  | case2 id rest out hflag ih =>
    rw [readEntries_single ((flag_eq_zero_iff id).mp hflag), List.foldl_cons, ih]
    rfl
  | case3 id out hflag =>
    rw [readEntries, if_neg (mt (flag_eq_zero_iff id).mpr hflag)]
    rfl
  | case4 id out hflag start last rest hbad ih =>
    have hinvalid : ¬ (id.toNat % 2 ^ 31 ≤ last.toNat ∧ last.toNat < 2 ^ 31) := by
      rintro ⟨hle, hlt⟩
      rcases hbad with hset | hback
      · exact hset ((flag_eq_zero_iff last).mpr hlt)
      · rw [UInt32.lt_iff_toNat_lt, toNat_without_flag] at hback
        omega
    rw [readEntries, if_neg (mt (flag_eq_zero_iff id).mpr hflag), if_neg hinvalid, ih]
  | case5 id out hflag start last rest hgood ih =>
    obtain ⟨hclear, hle⟩ := not_or.mp hgood
    rw [UInt32.lt_iff_toNat_lt, Nat.not_lt, toNat_without_flag] at hle
    have hvalid : id.toNat % 2 ^ 31 ≤ last.toNat ∧ last.toNat < 2 ^ 31 :=
      ⟨hle, (flag_eq_zero_iff last).mp (not_not.mp hclear)⟩
    have hstart : start.toNat ≤ last.toNat := by
      rw [toNat_without_flag]
      exact hle
    rw [readEntries, if_neg (mt (flag_eq_zero_iff id).mpr hflag), if_pos hvalid, List.foldl_cons,
      ih, takeEntry, pushRange_eq hstart]

theorem valid_of_mem_readEntries {ws : List UInt32} {e : LossEntry} (h : e ∈ readEntries ws) :
    e.Valid := by
  fun_induction readEntries ws with
  | case1 => exact absurd h List.not_mem_nil
  | case2 id rest hlow ih =>
    rcases List.mem_cons.mp h with rfl | hrest
    · exact hlow
    · exact ih hrest
  | case3 => exact absurd h List.not_mem_nil
  | case4 id hhigh last rest hgood ih =>
    rcases List.mem_cons.mp h with rfl | hrest
    · exact ⟨(toNat_without_flag id).trans_le hgood.1, hgood.2⟩
    · exact ih hrest
  | case5 id hhigh last rest hbad ih => exact ih h

theorem readEntries_flatMap {es : List LossEntry} (h : ∀ e ∈ es, e.Valid) :
    readEntries (es.flatMap LossEntry.words) = es := by
  induction es with
  | nil => rfl
  | cons e es ih =>
    have hrest := ih fun d hd => h d (List.mem_cons_of_mem e hd)
    have he : e.Valid := h e List.mem_cons_self
    cases e with
    | single id =>
      rw [List.flatMap_cons, LossEntry.words, List.singleton_append,
        readEntries_single he, hrest]
    | range first last =>
      obtain ⟨hle, hlast⟩ : first.toNat ≤ last.toNat ∧ last.toNat < 2 ^ 31 := he
      have hfirst : first.toNat < 2 ^ 31 := Nat.lt_of_le_of_lt hle hlast
      obtain ⟨hflag, hstart⟩ := start_of_range hfirst
      have hmod : (first ||| srtNakRangeFlag).toNat % 2 ^ 31 = first.toNat := by
        rw [← toNat_without_flag, hstart]
      rw [List.flatMap_cons, LossEntry.words, List.cons_append, List.singleton_append, readEntries,
        if_neg (mt (flag_eq_zero_iff _).mpr hflag), hmod, if_pos ⟨hle, hlast⟩, hstart, hrest]

theorem words_readEntries_sublist (ws : List UInt32) :
    ((readEntries ws).flatMap LossEntry.words).Sublist ws := by
  fun_induction readEntries ws with
  | case1 => exact List.Sublist.refl []
  | case2 id rest hlow ih => exact ih.cons_cons id
  | case3 id hhigh => exact List.nil_sublist _
  | case4 id hhigh last rest hgood ih =>
    have hid : (id &&& ~~~srtNakRangeFlag) ||| srtNakRangeFlag = id := by
      have hlt : id.toNat < 2 ^ 32 := id.toNat_lt
      have hmod : (id &&& ~~~srtNakRangeFlag).toNat < 2 ^ 31 := by
        rw [toNat_without_flag]
        exact Nat.mod_lt _ (by decide)
      rw [← UInt32.toNat_inj, toNat_with_flag hmod, toNat_without_flag]
      omega
    rw [List.flatMap_cons, LossEntry.words, hid]
    exact (ih.cons_cons last).cons_cons id
  | case5 id hhigh last rest hbad ih => exact (ih.cons last).cons id

theorem ids_lt {e : LossEntry} (h : e.Valid) {id : UInt32} (hid : id ∈ e.ids) :
    id.toNat < 2 ^ 31 := by
  cases e with
  | single only =>
    obtain rfl := List.mem_singleton.mp hid
    exact h
  | range first last =>
    obtain ⟨hle, hlast⟩ : first.toNat ≤ last.toNat ∧ last.toNat < 2 ^ 31 := h
    obtain ⟨k, hk, rfl⟩ := List.mem_map.mp hid
    have hk' : k < last.toNat + 1 - first.toNat := List.mem_range.mp hk
    have hsmall : k < 2 ^ 32 := by omega
    rw [UInt32.toNat_add, UInt32.toNat_ofNat_of_lt' hsmall, Nat.mod_eq_of_lt (by omega)]
    omega

theorem taken_sublist (e : LossEntry) (count : ℕ) : (e.taken count).Sublist e.ids := by
  cases e with
  | single id => exact List.Sublist.refl [id]
  | range first last => exact List.take_sublist _ _

theorem foldl_takeEntry_sublist (es : List LossEntry) (out : List UInt32) :
    (es.foldl takeEntry out).Sublist (out ++ es.flatMap LossEntry.ids) := by
  induction es generalizing out with
  | nil =>
    rw [List.flatMap_nil, List.append_nil]
    exact List.Sublist.refl out
  | cons e es ih =>
    rw [List.foldl_cons, List.flatMap_cons, ← List.append_assoc]
    exact (ih _).trans (((taken_sublist e _).append_left out).append_right _)

def LossEntry.isSingle : LossEntry → Bool
  | .single _ => true
  | .range _ _ => false

theorem length_foldl_takeEntry_le (es : List LossEntry) (out : List UInt32) :
    (es.foldl takeEntry out).length ≤
      max out.length srtNakMaxLossIds + es.countP LossEntry.isSingle := by
  induction es generalizing out with
  | nil => exact Nat.le_add_right_of_le (Nat.le_max_left _ _)
  | cons e es ih =>
    refine (ih _).trans ?_
    cases e with
    | single id =>
      rw [takeEntry, LossEntry.taken, List.length_append, List.length_singleton,
        List.countP_cons_of_pos rfl]
      omega
    | range first last =>
      have hskip : ¬ (LossEntry.range first last).isSingle = true := Bool.false_ne_true
      rw [takeEntry, LossEntry.taken, List.length_append, List.length_take,
        List.countP_cons_of_neg hskip]
      omega

theorem foldl_takeEntry_eq {es : List LossEntry} {out : List UInt32}
    (h : (out ++ es.flatMap LossEntry.ids).length ≤ srtNakMaxLossIds) :
    es.foldl takeEntry out = out ++ es.flatMap LossEntry.ids := by
  -- below the limit every entry is taken in full
  induction es generalizing out with
  | nil => rw [List.flatMap_nil, List.append_nil]; rfl
  | cons e es ih =>
    have hall : e.taken out.length = e.ids := by
      cases e with
      | single id => rfl
      | range first last =>
        refine List.take_of_length_le ?_
        rw [List.flatMap_cons, List.length_append, List.length_append] at h
        omega
    rw [List.foldl_cons, List.flatMap_cons, takeEntry, hall, ih, List.append_assoc]
    rwa [List.append_assoc, ← List.flatMap_cons]

/-- Whatever the bytes are, the ids that are read are 31-bit ids that valid entries of the
buffer report, in their order, and only entries of one id can exceed the limit. -/
theorem loss_list_read (buf : List UInt8) : ∃ es : List LossEntry,
    (∀ e ∈ es, e.Valid) ∧
    (es.flatMap LossEntry.words).Sublist
      ((words 4 (buf.drop srtControlHeaderLen)).map UInt32.ofNat) ∧
    (parseSrtNak buf).Sublist (es.flatMap LossEntry.ids) ∧
    (∀ id ∈ parseSrtNak buf, id.toNat < 2 ^ 31) ∧
    (parseSrtNak buf).length ≤ srtNakMaxLossIds + es.countP LossEntry.isSingle := by
  rw [parseSrtNak]
  split_ifs with hlength htype
  · exact ⟨[], by simp⟩
  · exact ⟨[], by simp⟩
  · rw [readLossList_eq]
    have hsublist := foldl_takeEntry_sublist
      (readEntries ((words 4 (buf.drop srtControlHeaderLen)).map UInt32.ofNat)) []
    rw [List.nil_append] at hsublist
    refine ⟨_, fun e he => valid_of_mem_readEntries he, words_readEntries_sublist _, hsublist,
      fun id hid => ?_, ?_⟩
    · obtain ⟨e, he, hids⟩ := List.mem_flatMap.mp (hsublist.subset hid)
      exact ids_lt (valid_of_mem_readEntries he) hids
    · refine (length_foldl_takeEntry_le _ []).trans_eq ?_
      rw [List.length_nil, Nat.zero_max]

/-- A list of valid entries with at most as many ids as the limit is read in full, whatever
the rest of the header says and whatever fragment of a word follows. -/
theorem loss_list_round_trip (es : List LossEntry) (hes : ∀ e ∈ es, e.Valid) (hne : es ≠ [])
    (hlimit : (es.flatMap LossEntry.ids).length ≤ srtNakMaxLossIds)
    {header fragment : List UInt8} (hheader : header.length = 14) (hfragment : fragment.length < 4) :
    parseSrtNak (be16Bytes srtTypeNak ++ header ++
      (es.flatMap LossEntry.words).flatMap be32Bytes ++ fragment) =
    es.flatMap LossEntry.ids := by
  have hfront : (be16Bytes srtTypeNak ++ header).length = srtControlHeaderLen := by
    rw [List.length_append, length_be16Bytes, hheader]
    rfl
  have hwords : 4 ≤ ((es.flatMap LossEntry.words).flatMap be32Bytes).length := by
    obtain ⟨e, rest, rfl⟩ := List.exists_cons_of_ne_nil hne
    cases e <;>
      simp only [List.flatMap_cons, LossEntry.words, List.cons_append, List.nil_append,
        List.length_append, length_be32Bytes] <;> omega
  have hlength : ¬ (be16Bytes srtTypeNak ++ header ++
      (es.flatMap LossEntry.words).flatMap be32Bytes ++ fragment).length <
      srtControlHeaderLen + 4 := by
    rw [List.append_assoc _ _ fragment, List.length_append, hfront, List.length_append]
    omega
  have htype : getPacketType (be16Bytes srtTypeNak ++ header ++
      (es.flatMap LossEntry.words).flatMap be32Bytes ++ fragment) = some srtTypeNak := by
    rw [List.append_assoc, List.append_assoc, getPacketType_append]
  have hdrop : (be16Bytes srtTypeNak ++ header ++
      (es.flatMap LossEntry.words).flatMap be32Bytes ++ fragment).drop srtControlHeaderLen =
      (es.flatMap LossEntry.words).flatMap be32Bytes ++ fragment := by
    rw [List.append_assoc _ _ fragment, List.drop_append, List.drop_of_length_le hfront.le,
      hfront, List.nil_append, Nat.sub_self, List.drop_zero]
  rw [parseSrtNak, if_neg hlength, if_neg (not_not_intro htype), hdrop,
    words_flatMap_be32 _ hfragment, readLossList_eq, readEntries_flatMap hes]
  exact foldl_takeEntry_eq hlimit

theorem loss_list_round_trip_mixed :
    parseSrtNak (be16Bytes srtTypeNak ++ List.replicate 14 0 ++
      ([LossEntry.single 50, .range 100 102, .single 60].flatMap LossEntry.words).flatMap be32Bytes
        ++ [9]) =
    [50, 100, 101, 102, 60] :=
  loss_list_round_trip [.single 50, .range 100 102, .single 60]
    (by simp [LossEntry.Valid]) (List.cons_ne_nil _ _) (by decide) (by decide)
    (by decide)

end Srtla.Wire
