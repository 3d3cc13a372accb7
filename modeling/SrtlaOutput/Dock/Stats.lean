import SrtlaOutput.Engine.Defs
import SrtlaOutput.Lib.Memory

/-! The statistics on their way to the dock. The engine writes them as a text to memory of the
dock, which asks for the size of the text first, and the statistics may change in between. -/

namespace Srtla
open Abr Memory
variable {F A D : Type}

structure StatsCall (F A : Type) where
  engine : Option (Engine F A)
  stores : List (ℕ × UInt8) := []
  required : ℕ := 0

namespace Engine
variable [F64 F] [IpAddr A]

/-- The text of the statistics: `{}` where the serializer fails. -/
def statsText (toVec : EngineSnapshot → Option (List UInt8)) (e : Engine F A) : List UInt8 :=
  (toVec e.copyStatsJson.2).getD [123, 125]

def copyStatsJsonTo (toVec : EngineSnapshot → Option (List UInt8)) (e : Engine F A)
    (output : Option ℕ) (capacity : ℕ) : StatsCall F A :=
  let json := e.statsText toVec
  let call : StatsCall F A := { engine := some e.copyStatsJson.1, required := json.length + 1 }
  match output with
  | none => call
  | some output =>
    if capacity = 0 then call
    else
      let count := min json.length (capacity - 1)
      { call with stores := stores output (json.take count) ++ [(output + count, 0)] }

end Engine

/-- `srtla_output_copy_stats_json`, for the engine of a registered output. -/
def outputCopyStatsJson [F64 F] [IpAddr A] (toVec : EngineSnapshot → Option (List UInt8))
    (registered : Option (Engine F A)) (output : Option ℕ) (capacity : ℕ) : StatsCall F A :=
  match registered with
  | none => { engine := none }
  | some engine => engine.copyStatsJsonTo toVec output capacity

/-- Qt's documents: the null one, what `fromJson` makes of a text and whether it met no error. -/
structure QJson (D : Type) where
  null : D
  fromJson : List UInt8 → D × Bool
  isObject : D → Bool

def parsedText (buffer : List UInt8) (required : ℕ) : Option (List UInt8) :=
  if required = 0 ∨ buffer.length < required then none
  else
    let terminator := required - 1
    if buffer[terminator]? = some 0 then some (buffer.take terminator) else none

def parseStatsJson (q : QJson D) (buffer : List UInt8) (required : ℕ) : D × Bool :=
  (parsedText buffer required).elim (q.null, true) q.fromJson

def QJson.object (q : QJson D) (parsed : D × Bool) : Option D :=
  if parsed.2 && q.isObject parsed.1 then some parsed.1 else none

/-- A buffer that the dock has had filled, and the size that the engine gave with it. -/
structure StatsBuffer where
  buffer : List UInt8
  actual : ℕ
  deriving DecidableEq, Repr

section
variable [F64 F] [IpAddr A]

/-- The calls of the dock, the first one for the size and the second one for a buffer of that size
at `data`. The output may be registered with another engine each time. -/
def fetchStats (toVec : EngineSnapshot → Option (List UInt8)) (query copy : Option (Engine F A))
    (memory : ℕ → UInt8) (data : ℕ) : (ℕ → UInt8) × Option StatsBuffer :=
  let required := (outputCopyStatsJson toVec query none 0).required
  if required = 0 then (memory, none)
  else
    let allocated := apply memory (stores data (List.replicate required 0))
    let call := outputCopyStatsJson toVec copy (some data) required
    let copied := apply allocated call.stores
    (copied,
      if call.required = 0 ∨ required < call.required then none
      else some { buffer := read copied data required, actual := call.required })

def refreshStatus (q : QJson D) (toVec : EngineSnapshot → Option (List UInt8))
    (query copy : Option (Engine F A)) (memory : ℕ → UInt8) (data : ℕ) : Option D :=
  (fetchStats toVec query copy memory data).2.bind fun s =>
    q.object (parseStatsJson q s.buffer s.actual)

def withControls (controlSettings json : List UInt8) : List UInt8 :=
  -- an insertion past the end is padded with spaces
  json.take 1 ++ List.replicate (1 - json.length) 32 ++ controlSettings ++ json.drop 1

def websocketStatus (q : QJson D) (toVec : EngineSnapshot → Option (List UInt8))
    (controlSettings : List UInt8) (query copy : Option (Engine F A)) (memory : ℕ → UInt8)
    (data : ℕ) : Option (List UInt8) :=
  (fetchStats toVec query copy memory data).2.bind fun s =>
    (q.object (parseStatsJson q s.buffer s.actual)).map fun _ =>
      withControls controlSettings (s.buffer.take (s.actual - 1))

def handedOver (toVec : EngineSnapshot → Option (List UInt8)) (query copy : Option (Engine F A))
    (memory : ℕ → UInt8) (data : ℕ) : Option (List UInt8) :=
  (fetchStats toVec query copy memory data).2.bind fun s => parsedText s.buffer s.actual

variable {toVec : EngineSnapshot → Option (List UInt8)} {memory : ℕ → UInt8} {data : ℕ}

theorem Engine.copyStatsJsonTo_stores (toVec : EngineSnapshot → Option (List UInt8))
    (e : Engine F A) (output : ℕ) {capacity : ℕ} (hcapacity : capacity ≠ 0) :
    (e.copyStatsJsonTo toVec (some output) capacity).stores =
      stores output ((e.statsText toVec).take (capacity - 1) ++ [0]) := by
  have hstored : (e.copyStatsJsonTo toVec (some output) capacity).stores =
      stores output ((e.statsText toVec).take (min (e.statsText toVec).length (capacity - 1))) ++
        [(output + min (e.statsText toVec).length (capacity - 1), 0)] := by
    simp only [copyStatsJsonTo, if_neg hcapacity]
  rw [hstored, stores_append, List.length_take, Nat.min_comm, ← List.take_eq_take_min]
  rfl

theorem Engine.copyStatsJsonTo_within (e : Engine F A) {output capacity : ℕ} {s : ℕ × UInt8}
    (hs : s ∈ (e.copyStatsJsonTo toVec (some output) capacity).stores) :
    output ≤ s.1 ∧ s.1 < output + capacity := by
  rcases Nat.eq_zero_or_pos capacity with rfl | hpos
  · cases hs
  · rw [e.copyStatsJsonTo_stores toVec output (Nat.ne_of_gt hpos)] at hs
    have hregion := mem_stores hs
    rw [List.length_append, List.length_take, List.length_singleton] at hregion
    omega

theorem Engine.copyStatsJsonTo_terminated (toVec : EngineSnapshot → Option (List UInt8))
    (e : Engine F A) (output : ℕ) {capacity : ℕ} (hcapacity : capacity ≠ 0) :
    let count := min (e.statsText toVec).length (capacity - 1)
    read (apply memory (e.copyStatsJsonTo toVec (some output) capacity).stores) output (count + 1) =
      (e.statsText toVec).take count ++ [0] := by
  intro count
  have htake : (e.statsText toVec).take (capacity - 1) = (e.statsText toVec).take count := by
    rw [List.take_eq_take_min, Nat.min_comm]
  have hlength : count + 1 = ((e.statsText toVec).take count ++ [0]).length := by
    rw [List.length_append, List.length_take, List.length_singleton]
    omega
  rw [e.copyStatsJsonTo_stores toVec output hcapacity, htake, hlength, read_apply_stores]

theorem parsedText_of_terminated (text rest : List UInt8) :
    parsedText (text ++ [0] ++ rest) (text.length + 1) = some text := by
  have hfits : ¬ (text.length + 1 = 0 ∨ (text ++ [0] ++ rest).length < text.length + 1) := by
    simp
  rw [parsedText, if_neg hfits]
  simp

example : parsedText [123, 125, 0, 0, 0] 3 = some [123, 125] := by decide
example : parsedText [123, 125] 2 = none := by decide

theorem fetchStats_eq (query copy : Engine F A) :
    fetchStats toVec (some query) (some copy) memory data =
      let required := (query.statsText toVec).length + 1
      let copied := apply (apply memory (stores data (List.replicate required 0)))
        (stores data ((copy.statsText toVec).take (required - 1) ++ [0]))
      (copied,
        if required < (copy.statsText toVec).length + 1 then none
        else
          some
            { buffer := read copied data required
              actual := (copy.statsText toVec).length + 1 }) := by
  have hsize : (outputCopyStatsJson toVec (some query) none 0).required =
      (query.statsText toVec).length + 1 := rfl
  have hcopy {output : Option ℕ} {capacity : ℕ} :
      (outputCopyStatsJson toVec (some copy) output capacity).required =
        (copy.statsText toVec).length + 1 := by
    cases output with
    | none => rfl
    | some output =>
      simp only [outputCopyStatsJson, Engine.copyStatsJsonTo]
      split_ifs <;> rfl
  have hstores : (outputCopyStatsJson toVec (some copy) (some data)
      ((query.statsText toVec).length + 1)).stores = _ :=
    copy.copyStatsJsonTo_stores toVec data (Nat.succ_ne_zero _)
  simp only [fetchStats, hsize, hcopy, hstores, Nat.succ_ne_zero, if_false, false_or]

theorem read_copied (m : ℕ → UInt8) (text : List UInt8) (rest : ℕ) :
    read (apply m (stores data (text ++ [0]))) data (text.length + 1 + rest) =
      text ++ [0] ++
        read (apply m (stores data (text ++ [0]))) (data + (text.length + 1)) rest := by
  have hlength : text.length + 1 = (text ++ [0]).length := by simp
  rw [read_add, hlength, read_apply_stores]

theorem fetchStats_of_fits {query copy : Engine F A}
    (hfits : (copy.statsText toVec).length ≤ (query.statsText toVec).length) :
    ∃ rest, (fetchStats toVec (some query) (some copy) memory data).2 =
      some
        { buffer := copy.statsText toVec ++ [0] ++ rest
          actual := (copy.statsText toVec).length + 1 } := by
  obtain ⟨extra, hextra⟩ := Nat.exists_eq_add_of_le hfits
  have htake : (copy.statsText toVec).take (query.statsText toVec).length = copy.statsText toVec :=
    List.take_of_length_le hfits
  have hroom : (query.statsText toVec).length + 1 = (copy.statsText toVec).length + 1 + extra := by
    omega
  rw [fetchStats_eq]
  simp only [Nat.add_sub_cancel, htake]
  rw [if_neg (by omega), hroom, read_copied]
  exact ⟨_, rfl⟩

theorem fetchStats_of_outgrown {query copy : Engine F A}
    (hgrown : (query.statsText toVec).length < (copy.statsText toVec).length) :
    (fetchStats toVec (some query) (some copy) memory data).2 = none := by
  rw [fetchStats_eq]
  exact if_pos (Nat.succ_lt_succ hgrown)

theorem handedOver_of_fits {query copy : Engine F A}
    (hfits : (copy.statsText toVec).length ≤ (query.statsText toVec).length) :
    handedOver toVec (some query) (some copy) memory data = some (copy.statsText toVec) := by
  rw [handedOver]
  obtain ⟨rest, hrest⟩ := fetchStats_of_fits hfits
  rw [hrest]
  exact parsedText_of_terminated _ rest

theorem handedOver_of_outgrown {query copy : Engine F A}
    (hgrown : (query.statsText toVec).length < (copy.statsText toVec).length) :
    handedOver toVec (some query) (some copy) memory data = none := by
  rw [handedOver, fetchStats_of_outgrown hgrown]
  rfl

theorem fetchStats_bind {α : Type} (query copy : Engine F A) {use : StatsBuffer → Option α}
    {useText : List UInt8 → Option α}
    (huse : ∀ text rest,
      use { buffer := text ++ [0] ++ rest, actual := text.length + 1 } = useText text) :
    (fetchStats toVec (some query) (some copy) memory data).2.bind use =
      (handedOver toVec (some query) (some copy) memory data).bind useText := by
  rcases Nat.lt_or_ge (query.statsText toVec).length (copy.statsText toVec).length with
    hgrown | hfits
  · rw [fetchStats_of_outgrown hgrown, handedOver_of_outgrown hgrown]
    rfl
  · obtain ⟨rest, hrest⟩ := fetchStats_of_fits hfits
    rw [hrest, handedOver_of_fits hfits]
    exact huse _ rest

/-- The dock hands the parser the text of the second call, or nothing where that has outgrown the
buffer. The engine stays within the capacity that it is given, and terminates what it writes. -/
theorem stats_handed_over (q : QJson D) (toVec : EngineSnapshot → Option (List UInt8))
    (controlSettings : List UInt8) (query copy : Engine F A) (memory : ℕ → UInt8) (data : ℕ) :
    let first := query.statsText toVec
    let second := copy.statsText toVec
    let handed := handedOver toVec (some query) (some copy) memory data
    (∀ text ∈ handed, text = second) ∧
      (handed = none ↔ first.length + 1 < second.length + 1) ∧
      refreshStatus q toVec (some query) (some copy) memory data =
        handed.bind (fun text => q.object (q.fromJson text)) ∧
      websocketStatus q toVec controlSettings (some query) (some copy) memory data =
        handed.bind (fun text =>
          (q.object (q.fromJson text)).map fun _ => withControls controlSettings text) ∧
      ∀ output capacity,
        let call := copy.copyStatsJsonTo toVec (some output) capacity
        (∀ s ∈ call.stores, output ≤ s.1 ∧ s.1 < output + capacity) ∧
          (capacity ≠ 0 →
            let count := min second.length (capacity - 1)
            read (apply memory call.stores) output (count + 1) = second.take count ++ [0]) := by
  intro first second handed
  have hparsed (text rest : List UInt8) :
      parseStatsJson q (text ++ [0] ++ rest) (text.length + 1) = q.fromJson text := by
    rw [parseStatsJson, parsedText_of_terminated]
    rfl
  refine ⟨?_, ?_, ?_, ?_, ?_⟩
  · intro text htext
    rcases Nat.lt_or_ge first.length second.length with hgrown | hfits
    · have hnone : handed = none := handedOver_of_outgrown hgrown
      rw [hnone] at htext
      cases htext
    · have hsome : handed = some second := handedOver_of_fits hfits
      rw [hsome] at htext
      exact (Option.some.inj htext).symm
  · rcases Nat.lt_or_ge first.length second.length with hgrown | hfits
    · have hnone : handed = none := handedOver_of_outgrown hgrown
      exact iff_of_true hnone (Nat.succ_lt_succ hgrown)
    · have hsome : handed = some second := handedOver_of_fits hfits
      refine iff_of_false ?_ (by omega)
      rw [hsome]
      exact Option.some_ne_none second
  · apply fetchStats_bind
    intro text rest
    rw [hparsed]
  · apply fetchStats_bind
    intro text rest
    rw [hparsed, Nat.add_sub_cancel, List.append_assoc, List.take_left]
  · intro output capacity
    constructor
    · exact fun s hs => copy.copyStatsJsonTo_within hs
    · exact copy.copyStatsJsonTo_terminated toVec output

end

end Srtla
