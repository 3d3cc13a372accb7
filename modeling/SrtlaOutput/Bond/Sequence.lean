import SrtlaOutput.Lib.Established
import Mathlib.Data.UInt
import Mathlib.Logic.Function.Basic

/-! The ring that remembers which uplink carried which packet, and what it knows after any
history of its operations. -/

namespace Srtla.Bond

def seqTrackingSize : ℕ := 16384
def seqTrackingMask : ℕ := seqTrackingSize - 1
def sequenceTrackingMaxAgeMs : ℕ := 5000

/-- A connection id of 0 marks an empty entry. -/
structure SequenceTrackingEntry where
  connId : UInt64 := 0
  timestampMs : ℕ := 0
  wireBytes : ℕ := 0
  deliveryCredited : Bool := false
  seq : UInt32 := 0
  deriving DecidableEq, Repr

def SequenceTrackingEntry.isExpired (e : SequenceTrackingEntry) (nowMs : ℕ) : Bool :=
  decide (sequenceTrackingMaxAgeMs < nowMs - e.timestampMs)

def SequenceTrackingEntry.isValid (e : SequenceTrackingEntry) (seq : UInt32) (nowMs : ℕ) : Bool :=
  decide (e.connId ≠ 0) && decide (e.seq = seq) && !e.isExpired nowMs

theorem SequenceTrackingEntry.isValid_iff {e : SequenceTrackingEntry} {seq : UInt32} {nowMs : ℕ} :
    e.isValid seq nowMs = true ↔
      e.connId ≠ 0 ∧ e.seq = seq ∧ nowMs - e.timestampMs ≤ sequenceTrackingMaxAgeMs := by
  simp only [isValid, isExpired, Bool.and_eq_true, decide_eq_true_eq, Bool.not_eq_true',
    decide_eq_false_iff_not, Nat.not_lt, and_assoc]

structure DeliveryCredit where
  timestampMs : ℕ
  wireBytes : ℕ
  newlyCredited : Bool
  deriving DecidableEq, Repr

structure SequenceTracker where
  entries : Fin seqTrackingSize → SequenceTrackingEntry

namespace SequenceTracker

def new : SequenceTracker := ⟨fun _ => {}⟩

def slot (seq : UInt32) : Fin seqTrackingSize :=
  ⟨seq.toNat &&& seqTrackingMask, Nat.lt_of_le_of_lt Nat.and_le_right (by decide)⟩

def insertWithSize (t : SequenceTracker) (seq : UInt32) (connId : UInt64)
    (timestampMs wireBytes : ℕ) : SequenceTracker :=
  ⟨Function.update t.entries (slot seq)
    { connId, timestampMs, wireBytes := min wireBytes (2 ^ 32 - 1), seq }⟩

def get (t : SequenceTracker) (seq : UInt32) (nowMs : ℕ) : Option UInt64 :=
  let entry := t.entries (slot seq)
  if entry.isValid seq nowMs then some entry.connId else none

def acknowledgeDelivery (t : SequenceTracker) (seq : UInt32) (arrivalConnId : UInt64)
    (nowMs : ℕ) : SequenceTracker × Option DeliveryCredit :=
  let entry := t.entries (slot seq)
  if !entry.isValid seq nowMs || decide (entry.connId ≠ arrivalConnId) ||
      decide (entry.wireBytes = 0) then (t, none)
  else
    (⟨Function.update t.entries (slot seq) { entry with deliveryCredited := true }⟩,
      some {
        timestampMs := entry.timestampMs
        wireBytes := entry.wireBytes
        newlyCredited := !entry.deliveryCredited })

def removeConnection (t : SequenceTracker) (connId : UInt64) : SequenceTracker :=
  ⟨fun i => if (t.entries i).connId = connId then {} else t.entries i⟩

inductive Call
  | insert (seq : UInt32) (connId : UInt64) (timestampMs wireBytes : ℕ)
  | acknowledge (seq : UInt32) (arrivalConnId : UInt64) (nowMs : ℕ)
  | remove (connId : UInt64)

def call (t : SequenceTracker) : Call → SequenceTracker
  | .insert seq connId timestampMs wireBytes => t.insertWithSize seq connId timestampMs wireBytes
  | .acknowledge seq arrivalConnId nowMs => (t.acknowledgeDelivery seq arrivalConnId nowMs).1
  | .remove connId => t.removeConnection connId

def Owns (seq : UInt32) (connId : UInt64) (timestampMs : ℕ) (t : SequenceTracker) : Prop :=
  (t.entries (slot seq)).connId = connId ∧ (t.entries (slot seq)).seq = seq ∧
    (t.entries (slot seq)).timestampMs = timestampMs

/-- A call after which a packet of the slot has another owner, or none. -/
def Call.Displaces (seq : UInt32) (connId : UInt64) : Call → Prop
  | .insert seq' _ _ _ => slot seq' = slot seq
  | .acknowledge _ _ _ => False
  | .remove connId' => connId' = connId

/-! What a call does to the entry of one slot. -/

theorem insertWithSize_self (t : SequenceTracker) (seq : UInt32) (connId : UInt64)
    (timestampMs wireBytes : ℕ) :
    (t.insertWithSize seq connId timestampMs wireBytes).entries (slot seq) =
      { connId, timestampMs, wireBytes := min wireBytes (2 ^ 32 - 1), seq } :=
  Function.update_self _ _ _

theorem insertWithSize_of_slot {seq seq' : UInt32} (h : slot seq' ≠ slot seq)
    (t : SequenceTracker) (connId : UInt64) (timestampMs wireBytes : ℕ) :
    (t.insertWithSize seq' connId timestampMs wireBytes).entries (slot seq) =
      t.entries (slot seq) :=
  Function.update_of_ne h.symm _ _

theorem acknowledgeDelivery_entries (t : SequenceTracker) (seq : UInt32) (arrivalConnId : UInt64)
    (nowMs : ℕ) (i : Fin seqTrackingSize) :
    (t.acknowledgeDelivery seq arrivalConnId nowMs).1.entries i = t.entries i ∨
      (t.acknowledgeDelivery seq arrivalConnId nowMs).1.entries i =
        { t.entries i with deliveryCredited := true } := by
  rw [acknowledgeDelivery]
  split
  · exact .inl rfl
  · rcases eq_or_ne i (slot seq) with rfl | hne
    · exact .inr (Function.update_self _ _ _)
    · exact .inl (Function.update_of_ne hne _ _)

theorem acknowledgeDelivery_owns {t : SequenceTracker} {seq seq' : UInt32}
    {connId arrivalConnId : UInt64} {timestampMs nowMs : ℕ} :
    (t.acknowledgeDelivery seq' arrivalConnId nowMs).1.Owns seq connId timestampMs ↔
      t.Owns seq connId timestampMs := by
  rcases acknowledgeDelivery_entries t seq' arrivalConnId nowMs (slot seq) with h | h <;>
    rw [Owns, Owns, h]

theorem removeConnection_of_eq {t : SequenceTracker} {connId : UInt64} {i : Fin seqTrackingSize}
    (h : (t.entries i).connId = connId) : (t.removeConnection connId).entries i = {} :=
  if_pos h

theorem removeConnection_of_ne {t : SequenceTracker} {connId : UInt64} {i : Fin seqTrackingSize}
    (h : (t.entries i).connId ≠ connId) : (t.removeConnection connId).entries i = t.entries i :=
  if_neg h

theorem owns_established {seq : UInt32} {connId : UInt64} (hid : connId ≠ 0) (timestampMs : ℕ) :
    Established.By call (Owns seq connId timestampMs)
      (fun a => ∃ wireBytes, a = .insert seq connId timestampMs wireBytes)
      (fun a => a.Displaces seq connId ∧ ∀ wireBytes, a ≠ .insert seq connId timestampMs wireBytes)
    where
  set := by
    rintro t a ⟨wireBytes, rfl⟩
    rw [call, Owns, insertWithSize_self]
    exact ⟨rfl, rfl, rfl⟩
  ended := by
    rintro t a ⟨hdisplaces, hother⟩ ⟨howner, hseq, htime⟩
    cases a with
    | insert seq' connId' timestampMs' wireBytes =>
      have hslot : slot seq = slot seq' := hdisplaces.symm
      rw [call, hslot, insertWithSize_self] at howner hseq htime
      exact hother wireBytes (by rw [← howner, ← hseq, ← htime])
    | acknowledge => exact hdisplaces
    | remove connId' =>
      obtain rfl : connId' = connId := hdisplaces
      rcases eq_or_ne (t.entries (slot seq)).connId connId' with hentry | hentry
      · rw [call, removeConnection_of_eq hentry] at howner
        exact hid howner.symm
      · rw [call, removeConnection_of_ne hentry] at howner
        exact hentry howner
  kept := by
    intro t a hset hend
    have hslot : ¬ a.Displaces seq connId := fun h =>
      hend ⟨h, fun wireBytes heq => hset ⟨wireBytes, heq⟩⟩
    cases a with
    | insert seq' connId' timestampMs' wireBytes =>
      rw [call, Owns, Owns, insertWithSize_of_slot hslot]
    | acknowledge => exact acknowledgeDelivery_owns
    | remove connId' =>
      rcases eq_or_ne (t.entries (slot seq)).connId connId' with hentry | hentry
      · rw [call, Owns, Owns, removeConnection_of_eq hentry]
        exact iff_of_false (fun h => hid h.1.symm) fun h => hslot (hentry.symm.trans h.1)
      · rw [call, Owns, Owns, removeConnection_of_ne hentry]

theorem get_eq_some_iff {t : SequenceTracker} {seq : UInt32} {connId : UInt64} {nowMs : ℕ} :
    t.get seq nowMs = some connId ↔
      connId ≠ 0 ∧ ∃ timestampMs, nowMs - timestampMs ≤ sequenceTrackingMaxAgeMs ∧
        t.Owns seq connId timestampMs := by
  rw [get]
  constructor
  · intro h
    split at h
    next hvalid =>
      obtain ⟨hid, hseq, hage⟩ := SequenceTrackingEntry.isValid_iff.mp hvalid
      obtain rfl := Option.some.inj h
      exact ⟨hid, _, hage, rfl, hseq, rfl⟩
    next => exact absurd h.symm (Option.some_ne_none connId)
  · rintro ⟨hid, _, hage, rfl, hseq, rfl⟩
    exact if_pos (SequenceTrackingEntry.isValid_iff.mpr ⟨hid, hseq, hage⟩)

/-- After any history, a packet has an owner exactly when its last insertion is recent, nothing
has been inserted into its slot since, and its uplink has not been removed since. -/
theorem get_iff_inserted (calls : List Call) (seq : UInt32) (connId : UInt64) (nowMs : ℕ) :
    (calls.foldl call new).get seq nowMs = some connId ↔
      connId ≠ 0 ∧ ∃ before timestampMs wireBytes after,
        calls = before ++ .insert seq connId timestampMs wireBytes :: after ∧
        nowMs - timestampMs ≤ sequenceTrackingMaxAgeMs ∧
        ∀ c ∈ after, ¬ Call.Displaces seq connId c := by
  rw [get_eq_some_iff, and_congr_right_iff]
  intro hid
  have hempty : ∀ timestampMs, ¬ new.Owns seq connId timestampMs := fun _ h => hid h.1.symm
  constructor
  · rintro ⟨timestampMs, hage, howns⟩
    obtain ⟨before, a, after, hcalls, ⟨wireBytes, rfl⟩, hafter⟩ :=
      ((owns_established hid timestampMs).foldl_iff (hempty timestampMs) calls).mp howns
    refine ⟨before, timestampMs, wireBytes, after, hcalls, hage, fun c hc hdisplaces => ?_⟩
    obtain ⟨hset, hend⟩ := hafter c hc
    exact hend ⟨hdisplaces, fun wireBytes' heq => hset ⟨wireBytes', heq⟩⟩
  · rintro ⟨before, timestampMs, wireBytes, after, hcalls, hage, hafter⟩
    refine ⟨timestampMs, hage, ((owns_established hid timestampMs).foldl_iff
      (hempty timestampMs) calls).mpr ⟨before, _, after, hcalls, ⟨wireBytes, rfl⟩, ?_⟩⟩
    refine fun c hc => ⟨?_, fun h => hafter c hc h.1⟩
    rintro ⟨wireBytes', rfl⟩
    exact hafter _ hc rfl

end SequenceTracker

end Srtla.Bond
