import SrtlaOutput.Engine.Ipv4
import SrtlaOutput.Engine.Range
import SrtlaOutput.Lib.Checked

/-! The capacity of a snapshot against the links it publishes. The sum counts an enabled link
that is eligible and ready, the link record is published as eligible only while the link
is connected. -/

namespace Srtla
open Abr
variable {F A : Type}

def counted (l : EngineLinkConfig) : Bool := l.enabled && l.payloadEligible && l.capacityReady

/-- The words that `Engine::snapshot` and `decide` add up. -/
def capacityTargets (links : List LinkCapacity) : List UInt64 :=
  (links.filter fun link => link.enabled && link.payloadEligible && link.capacityReady).map
    (·.targetBps)

theorem capacityTargets_links (links : List EngineLinkConfig) :
    capacityTargets (links.map linkCapacityOf) = (links.filter counted).map (·.targetBps) := by
  rw [capacityTargets, List.filter_map, List.map_map]
  rfl

def EngineSnapshot.targets (s : EngineSnapshot) : List UInt64 :=
  (s.links.filter fun l => l.payloadEligible && l.capacityReady).map (·.targetBps)

namespace Engine

theorem snapshot_targets (e : Engine F A) :
    e.snapshot.targets =
      (e.config.links.filter fun l => counted l && l.connected).map (·.targetBps) := by
  have hpublished : ∀ l : EngineLinkConfig,
      ((linkSnapshot l).payloadEligible && (linkSnapshot l).capacityReady) =
        (counted l && l.connected) := by
    intro l
    simp only [linkSnapshot, counted, Bool.and_assoc, Bool.and_comm l.capacityReady]
  rw [EngineSnapshot.targets, snapshot, List.filter_map, List.map_map]
  simp only [Function.comp_def, hpublished]
  rfl

/-- The capacity of the snapshot is the sum of what it publishes, and neither sum over the
links leaves the range. -/
structure CapacityAgrees (e : Engine F A) : Prop where
  published : e.snapshot.linkCapacityBps.toNat = Checked.total e.snapshot.targets
  snapshot : (Checked.sum (capacityTargets (e.config.links.map linkCapacityOf))).isSome = true
  decide : ∀ nowMs, (Checked.sum (capacityTargets (e.abrSample nowMs).links)).isSome = true

theorem abrSample_targets (e : Engine F A) (nowMs : Nat) :
    capacityTargets (e.abrSample nowMs).links = (e.config.links.filter counted).map (·.targetBps) :=
  capacityTargets_links e.config.links

structure CapacityCounted (links : List EngineLinkConfig) : Prop where
  connected : ∀ l ∈ links, counted l = true → l.connected = false → l.targetBps = 0
  fits : Checked.total ((links.filter counted).map (·.targetBps)) < 2 ^ 64

theorem capacity_agrees_iff (e : Engine F A) :
    e.CapacityAgrees ↔ CapacityCounted e.config.links := by
  have hsame : Checked.total ((e.config.links.filter counted).map (·.targetBps)) =
      Checked.total e.snapshot.targets ↔
        ∀ l ∈ e.config.links, counted l = true → l.connected = false → l.targetBps = 0 := by
    rw [snapshot_targets, Checked.total_filter_eq_iff fun l hl => (Bool.and_eq_true_iff.mp hl).1]
    refine forall₂_congr fun l _ => forall_congr' fun hcounted => ?_
    rw [hcounted, Bool.true_and]
  have hcapacity : e.snapshot.linkCapacityBps =
      ((e.config.links.filter counted).map (·.targetBps)).sum :=
    congrArg List.sum (capacityTargets_links e.config.links)
  have hsnapshot : (Checked.sum (capacityTargets (e.config.links.map linkCapacityOf))).isSome = true ↔
      Checked.total ((e.config.links.filter counted).map (·.targetBps)) < 2 ^ 64 := by
    rw [Checked.sum_isSome_iff, capacityTargets_links]
  constructor
  · intro h
    have hfits := hsnapshot.mp h.snapshot
    refine ⟨hsame.mp ?_, hfits⟩
    rw [← h.published, hcapacity, Checked.toNat_sum_of_lt hfits]
  · intro h
    refine ⟨?_, hsnapshot.mpr h.fits, fun nowMs => ?_⟩
    · rw [hcapacity, Checked.toNat_sum_of_lt h.fits]
      exact hsame.mpr h.connected
    · rw [abrSample_targets, Checked.sum_isSome_iff]
      exact h.fits

def reportedTwice (update : UInt64 → LinkStatsUpdate) : Engine ℚ Ipv4 :=
  reached { links := [{ id := 1, label := "wan" }, { id := 2, label := "lte" }] }
    [.updateLinkStats (.array [update 1, update 2])]

def unconnectedLinks : Engine ℚ Ipv4 :=
  reportedTwice fun id =>
    { id, payloadEligible := true, capacityReady := true, targetBps := 4000000 }

def fastLinks : Engine ℚ Ipv4 :=
  reportedTwice fun id =>
    { id, connected := true, payloadEligible := true, capacityReady := true
      targetBps := 9223372036854775808 }

/-- The first capacity counts two links that are published as not eligible, and the second
has wrapped. -/
theorem capacity_disagrees :
    unconnectedLinks.snapshot.linkCapacityBps = 8000000 ∧
      unconnectedLinks.snapshot.targets = [] ∧ fastLinks.snapshot.linkCapacityBps = 0 ∧
      fastLinks.snapshot.targets = [9223372036854775808, 9223372036854775808] := by
  decide

end Engine

end Srtla
