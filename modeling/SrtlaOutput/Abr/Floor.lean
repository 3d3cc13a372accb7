import Mathlib.Data.List.Chain
import SrtlaOutput.Abr.Runs

/-! Under sustained congestion the target reaches the minimum. Decreases are held off
and a raise may come in between, so the target is not monotone. Between two decreases
there is room for one raise only, and a decrease takes away a tenth where a raise adds
a thirtieth: every window of 500 ms costs 70000 bits per second. -/

namespace Srtla.Abr.AbrController
variable {F : Type} [F64 F]

def run (c : AbrController F) (samples : List AbrSample) : AbrController F :=
  samples.foldl (fun c sample => (c.decide sample).1) c

/-- Every sample is fresh where it arrives, with a round trip over a fifth of the latency. -/
def Sustained : AbrController F → List AbrSample → Prop
  | _, [] => True
  | c, sample :: samples =>
    c.Fresh sample ∧ sample.srt.latencyMs / 5 < sample.srt.rttMs ∧
      Sustained (c.decide sample).1 samples

instance decidableSustained :
    ∀ (c : AbrController F) (samples : List AbrSample), Decidable (c.Sustained samples)
  | _, [] => inferInstanceAs (Decidable True)
  | c, sample :: samples =>
    have := decidableSustained (c.decide sample).1 samples
    inferInstanceAs (Decidable (_ ∧ _ ∧ _))

def Spaced (samples : List AbrSample) : Prop :=
  samples.IsChain fun sample next =>
    sample.nowMs + 1 ≤ next.nowMs ∧ next.nowMs ≤ sample.nowMs + 250

/-- 500 ms for every 70000 bits per second above the minimum, and 500 ms more. -/
def floorTimeMs (range : Nat) : Nat := 500 * (range / 70000 + 1)

/-- The window since the last decrease, at `startMs`: the target is at most `top`, or one
raise took it above `top` and the next raise is not due before the window ends. -/
structure Window (startMs top : Nat) (c : AbrController F) : Prop where
  inRange : c.InRange
  min_le : c.config.minBps ≤ top
  top_le : top ≤ u64Max
  decrease_due : c.nextDecreaseMs ≤ startMs + 250
  target : c.internalBitrateBps ≤ top ∨
    c.internalBitrateBps ≤ increase top ∧ saturatingAdd startMs 500 ≤ c.nextIncreaseMs

theorem lt_of_saturatingAdd_lt {a b n : Nat} (h : saturatingAdd a b < n) (hn : n ≤ u64Max) :
    a + b < n :=
  (min_lt_iff.mp h).elim id fun hlt => absurd hn (Nat.not_le.mpr hlt)

theorem saturatingAdd_mono_left {a b : Nat} (h : a ≤ b) (n : Nat) :
    saturatingAdd a n ≤ saturatingAdd b n :=
  min_le_min_right u64Max (Nat.add_le_add_right h n)

theorem le_increase {bps : Nat} (h : bps ≤ u64Max) : bps ≤ increase bps := by
  unfold increase saturatingAdd bitrateIncreaseScale
  omega

theorem increase_mono {a b : Nat} (h : a ≤ b) : increase a ≤ increase b := by
  unfold increase saturatingAdd bitrateIncreaseScale
  omega

theorem heavyDecrease_increase {bps top : Nat} (h : bps ≤ increase top) :
    heavyDecrease bps ≤ top - 70000 := by
  have hmax : 100000 ≤ u64Max := by decide
  unfold increase saturatingAdd bitrateIncreaseMinBps bitrateIncreaseScale at h
  unfold heavyDecrease saturatingAdd bitrateDecreaseMinBps bitrateDecreaseScale
  omega

theorem clamp_le_max (x lo hi : Nat) : clamp x lo hi ≤ max x lo := by
  unfold clamp
  split_ifs <;> omega

omit [F64 F] in
theorem Window.le_increase {startMs top : Nat} {c : AbrController F} (h : c.Window startMs top) :
    c.internalBitrateBps ≤ increase top :=
  h.target.elim (fun hle => hle.trans (AbrController.le_increase h.top_le)) And.left

/-- One sample of sustained congestion: the minimum is reached, or a new window starts
70000 bits per second lower, or the decreases are still held off. -/
theorem Window.step {startMs top : Nat} {c : AbrController F} (h : c.Window startMs top)
    {sample : AbrSample} (hfresh : c.Fresh sample)
    (hrtt : sample.srt.latencyMs / 5 < sample.srt.rttMs) (hstart : startMs ≤ sample.nowMs)
    (htyped : sample.nowMs ≤ u64Max) :
    (c.decide sample).1.internalBitrateBps = c.config.minBps ∨
      ((c.decide sample).1.Window sample.nowMs (top - 70000) ∧
        c.config.minBps < top - 70000) ∨
      (c.decide sample).1.Window startMs top ∧ sample.nowMs ≤ startMs + 250 := by
  have hrange := decideOn_inRange .u64 h.inRange sample
  have hconfig := decideOn_config .u64 c sample
  have hbranch := controlOn_branch .u64 (c.learn sample.srt) sample
  have hlearned := controlOn_config .u64 (c.learn sample.srt) sample
  have hheavy : (c.learn sample.srt).Heavy sample.srt := .inl hrtt
  rw [decide_eq_decideOn]
  rw [decideOn_of_fresh hfresh] at hrange hconfig ⊢
  generalize (c.learn sample.srt).controlOn .u64 sample = c' at *
  cases hbranch with
  | severe hmin hsevere =>
    exact .inl (clamp_of_mem (le_refl _) h.inRange.min_le_max)
  | heavy hsevere hdue _ =>
    rcases Nat.eq_or_lt_of_le hrange.min_le with heq | hlt
    · exact .inl (heq.symm.trans (congrArg AbrConfig.minBps hconfig))
    · -- the clamp did not act, so the whole decrease counts
      have hclamp : clamp (heavyDecrease c.internalBitrateBps) c.config.minBps c.config.maxBps ≤
          max (heavyDecrease c.internalBitrateBps) c.config.minBps := clamp_le_max _ _ _
      have hdecrease := heavyDecrease_increase h.le_increase
      change c.config.minBps < clamp (heavyDecrease c.internalBitrateBps) c.config.minBps
        c.config.maxBps at hlt
      have hroom : c.config.minBps < top - 70000 := by omega
      refine .inr (.inl ⟨⟨hrange, hroom.le, ?_, ?_, .inl ?_⟩, hroom⟩)
      · exact (Nat.sub_le _ _).trans h.top_le
      · exact Nat.min_le_left _ _
      · change clamp (heavyDecrease c.internalBitrateBps) c.config.minBps c.config.maxBps ≤
          top - 70000
        omega
  | light hsevere hdue hnot hlight => exact absurd hheavy hnot
  | increasing hsevere hdown hdue hmay =>
    -- a raise while the decreases are held off, the first of its window
    have hheld : sample.nowMs ≤ c.nextDecreaseMs :=
      Nat.not_lt.mp fun hlt => hdown ⟨hlt, .inl hheavy⟩
    have hend : sample.nowMs ≤ startMs + 250 := hheld.trans h.decrease_due
    change c.nextIncreaseMs < sample.nowMs at hdue
    have htop : c.internalBitrateBps ≤ top := by
      rcases h.target with hle | ⟨_, hnext⟩
      · exact hle
      · have hlast := lt_of_saturatingAdd_lt (hnext.trans_lt hdue) htyped
        omega
    refine .inr (.inr ⟨⟨hrange, h.min_le, h.top_le, h.decrease_due, .inr ⟨?_, ?_⟩⟩, hend⟩)
    · have hclamp := clamp_le_max (increase c.internalBitrateBps) c.config.minBps c.config.maxBps
      apply hclamp.trans
      exact max_le (increase_mono htop) (h.min_le.trans (AbrController.le_increase h.top_le))
    · exact saturatingAdd_mono_left hstart 500
  | hold hsevere hdown hup =>
    have hheld : sample.nowMs ≤ c.nextDecreaseMs :=
      Nat.not_lt.mp fun hlt => hdown ⟨hlt, .inl hheavy⟩
    have hsame : clamp c.internalBitrateBps c.config.minBps c.config.maxBps =
        c.internalBitrateBps := clamp_of_mem h.inRange.min_le h.inRange.le_max
    refine .inr (.inr ⟨⟨hrange, h.min_le, h.top_le, h.decrease_due, ?_⟩,
      hheld.trans h.decrease_due⟩)
    change clamp c.internalBitrateBps c.config.minBps c.config.maxBps ≤ top ∨
      clamp c.internalBitrateBps c.config.minBps c.config.maxBps ≤ increase top ∧
        saturatingAdd startMs 500 ≤ c.nextIncreaseMs
    rw [hsame]
    exact h.target

theorem Window.reaches {samples : List AbrSample} {startMs top nowMs k : Nat}
    {c : AbrController F} (h : c.Window startMs top) (htop : top < c.config.minBps + 70000 * k)
    (hk : 0 < k) (hstart : startMs ≤ nowMs) (hend : nowMs ≤ startMs + 250)
    (hspaced : (nowMs :: samples.map (·.nowMs)).IsChain fun a b => a ≤ b ∧ b ≤ a + 250)
    (hsustained : c.Sustained samples) (htyped : ∀ sample ∈ samples, sample.nowMs ≤ u64Max)
    (hlong : ∀ last ∈ (nowMs :: samples.map (·.nowMs)).getLast?, startMs + 500 * k ≤ last) :
    ∃ before sample after, samples = before ++ sample :: after ∧
      sample.nowMs ≤ startMs + 500 * k ∧
      (c.run (before ++ [sample])).internalBitrateBps = c.config.minBps := by
  induction samples generalizing c startMs top nowMs k with
  | nil =>
    have hlast := hlong nowMs (by simp)
    omega
  | cons sample samples ih =>
    obtain ⟨⟨hle, hgap⟩, hspaced⟩ := List.isChain_cons_cons.mp hspaced
    obtain ⟨hfresh, hrtt, hsustained⟩ := hsustained
    have hlater : startMs ≤ sample.nowMs := hstart.trans hle
    have hsoon : sample.nowMs ≤ startMs + 500 := hgap.trans (by omega)
    have htyped' : ∀ sample ∈ samples, sample.nowMs ≤ u64Max :=
      fun s hs => htyped s (List.mem_cons_of_mem _ hs)
    have hconfig : (c.decide sample).1.config = c.config := decide_config c sample
    rcases h.step hfresh hrtt hlater (htyped sample List.mem_cons_self) with
      hmin | ⟨hnext, hroom⟩ | ⟨hsame, hheld⟩
    · exact ⟨[], sample, samples, rfl, hsoon.trans (by omega), hmin⟩
    · -- one window less to go, which starts at this sample
      obtain ⟨k, rfl⟩ : ∃ j, k = j + 1 := ⟨k - 1, by omega⟩
      have hlong' : ∀ last ∈ (sample.nowMs :: samples.map (·.nowMs)).getLast?,
          sample.nowMs + 500 * k ≤ last := by
        intro last hlast
        have hall := hlong last (by simpa using hlast)
        omega
      obtain ⟨before, s, after, hsplit, hs, hreach⟩ :=
        ih hnext (by rw [hconfig]; omega) (by omega) (le_refl _) (Nat.le_add_right _ _) hspaced
          hsustained htyped' hlong'
      rw [hconfig] at hreach
      exact ⟨sample :: before, s, after, by rw [hsplit]; rfl, by omega, hreach⟩
    · obtain ⟨before, s, after, hsplit, hs, hreach⟩ :=
        ih hsame (by rwa [hconfig]) hk hlater hheld hspaced hsustained htyped'
          (fun last hlast => hlong last (by simpa using hlast))
      rw [hconfig] at hreach
      exact ⟨sample :: before, s, after, by rw [hsplit]; rfl, hs, hreach⟩

/-- Under sustained congestion the target meets the minimum, in a time that depends on
the distance between the limits alone. -/
theorem congestion_reaches_floor {t : Nat} {c : AbrController F} (hc : Reached .forward t c)
    {first : AbrSample} {rest : List AbrSample} (hstart : t ≤ first.nowMs)
    (hspaced : Spaced (first :: rest)) (hsustained : c.Sustained (first :: rest))
    (htyped : ∀ sample ∈ first :: rest, sample.nowMs ≤ u64Max)
    (hlong : ∀ last ∈ (first :: rest).getLast?,
      first.nowMs + floorTimeMs (c.config.maxBps - c.config.minBps) ≤ last.nowMs) :
    ∃ before sample after, first :: rest = before ++ sample :: after ∧
      sample.nowMs ≤ first.nowMs + floorTimeMs (c.config.maxBps - c.config.minBps) ∧
      (c.run (before ++ [sample])).internalBitrateBps = c.config.minBps := by
  have hrange := hc.inRange
  have hdeadlines := hc.deadlines_le (fun _ _ => Nat.min_le_left _ _) fun _ _ h => h
  have hwindow : c.Window first.nowMs c.config.maxBps :=
    ⟨hrange, hrange.min_le_max, hc.max_le_u64, by omega, .inl hrange.le_max⟩
  have hclocks : (first.nowMs :: (first :: rest).map (·.nowMs)).IsChain
      fun a b => a ≤ b ∧ b ≤ a + 250 := by
    have hsamples : ((first :: rest).map (·.nowMs)).IsChain fun a b => a ≤ b ∧ b ≤ a + 250 :=
      List.isChain_map_of_isChain _ (fun _ _ h => ⟨Nat.le_of_succ_le h.1, h.2⟩) hspaced
    exact .cons_cons ⟨le_refl _, Nat.le_add_right _ _⟩ hsamples
  apply hwindow.reaches (k := (c.config.maxBps - c.config.minBps) / 70000 + 1) (by omega)
    (Nat.succ_pos _) (le_refl _) (Nat.le_add_right _ _) hclocks hsustained htyped
  intro last hlast
  rw [List.map_cons, List.getLast?_cons_cons] at hlast
  change last ∈ ((first :: rest).map (·.nowMs)).getLast? at hlast
  rw [List.getLast?_map] at hlast
  obtain ⟨sample, hsample, rfl⟩ := Option.map_eq_some_iff.mp hlast
  exact hlong sample hsample

def narrowConfig : AbrConfig where
  minBps := 500000
  startBps := 600000
  maxBps := 600000

def slowSample (atMs : Nat) : AbrSample where
  links := []
  audioBps := 128000
  currentVideoBps := 600000
  nowMs := atMs
  capacityReady := true
  allLinksDown := false
  srt :=
    { ready := true
      sampledAtMs := atMs
      bandwidthBps := 0
      sendRateBps := 600000
      sendBufferMs := 10
      sendBufferPackets := 10
      rttMs := 450
      latencyMs := 2000
      retransmitPermille := 0
      droppedBytes := 0 }

theorem congestion_reaches_floor_narrow :
    ∃ before sample after,
      [1000, 1250, 1500, 1750, 2000].map slowSample = before ++ sample :: after ∧
        sample.nowMs ≤ 2000 ∧
        ((new narrowConfig : AbrController ℚ).run (before ++ [sample])).internalBitrateBps =
          500000 := by
  have hc : Reached .forward 0 (new narrowConfig : AbrController ℚ) :=
    .new narrowConfig (by decide) 0
  have hspaced : Spaced (slowSample 1000 :: [1250, 1500, 1750, 2000].map slowSample) := by
    simp [Spaced, slowSample]
  obtain ⟨before, sample, after, hsplit, htime, hreach⟩ :=
    congestion_reaches_floor hc (Nat.zero_le _) hspaced (by decide +kernel) (by decide +kernel)
      (by decide +kernel)
  exact ⟨before, sample, after, hsplit, htime.trans (by decide +kernel), hreach⟩

end Srtla.Abr.AbrController
