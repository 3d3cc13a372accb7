import SrtlaOutput.Bond.Refinement
import SrtlaOutput.Engine.Ipv4

/-! The bounds that every link keeps in every run, whatever comes in on the uplinks. -/

namespace Srtla.Bond
open Uplink Wire
variable {F A : Type}

structure Bounded (l : Link A) : Prop where
  window : windowMin * windowMult ≤ l.window ∧ l.window ≤ windowMax * windowMult
  inFlight : l.inFlight = l.log.entries.length
  probes : l.probeLog.entries.length ≤ probeLogSoftCap
  naks : 0 ≤ l.naks ∧ l.naks ≤ i32Max
  ready : l.connected = true → l.schedulable = true ∧ l.heard = true

theorem length_insert_le (log : PacketLog) (seq : Int32) (time : ℕ) :
    (log.insert seq time).entries.length ≤ log.entries.length + 1 := by
  rw [AList.entries_insert, List.length_cons]
  exact Nat.succ_le_succ (List.kerase_sublist _ _).length_le

theorem length_recordProbe_le (log : PacketLog) (seq : Int32) (nowMs : ℕ) :
    (log.recordProbe seq nowMs).entries.length ≤ probeLogSoftCap := by
  rw [PacketLog.recordProbe]
  refine (length_insert_le _ _ _).trans (Nat.succ_le_of_lt ?_)
  split
  · dsimp only
    split
    · exact Nat.zero_lt_succ _
    next hkept => exact Nat.lt_of_not_le hkept
  next hfull => exact Nat.lt_of_not_le hfull

namespace Bounded
variable {l l' : Link A}

theorem fresh (connId : UInt64) (localIp : A) : Bounded (.fresh connId localIp : Link A) where
  window := (by decide : windowMin * windowMult ≤ windowDef * windowMult ∧
    windowDef * windowMult ≤ windowMax * windowMult)
  inFlight := rfl
  probes := Nat.zero_le _
  naks := ⟨le_rfl, (by decide : (0 : ℤ) ≤ i32Max)⟩
  ready h := absurd h Bool.false_ne_true

theorem setLog (h : Bounded l) (log : PacketLog) : Bounded (l.setLog log) :=
  { h with inFlight := rfl }

theorem flush (h : Bounded l) : Bounded l.flush := by
  have hfold : ∀ (ps : List DrainedPacket) (l : Link A), Bounded l →
      Bounded (ps.foldl Link.register l) := by
    intro ps
    induction ps with
    | nil => exact fun _ hl => hl
    | cons p ps ih =>
      intro l hl
      refine ih _ ?_
      rw [Link.register]
      split
      · exact hl.setLog _
      · exact hl
  exact hfold _ _ { h with }

theorem grow (h : Bounded l) (n : ℕ) : Bounded (l.grow n) := by
  refine { h with window := ⟨le_min ?_ (by decide), min_le_right _ _⟩ }
  exact h.window.1.trans (le_add_of_nonneg_right (Int.natCast_nonneg n))

theorem step (h : Bounded l) (hstep : l.Step l') : Bounded l' := by
  cases hstep with
  | answer seq => exact { h with probes := (List.kerase_sublist _ _).length_le.trans h.probes }
  | refuse => exact { h with ready := fun hfalse => absurd hfalse Bool.false_ne_true }
  | hear => exact { h with ready := fun hc => ⟨(h.ready hc).1, rfl⟩ }
  | acknowledge log => exact h.setLog log
  | lose seq =>
    refine { h.setLog _ with window := ⟨le_max_right _ _, ?_⟩, naks := ⟨?_, min_le_right _ _⟩ }
    · have hdecr : l.window - windowDecr ≤ windowMax * windowMult :=
        (sub_le_self _ (by decide)).trans h.window.2
      exact max_le hdecr (by decide)
    · exact le_min (add_nonneg h.naks.1 zero_le_one) (by decide)
  | grow n => exact h.grow n

theorem reopen (l : Link A) : Bounded l.reopen := { fresh l.connId l.localIp with }

theorem recover (h : Bounded l) : Bounded l.recover := { reopen l with naks := h.naks }

theorem join (h : Bounded l) : Bounded l.join :=
  { reopen l with window := h.window, ready := fun _ => ⟨rfl, rfl⟩ }

theorem admin (h : Bounded l) (enabled : Bool) : Bounded (l.admin enabled) :=
  { h with ready := fun hc => ⟨Bool.or_eq_true_iff.mpr (.inr (h.ready hc).1), (h.ready hc).2⟩ }

theorem offer (h : Bounded l) (p : DrainedPacket) : Bounded (l.offer p) := { h with }

theorem probe (h : Bounded l) (seq : UInt32) (data : List UInt8) (now : ℕ) :
    Bounded (l.probe seq data now) :=
  { h with probes := length_recordProbe_le _ _ _ }

theorem paid (h : Bounded l) (delivery : Option DeliveryCredit) :
    Bounded (Ledger.paid l delivery) := by
  rw [Ledger.paid]
  split
  · exact { h with }
  · exact h

end Bounded

/-- What the entries keep of each link alone. -/
structure Ledger.Keeps (w : Scope) (P : Link A → Prop) : Prop where
  fresh : ∀ connId localIp, P (.fresh connId localIp)
  step : ∀ l l', P l → l.Step l' → P l'
  reopen : ∀ l, P l → P l.reopen
  recover : ∀ l, P l → P l.recover
  join : ∀ l, P l → P l.join
  admin : ∀ l enabled, P l → P (l.admin enabled)
  paid : ∀ l d, P l → P (paid l d)
  offer : w.busy → ∀ l p, P l → P (l.offer p)
  probe : w.busy → ∀ l seq data now, P l → P (l.probe seq data now)
  flush : w.busy → ∀ l, P l → P l.flush

theorem Ledger.Keeps.forall_step {w : Scope} {P : Link A → Prop} (hP : Keeps w P)
    (b b' : Ledger A) (h : Step w b b') (hb : ∀ l ∈ b.links, P l) : ∀ l ∈ b'.links, P l := by
  have hone : ∀ {pre post : List (Link A)} {l l' : Link A}, (P l → P l') →
      (∀ x ∈ pre ++ l :: post, P x) → ∀ x ∈ pre ++ l' :: post, P x := by
    intro pre post l l' hl hall
    rw [List.forall_mem_append, List.forall_mem_cons] at hall ⊢
    exact ⟨hall.1, hl hall.2.1, hall.2.2⟩
  cases h with
  | link h => exact hone (fun hl => hP.step _ _ hl h) hb
  | forward hbusy data seq now => exact hone (hP.offer hbusy _ _) hb
  | pass hbusy data now => exact hone (hP.offer hbusy _ _) hb
  | probe hbusy seq data now => exact hone (hP.probe hbusy _ _ _ _) hb
  | flush hbusy => exact hone (hP.flush hbusy _) hb
  | join => exact hone (hP.join _) hb
  | admin _ enabled => exact hone (hP.admin _ enabled) hb
  | acknowledge seq now => exact hone (hP.paid _ _) hb
  | recover => exact hone (hP.recover _) hb
  | reopen => exact hone (hP.reopen _) hb
  | close =>
    rw [List.forall_mem_append, List.forall_mem_cons] at hb
    exact List.forall_mem_append.mpr ⟨hb.1, hb.2.2⟩
  | connect _ localIp =>
    exact List.forall_mem_append.mpr ⟨hb, fun l hl => List.mem_singleton.mp hl ▸ hP.fresh _ _⟩

theorem Bounded.keeps (w : Scope) : Ledger.Keeps w (Bounded (A := A)) where
  fresh := fresh
  step _ _ h := h.step
  reopen l _ := reopen l
  recover _ h := h.recover
  join _ h := h.join
  admin _ enabled h := h.admin enabled
  paid _ d h := h.paid d
  offer _ _ p h := h.offer p
  probe _ _ seq data now h := h.probe seq data now
  flush _ _ h := h.flush

section Runs
variable [F64Exp F] [DecidableEq A]

theorem run_bounded (s : Setup A) (es : List (Event A)) :
    ∀ c ∈ (run s es : State F A).connections, Bounded c.link := by
  obtain ⟨m, -, hrun⟩ := run_invariant (F := F) False
    (I := fun b : Ledger A => ∀ l ∈ b.links, Bounded l)
    (fun _ hl => absurd hl List.not_mem_nil)
    (Bounded.keeps _).forall_step s es False.elim
  exact fun c hc => hrun c.link (List.mem_map_of_mem hc)

/-- In every run, every window is between one packet and sixty, the packets counted as under
way are the logged ones, and a connected link is ready to carry packets. -/
theorem link_bounds (s : Setup A) (es : List (Event A)) :
    ∀ c ∈ (run s es : State F A).connections,
      1000 ≤ c.window ∧ c.window ≤ 60000 ∧
      c.inFlightPackets = c.packetLog.entries.length ∧
      c.probeLog.entries.length ≤ 128 ∧
      0 ≤ c.congestion.nakCount ∧ c.congestion.nakCount < 2 ^ 31 ∧
      (c.connected = true → c.isSchedulable = true ∧ c.lastReceived.isSome = true) := by
  intro c hc
  have h := run_bounded s es c hc
  have hmin : (windowMin * windowMult : ℤ) = 1000 := by decide
  have hmax : (windowMax * windowMult : ℤ) = 60000 := by decide
  refine ⟨hmin ▸ h.window.1, hmax ▸ h.window.2, h.inFlight, h.probes, h.naks.1, ?_, h.ready⟩
  exact lt_of_le_of_lt h.naks.2 (by decide)

end Runs

def wan : Ipv4 := ⟨[⟨10, by decide⟩, ⟨0, by decide⟩, ⟨0, by decide⟩, ⟨1, by decide⟩], rfl⟩

def wifi : Ipv4 := ⟨[⟨10, by decide⟩, ⟨0, by decide⟩, ⟨0, by decide⟩, ⟨2, by decide⟩], rfl⟩

def oneLink : Setup Ipv4 where
  configured := [⟨1, "cellular", wan, true⟩]
  opened := fun i => if i = 0 then some 7 else none
  now := 1
  mode := .classic
  id := ⟨List.replicate srtlaIdLen 1, List.length_replicate⟩
  probeId := ⟨List.replicate srtlaIdLen 2, List.length_replicate⟩

theorem oneLink_draws : oneLink.Draws := by
  refine ⟨fun i h => ?_, fun i j id hi hj => ?_⟩
  · dsimp only [oneLink] at h
    split at h
    · exact absurd h (by decide)
    · exact absurd h.symm (Option.some_ne_none _)
  · dsimp only [oneLink] at hi hj
    split at hi <;> split at hj <;> simp_all

theorem link_bounds_one_link :
    ∃ c ∈ (run oneLink [.datagram [0, 0, 0, 5, 1, 2, 3, 4] 10 fun _ => none,
        .flush 30 fun _ => none] : State ℚ Ipv4).connections,
      1000 ≤ c.window ∧ c.window ≤ 60000 ∧
      c.inFlightPackets = c.packetLog.entries.length ∧
      c.probeLog.entries.length ≤ 128 ∧
      0 ≤ c.congestion.nakCount ∧ c.congestion.nakCount < 2 ^ 31 ∧
      (c.connected = true → c.isSchedulable = true ∧ c.lastReceived.isSome = true) := by
  have hne : (run oneLink [.datagram [0, 0, 0, 5, 1, 2, 3, 4] 10 fun _ => none,
      .flush 30 fun _ => none] : State ℚ Ipv4).connections ≠ [] := by decide +kernel
  obtain ⟨c, hc⟩ := List.exists_mem_of_ne_nil _ hne
  exact ⟨c, hc, link_bounds oneLink _ c hc⟩

end Srtla.Bond
