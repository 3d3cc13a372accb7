import SrtlaOutput.Lib.Schedule

/-! Pacing of attempts that may fail. After a failure the next attempt waits, the longer the more
failures there were since the last success or the beginning. -/

namespace Pacing
open Schedule

/-- `acquire` happens within an attempt. An attempt fails, or succeeds and is lost later. -/
inductive Event
  | attempt
  | acquire
  | sleep
  | failed
  | lost
  deriving DecidableEq, Repr

def failures (log : List Event) : Option Nat :=
  log.foldl (fun n e =>
    match e with
    | .failed => some (n.elim 0 (· + 1))
    | .lost => some 0
    | _ => n) none

/-- Successive attempts, and successive acquisitions, have `least` sleeps between them, and after
a failure or a loss come the sleeps that `delay` says. -/
structure Paced (delay : Nat → Nat) (least : Nat) (log : List Event) : Prop where
  attempts : ∀ before mid after, log = before ++ .attempt :: (mid ++ .attempt :: after) →
    least ≤ mid.count .sleep
  acquisitions : ∀ before mid after, log = before ++ .acquire :: (mid ++ .acquire :: after) →
    least ≤ mid.count .sleep
  delays : ∀ before e mid after, log = before ++ e :: (mid ++ .attempt :: after) →
    e = .failed ∨ e = .lost → .attempt ∉ mid →
    ∀ n ∈ failures (before ++ [e]), mid.count .sleep = delay n

/-- A party that paces its attempts. `slept` counts the sleeps since the last failure or loss. -/
structure Pacer where
  retries : Option Nat := none
  slept : Nat := 0
  attempting : Bool := false
  acquired : Bool := false
  deriving DecidableEq, Repr

namespace Pacer

def next (delay : Nat → Nat) (p : Pacer) : Event → Option Pacer
  | .attempt =>
    if p.attempting || p.retries.any (p.slept ≠ delay ·) then none
    else some { p with attempting := true, acquired := false }
  | .acquire => if p.attempting && !p.acquired then some { p with acquired := true } else none
  | .sleep => some { p with slept := p.slept + 1 }
  | .failed => if p.attempting then some { retries := some (p.retries.elim 0 (· + 1)) } else none
  | .lost => if p.attempting then some { retries := some 0 } else none

section Rules
variable {delay : Nat → Nat} {p q : Pacer} {log : List Event}

theorem of_attempt (h : p.next delay .attempt = some q) :
    p.attempting = false ∧ (∀ n ∈ p.retries, p.slept = delay n) ∧
      q = { p with attempting := true, acquired := false } := by
  simp only [next] at h
  split_ifs at h with hno
  rw [Bool.not_eq_true, Bool.or_eq_false_iff] at hno
  refine ⟨hno.1, ?_, (Option.some.inj h).symm⟩
  intro n hn
  simpa [Option.mem_def.mp hn] using hno.2

theorem of_acquire (h : p.next delay .acquire = some q) :
    p.attempting = true ∧ p.acquired = false ∧ q = { p with acquired := true } := by
  simp only [next] at h
  split_ifs at h with hyes
  rw [Bool.and_eq_true, Bool.not_eq_true'] at hyes
  exact ⟨hyes.1, hyes.2, (Option.some.inj h).symm⟩

theorem of_failed (h : p.next delay .failed = some q) :
    p.attempting = true ∧ q = { retries := some (p.retries.elim 0 (· + 1)) } := by
  simp only [next] at h
  split_ifs at h with hyes
  exact ⟨hyes, (Option.some.inj h).symm⟩

theorem of_lost (h : p.next delay .lost = some q) :
    p.attempting = true ∧ q = { retries := some 0 } := by
  simp only [next] at h
  split_ifs at h with hyes
  exact ⟨hyes, (Option.some.inj h).symm⟩

theorem of_ended {e : Event} (he : e = .failed ∨ e = .lost) (h : p.next delay e = some q) :
    p.attempting = true ∧ ∃ n, q = { retries := some n } := by
  -- an attempt that fails and a connection that is lost leave a party that waits
  rcases he with rfl | rfl
  · exact ⟨(of_failed h).1, _, (of_failed h).2⟩
  · exact ⟨(of_lost h).1, 0, (of_lost h).2⟩

theorem least_of_retry {least : Nat} (hleast : ∀ n, least ≤ delay n)
    (h : p.next delay .attempt = some q) (hretries : p.retries.isSome) : least ≤ p.slept := by
  obtain ⟨n, hn⟩ := Option.isSome_iff_exists.mp hretries
  rw [(of_attempt h).2.1 n hn]
  exact hleast n

theorem retries_of_exec (h : exec (Pacer.next delay) p log = some q) :
    q.retries = log.foldl (fun n e =>
      match e with
      | .failed => some (n.elim 0 (· + 1))
      | .lost => some 0
      | _ => n) p.retries := by
  -- the retries are the failures so far
  induction log generalizing p with
  | nil => rw [← Option.some.inj h]; rfl
  | cons e log ih =>
    obtain ⟨p', hp', hrest⟩ := Option.bind_eq_some_iff.mp h
    rw [List.foldl_cons, ih hrest]
    cases e with
    | attempt => rw [(of_attempt hp').2.2]
    | acquire => rw [(of_acquire hp').2.2]
    | sleep => rw [← Option.some.inj hp']
    | failed => rw [(of_failed hp').2]
    | lost => rw [(of_lost hp').2]

theorem slept_of_exec (hwaiting : p.attempting = false) (hnone : .attempt ∉ log)
    (h : exec (Pacer.next delay) p log = some q) :
    q = { p with slept := p.slept + log.count .sleep } := by
  induction log generalizing p with
  | nil => exact (Option.some.inj h).symm
  | cons e log ih =>
    obtain ⟨p', hp', hrest⟩ := Option.bind_eq_some_iff.mp h
    rw [List.mem_cons, not_or] at hnone
    cases e with
    | attempt => exact absurd rfl hnone.1
    | sleep =>
      obtain rfl := Option.some.inj hp'
      rw [ih (p := { p with slept := p.slept + 1 }) hwaiting hnone.2 hrest, List.count_cons_self]
      show { p with slept := p.slept + 1 + _ } = _
      rw [Nat.add_assoc, Nat.add_comm 1]
    | acquire => rw [(of_acquire hp').1] at hwaiting; cases hwaiting
    | failed => rw [(of_failed hp').1] at hwaiting; cases hwaiting
    | lost => rw [(of_lost hp').1] at hwaiting; cases hwaiting

theorem least_of_attempt {least : Nat} (hleast : ∀ n, least ≤ delay n)
    (h : exec (Pacer.next delay) p log = some q) (hnext : (q.next delay .attempt).isSome) :
    (p.attempting = true → least ≤ log.count .sleep) ∧
      (p.attempting = false → p.retries.isSome → least ≤ p.slept + log.count .sleep) := by
  -- before the next attempt an attempt must end, and then comes its delay
  induction log generalizing p with
  | nil =>
    obtain ⟨r, hr⟩ := Option.isSome_iff_exists.mp hnext
    obtain rfl := Option.some.inj h
    constructor
    · intro hattempting
      rw [(of_attempt hr).1] at hattempting
      cases hattempting
    · intro _ hretries
      exact Nat.le_add_right_of_le (least_of_retry hleast hr hretries)
  | cons e log ih =>
    obtain ⟨p', hp', hrest⟩ := Option.bind_eq_some_iff.mp h
    obtain ⟨hduring, hafter⟩ := ih hrest
    cases e with
    | attempt =>
      obtain ⟨hwaiting, -, rfl⟩ := of_attempt hp'
      rw [List.count_cons_of_ne (by decide)]
      refine ⟨fun hattempting => ?_, fun _ _ => Nat.le_add_left_of_le (hduring rfl)⟩
      rw [hwaiting] at hattempting
      cases hattempting
    | acquire =>
      obtain ⟨hattempting, -, rfl⟩ := of_acquire hp'
      rw [List.count_cons_of_ne (by decide)]
      exact ⟨hduring, hafter⟩
    | sleep =>
      obtain rfl := Option.some.inj hp'
      rw [List.count_cons_self]
      refine ⟨fun hattempting => Nat.le_succ_of_le (hduring hattempting), fun hwaiting hretries => ?_⟩
      have hle := hafter hwaiting hretries
      dsimp only at hle
      omega
    | failed | lost =>
      obtain ⟨-, n, rfl⟩ := of_ended (by simp) hp'
      have hle : least ≤ log.count .sleep := by simpa using hafter rfl rfl
      rw [List.count_cons_of_ne (by decide)]
      exact ⟨fun _ => hle, fun _ _ => Nat.le_add_left_of_le hle⟩

theorem least_of_acquire {least : Nat} (hleast : ∀ n, least ≤ delay n)
    (h : exec (Pacer.next delay) p log = some q) (hnext : (q.next delay .acquire).isSome) :
    (p.attempting = true → p.acquired = true → least ≤ log.count .sleep) ∧
      (p.attempting = false → p.retries.isSome → least ≤ p.slept + log.count .sleep) := by
  -- before the next acquisition comes another attempt
  induction log generalizing p with
  | nil =>
    obtain ⟨r, hr⟩ := Option.isSome_iff_exists.mp hnext
    obtain rfl := Option.some.inj h
    obtain ⟨hattempting, hacquired, -⟩ := of_acquire hr
    refine ⟨fun _ h => ?_, fun h _ => ?_⟩
    · rw [hacquired] at h
      cases h
    · rw [hattempting] at h
      cases h
  | cons e log ih =>
    obtain ⟨p', hp', hrest⟩ := Option.bind_eq_some_iff.mp h
    obtain ⟨hduring, hafter⟩ := ih hrest
    cases e with
    | attempt =>
      refine ⟨fun hattempting => ?_, fun _ hretries => ?_⟩
      · rw [(of_attempt hp').1] at hattempting
        cases hattempting
      · exact Nat.le_add_right_of_le (least_of_retry hleast hp' hretries)
    | acquire =>
      obtain ⟨hattempting, hacquired, rfl⟩ := of_acquire hp'
      refine ⟨fun _ h => ?_, fun h => ?_⟩
      · rw [hacquired] at h
        cases h
      · rw [hattempting] at h
        cases h
    | sleep =>
      obtain rfl := Option.some.inj hp'
      rw [List.count_cons_self]
      refine ⟨fun hattempting hacquired => Nat.le_succ_of_le (hduring hattempting hacquired),
        fun hwaiting hretries => ?_⟩
      have hle := hafter hwaiting hretries
      dsimp only at hle
      omega
    | failed | lost =>
      obtain ⟨-, n, rfl⟩ := of_ended (by simp) hp'
      have hle : least ≤ log.count .sleep := by simpa using hafter rfl rfl
      rw [List.count_cons_of_ne (by decide)]
      exact ⟨fun _ _ => hle, fun _ _ => Nat.le_add_left_of_le hle⟩

end Rules

end Pacer

theorem paced_of_exec {delay : Nat → Nat} {least : Nat} (hleast : ∀ n, least ≤ delay n)
    {log : List Event} {p : Pacer} (h : exec (Pacer.next delay) {} log = some p) :
    Paced delay least log := by
  -- the party before an event, and after it
  have hcut : ∀ before e mid e' after, log = before ++ e :: (mid ++ e' :: after) →
      ∃ p₁ p₂ p₃, exec (Pacer.next delay) {} before = some p₁ ∧ p₁.next delay e = some p₂ ∧
        exec (Pacer.next delay) p₂ mid = some p₃ ∧ (p₃.next delay e').isSome := by
    rintro before e mid e' after rfl
    rw [exec_append] at h
    obtain ⟨p₁, h₁, h⟩ := Option.bind_eq_some_iff.mp h
    obtain ⟨p₂, h₂, h⟩ := Option.bind_eq_some_iff.mp h
    rw [exec_append] at h
    obtain ⟨p₃, h₃, h⟩ := Option.bind_eq_some_iff.mp h
    obtain ⟨p₄, h₄, -⟩ := Option.bind_eq_some_iff.mp h
    exact ⟨p₁, p₂, p₃, h₁, h₂, h₃, Option.isSome_iff_exists.mpr ⟨p₄, h₄⟩⟩
  refine ⟨fun before mid after hlog => ?_, fun before mid after hlog => ?_,
    fun before e mid after hlog he hnone n hn => ?_⟩
  · obtain ⟨p₁, p₂, p₃, -, h₂, h₃, h₄⟩ := hcut _ _ _ _ _ hlog
    apply (Pacer.least_of_attempt hleast h₃ h₄).1
    rw [(Pacer.of_attempt h₂).2.2]
  · obtain ⟨p₁, p₂, p₃, -, h₂, h₃, h₄⟩ := hcut _ _ _ _ _ hlog
    obtain ⟨hattempting, -, rfl⟩ := Pacer.of_acquire h₂
    exact (Pacer.least_of_acquire hleast h₃ h₄).1 hattempting rfl
  · obtain ⟨p₁, p₂, p₃, h₁, h₂, h₃, h₄⟩ := hcut _ _ _ _ _ hlog
    have hended : p₂.attempting = false ∧ p₂.slept = 0 := by
      rcases he with rfl | rfl
      · rw [(Pacer.of_failed h₂).2]
        exact ⟨rfl, rfl⟩
      · rw [(Pacer.of_lost h₂).2]
        exact ⟨rfl, rfl⟩
    have hexec : exec (Pacer.next delay) {} (before ++ [e]) = some p₂ := by
      rw [exec_append, h₁]
      show (p₁.next delay e).bind _ = _
      rw [h₂]
      rfl
    have hretries : p₂.retries = failures (before ++ [e]) := Pacer.retries_of_exec hexec
    have hslept := Pacer.slept_of_exec hended.1 hnone h₃
    obtain ⟨p₄, h₄⟩ := Option.isSome_iff_exists.mp h₄
    have hdelay := (Pacer.of_attempt h₄).2.1 n
    rw [hslept] at hdelay
    rw [← hdelay (hretries.trans hn), hended.2, Nat.zero_add]

end Pacing
