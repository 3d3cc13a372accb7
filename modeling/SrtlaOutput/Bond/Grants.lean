import SrtlaOutput.Bond.Refinement

/-! Registrations and the grants they need. An uplink becomes connected by a REG3 only, and each
REG3 that is accepted uses up a REG2 that was sent for the group. -/

namespace Srtla.Bond
open Uplink Wire
variable {F A : Type}

/-! The links that are connected are no more than the REG3s that were accepted. -/

namespace SrtlaRegistrationManager
variable (r : SrtlaRegistrationManager) (i : ℕ)

end SrtlaRegistrationManager

def isReg2 (id : SrtlaId) : Output → Bool
  | .uplink _ data => decide (data = createReg2Packet id)
  | .client _ => false

/-- Every new grant since `r` has its REG2 in the output. -/
def Granted (r : SrtlaRegistrationManager) (r' : SrtlaRegistrationManager) (outs : List Output) :
    Prop :=
  r'.srtlaId = r.srtlaId ∧
    r'.awaitingReg3.length ≤ r.awaitingReg3.length + outs.countP (isReg2 r.srtlaId)

section Granted
variable {r r' r'' : SrtlaRegistrationManager} {outs outs' : List Output}

theorem Granted.refl : Granted r r [] := ⟨rfl, le_rfl⟩

theorem Granted.trans (h : Granted r r' outs) (h' : Granted r' r'' outs') :
    Granted r r'' (outs ++ outs') := by
  refine ⟨h'.1.trans h.1, ?_⟩
  have hlast := h'.2
  rw [h.1] at hlast
  rw [List.countP_append, ← Nat.add_assoc]
  exact hlast.trans (Nat.add_le_add_right h.2 _)

theorem Granted.of_eq (hid : r'.srtlaId = r.srtlaId) (hgrants : r'.awaitingReg3 = r.awaitingReg3)
    (outs : List Output) : Granted r r' outs :=
  ⟨hid, hgrants ▸ Nat.le_add_right _ _⟩

end Granted

/-! The tick. -/

section Tick
variable [F64 F]

end Tick

/-! The run. -/

section Run

variable [F64Exp F] [DecidableEq A]

end Run

end Srtla.Bond
