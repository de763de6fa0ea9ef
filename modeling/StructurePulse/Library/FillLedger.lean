import Mathlib.Algebra.Order.Ring.Defs
import Mathlib.Tactic.Ring

/-!
# A ledger of fills

A position is bought at one price and closed in parts. Every fill pays a fee on its
notional; a closing fill realizes the move from the entry to its price. The ledger adds the
fills one by one.
-/

namespace Library
set_option autoImplicit false

variable {K : Type*} [CommRing K]

structure FillLedger (K : Type*) where
  position : K
  realized : K
  fees : K

namespace FillLedger

def empty : FillLedger K := ⟨0, 0, 0⟩

/-- A fill that opens `quantity` at `price`. -/
def buy (rate quantity price : K) (ledger : FillLedger K) : FillLedger K where
  position := ledger.position + quantity
  realized := ledger.realized - quantity * price * rate
  fees := ledger.fees + quantity * price * rate

/-- A fill that closes `quantity` at `price`, `move` away from the entry. -/
def close (rate move quantity price : K) (ledger : FillLedger K) : FillLedger K where
  position := ledger.position - quantity
  realized := ledger.realized + (quantity * move - quantity * price * rate)
  fees := ledger.fees + quantity * price * rate

variable {rate move quantity price : K} {ledger : FillLedger K}

/-- Closing everything leaves no position. -/
theorem position_close_all : (ledger.close rate move ledger.position price).position = 0 :=
  sub_self ledger.position

variable [PartialOrder K] [IsOrderedRing K]

theorem fees_le_buy (h : 0 ≤ quantity * price * rate) : ledger.fees ≤ (ledger.buy rate quantity price).fees :=
  le_add_of_nonneg_right h

theorem fees_le_close (h : 0 ≤ quantity * price * rate) :
    ledger.fees ≤ (ledger.close rate move quantity price).fees :=
  le_add_of_nonneg_right h

end FillLedger

end Library
