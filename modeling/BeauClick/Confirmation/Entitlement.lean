import BeauClick.Booking.Booking
import BeauClick.Enforcement.Governance

/-!
# Whether a booking may be confirmed

The decisions of `BookingCreditEntitlementAdapter`
(`apps/api/src/composition/booking-credit-entitlement.adapter.ts`), of
`BookingCreditEnforcementControlService` and of `CommercialPolicyControlGate`, each on rows that
its caller has read.
-/

namespace BeauClick.Confirmation

open Booking Credits Enforcement

/-! ## The gate -/

/-- `COMMERCIAL_POLICY_CONTROL_REFUSALS`. -/
inductive CommercialPolicyControlRefusal where
  | killSwitchActive
  | rolloutDisabled
  | entitlementMissing
  | businessPolicyDisabled

/-- The controls that a confirmation reads. -/
structure CommercialPolicyControls where
  rolloutEnabled : Bool
  entitlementGranted : Bool
  businessPolicyEnabled : Bool
  killSwitchActive : Bool

/-- `CommercialPolicyControlGate.decide`: the refusal, or none. -/
def CommercialPolicyControls.decide (controls : CommercialPolicyControls) :
    Option CommercialPolicyControlRefusal :=
  if controls.killSwitchActive then some .killSwitchActive
  else if !controls.rolloutEnabled then some .rolloutDisabled
  else if !controls.entitlementGranted then some .entitlementMissing
  else if !controls.businessPolicyEnabled then some .businessPolicyDisabled
  else none

/-! ## Before the ledger -/

/-- What is decided before the ledger is asked. -/
inductive PreLedgerDecision where
  | refuse
  | legacy
  | active
  /-- `EnforcementControlMalformedError`. -/
  | malformed
  deriving DecidableEq

/-- `decideBeforeLedger`: the planes that are not evaluated yet are not granted. -/
def decideBeforeLedger (control : BookingCreditEnforcementControlEntity) : PreLedgerDecision :=
  match CommercialPolicyControls.decide ⟨control.rolloutState = .active, false, false,
      control.killSwitchState = .engaged⟩ with
  | none => .malformed
  | some .killSwitchActive => .refuse
  | some .rolloutDisabled => .legacy
  | some .entitlementMissing => .active
  | some .businessPolicyDisabled => .malformed

/-- What the governance of a party says. -/
inductive GovernanceDecision where
  | refuse
  | legacy
  | governed

/-- `decideGovernance`, under an active rollout. -/
def decideGovernance (governance : Option BookingCreditPartyGovernanceEntity) :
    GovernanceDecision :=
  match governance with
  | none => .refuse
  | some g =>
    match g.state with
    | .governed => .governed
    | .legacyExempt => .legacy

/-! ## After the ledger -/

/-- Whether a booking may be confirmed, and on what. -/
inductive BookingConfirmationEntitlement where
  | permitted
  | insufficientCredit
  | controlRefused (reason : CommercialPolicyControlRefusal)
  | ineligible

def decideGovernedLedger (entitlementGranted : Bool) : Option CommercialPolicyControlRefusal :=
  CommercialPolicyControls.decide ⟨true, entitlementGranted, true, false⟩

/-- What the answer of `consumeForConfirmation` comes to. -/
def entitlementOf (governed : Bool) (outcome : CreditOutcome) : BookingConfirmationEntitlement :=
  match outcome with
  | .consumed _ _ => verdict (decideGovernedLedger true) .permitted
  | .alreadyConsumed _ => verdict (decideGovernedLedger true) .permitted
  | .notConfigured => verdict (decideGovernedLedger false) .permitted
  | .insufficientCredit => verdict (decideGovernedLedger false) .insufficientCredit
  | _ => .ineligible
where
  /-- A governed party is refused by the gate; the answer stands for any other. -/
  verdict (refusal : Option CommercialPolicyControlRefusal)
      (answer : BookingConfirmationEntitlement) : BookingConfirmationEntitlement :=
    match governed, refusal with
    | true, some reason => .controlRefused reason
    | _, _ => answer

theorem entitlementOf_consumed (governed : Bool) (consumptionId grantId : Uuid) :
    entitlementOf governed (.consumed consumptionId grantId) = .permitted := by
  cases governed <;> rfl

/-! ## Cancellations -/

/-- A customer's own cancellation returns no credit. -/
def causeByActor : BookingActorType → Option BookingCreditReturnCause
  | .professional => some .sellerCancelled
  | .system => some .platformCancelled
  | .admin => some .platformCancelled
  | .customer => none

/-- `onBookingCancellation`: the cause for which a credit is given back, if it is. -/
def returnCause (actorType : BookingActorType) (wasConfirmed : Bool) :
    Option BookingCreditReturnCause :=
  if wasConfirmed then causeByActor actorType else none

end BeauClick.Confirmation
