import StructurePulse.Signals.StateMachine
import StructurePulse.Strategy.Models

/-!
# Publication policy

`evaluatePublication` decides whether an accepted candidate becomes a tracked
signal, from the observations of earlier signals and the publication time.
-/

namespace StructurePulse.Signals
open Strategy
set_option autoImplicit false

/-- The fields carry the checks of `__post_init__`. -/
structure SignalPolicyConfig where
  cooldownMinutes : Int := 60
  maximumActiveSignals : Nat := 5
  maximumSignalsPerHour : Nat := 10
  burstWindowMinutes : Int := 5
  burstMaximumSignals : Nat := 3
  pauseOnAbnormalBtc : Bool := true
  cooldownMinutes_nonneg : 0 ≤ cooldownMinutes := by decide
  maximumActiveSignals_pos : 1 ≤ maximumActiveSignals := by decide
  maximumSignalsPerHour_pos : 1 ≤ maximumSignalsPerHour := by decide
  burstWindowMinutes_pos : 1 ≤ burstWindowMinutes := by decide
  burstMaximumSignals_pos : 1 ≤ burstMaximumSignals := by decide
  deriving Repr, DecidableEq

/-- `SignalPolicyConfig()`. -/
def SignalPolicyConfig.standard : SignalPolicyConfig where
  burstMaximumSignals_pos := Nat.succ_pos 2

structure SignalObservation where
  symbol : Symbol
  status : SignalStatus
  createdAt : Int
  deriving Repr, DecidableEq

/-- Why a candidate is stored as `suppressed`. -/
inductive PublicationReason where
  | candidateNotAccepted
  | candidateExpired
  | btcCircuitBreaker
  | activeSignalExists
  | symbolCooldown
  | portfolioActiveLimit
  | portfolioHourlyLimit
  | portfolioBurstLimit
  deriving Repr, DecidableEq

def PublicationReason.text : PublicationReason → String
  | .candidateNotAccepted => "candidate_not_accepted"
  | .candidateExpired => "candidate_expired"
  | .btcCircuitBreaker => "btc_circuit_breaker"
  | .activeSignalExists => "active_signal_exists"
  | .symbolCooldown => "symbol_cooldown"
  | .portfolioActiveLimit => "portfolio_active_limit"
  | .portfolioHourlyLimit => "portfolio_hourly_limit"
  | .portfolioBurstLimit => "portfolio_burst_limit"

structure PublicationDecision where
  allowed : Bool
  reason : Option PublicationReason := none
  deriving Repr, DecidableEq

def PublicationDecision.refuse (reason : PublicationReason) : PublicationDecision :=
  { allowed := false, reason := some reason }

def evaluatePublication (candidate : SignalCandidate) (observations : List SignalObservation)
    (now : Int) (config : SignalPolicyConfig) : PublicationDecision :=
  if candidate.status ≠ .accepted ∨ candidate.tradePlan = none then
    .refuse .candidateNotAccepted
  else if candidate.expiresAt ≤ now then
    .refuse .candidateExpired
  else if config.pauseOnAbnormalBtc ∧ .abnormalBtcMovement ∈ candidate.warnings then
    .refuse .btcCircuitBreaker
  else
    let published := observations.filter (·.status.isPublished)
    let active := published.filter (·.status.isActive)
    if active.any fun item => item.symbol = candidate.symbol then
      .refuse .activeSignalExists
    else if published.any fun item =>
        item.symbol = candidate.symbol ∧ item.createdAt > now - minutes config.cooldownMinutes then
      .refuse .symbolCooldown
    else if active.length ≥ config.maximumActiveSignals then
      .refuse .portfolioActiveLimit
    else if published.countP (fun item => item.createdAt > now - oneHour)
        ≥ config.maximumSignalsPerHour then
      .refuse .portfolioHourlyLimit
    else if published.countP (fun item => item.createdAt > now - minutes config.burstWindowMinutes)
        ≥ config.burstMaximumSignals then
      .refuse .portfolioBurstLimit
    else { allowed := true }

/-- What an allowed publication says about the observations it was decided on. -/
structure Admissible (candidate : SignalCandidate) (observations : List SignalObservation)
    (now : Int) (config : SignalPolicyConfig) : Prop where
  noActive : ∀ item ∈ observations, item.status.isActive = true → item.symbol ≠ candidate.symbol
  cooldown : ∀ item ∈ observations, item.status.isPublished = true →
    item.symbol = candidate.symbol → item.createdAt ≤ now - minutes config.cooldownMinutes
  active : observations.countP (·.status.isActive) < config.maximumActiveSignals
  hourly : (observations.filter (·.status.isPublished)).countP
    (fun item => item.createdAt > now - oneHour) < config.maximumSignalsPerHour
  burst : (observations.filter (·.status.isPublished)).countP
    (fun item => item.createdAt > now - minutes config.burstWindowMinutes)
      < config.burstMaximumSignals

theorem SignalStatus.isPublished_of_isActive {status : SignalStatus}
    (h : status.isActive = true) : status.isPublished = true := by
  simp [SignalStatus.isPublished, h]

theorem admissible_of_allowed {candidate : SignalCandidate} {observations : List SignalObservation}
    {now : Int} {config : SignalPolicyConfig}
    (h : (evaluatePublication candidate observations now config).allowed = true) :
    Admissible candidate observations now config := by
  unfold evaluatePublication at h
  simp only at h
  split_ifs at h with _ _ _ hactive hcooldown hlimit hhourly hburst
  all_goals cases h
  simp only [List.any_eq_true, List.mem_filter, decide_eq_true_eq, not_exists, not_and, not_lt,
    and_imp] at hactive hcooldown
  refine ⟨?_, ?_, ?_, not_le.mp hhourly, not_le.mp hburst⟩
  · intro item hitem ha
    exact hactive item hitem (SignalStatus.isPublished_of_isActive ha) ha
  · exact hcooldown
  · have hcount : observations.countP (·.status.isActive) =
        ((observations.filter (·.status.isPublished)).filter (·.status.isActive)).length := by
      rw [List.filter_filter, List.countP_eq_length_filter]
      congr 1
      refine List.filter_congr fun item _ => ?_
      cases ha : item.status.isActive
      · simp
      · simp [SignalStatus.isPublished_of_isActive ha]
    rw [hcount]
    exact not_le.mp hlimit

end StructurePulse.Signals
