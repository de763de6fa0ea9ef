import StructurePulse.Library.Drawdowns
import StructurePulse.Replay.Resolution
import StructurePulse.Replay.Runner
import Mathlib.Algebra.Order.Group.MinMax
import Mathlib.Order.WithBot
import Mathlib.Tactic.Linarith

/-!
# The summary and its ambiguous outcomes

An ambiguous outcome earns nothing. The loop over the outcomes with one of them more is, from
there on, the loop without it on a curve that lies lower.
-/

namespace StructurePulse.Replay
open Library Strategy Signals Store
set_option autoImplicit false

section Resolving
variable {sequence : Nat} {candidate : SignalCandidate} {plan : TradePlan}

/-- A result that earns nothing if it is ambiguous. -/
def Conservative (outcome : ReplayOutcome) : Prop := outcome.ambiguous = true → outcome.pnl ≤ 0

theorem stoppedOutcome_conservative (hloss : 0 ≤ plan.estimatedLossAtStop)
    (enteredAt resolvedAt : Int) (ambiguous afterTp1 : Bool) :
    Conservative (stoppedOutcome sequence candidate plan enteredAt resolvedAt ambiguous afterTp1) := by
  intro hambiguous
  have heq : ambiguous = true := hambiguous
  subst heq
  simp only [stoppedOutcome, Bool.not_true, Bool.and_false, Bool.false_eq_true, if_false]
  exact neg_nonpos.mpr hloss

theorem resolveRow_conservative (hloss : 0 ≤ plan.estimatedLossAtStop) {state : ResolverState}
    {candle : Candle1m} {outcome : ReplayOutcome}
    (h : resolveRow sequence candidate plan state candle = .inl outcome) : Conservative outcome := by
  have hflat : ∀ status resolvedAt enteredAt ambiguous,
      Conservative (flatOutcome sequence candidate status resolvedAt enteredAt ambiguous) :=
    fun _ _ _ _ _ => le_rfl
  cases hentered : state.enteredAt with
  | none =>
    simp only [resolveRow, hentered, resolveWaiting] at h
    split_ifs at h
    · cases h
      exact hflat _ _ _ _
    · cases h
      exact hflat _ _ _ _
    · cases h
      exact stoppedOutcome_conservative hloss _ _ _ _
    · cases h
      exact hflat _ _ _ _
  | some enteredAt =>
    simp only [resolveRow, hentered, resolveEntered] at h
    split_ifs at h
    · cases h
      exact stoppedOutcome_conservative hloss _ _ _ _
    · cases h
      exact stoppedOutcome_conservative hloss _ _ _ _
    · cases h
      intro hambiguous
      cases hambiguous

theorem resolveRows_conservative (hloss : 0 ≤ plan.estimatedLossAtStop) (state : ResolverState)
    (candles : List Candle1m) :
    Conservative (resolveRows sequence candidate plan state candles) := by
  induction candles generalizing state with
  | nil =>
    intro hambiguous
    cases hambiguous
  | cons candle rest ih =>
    rw [resolveRows]
    cases hrow : resolveRow sequence candidate plan state candle with
    | inl outcome => exact resolveRow_conservative hloss hrow
    | inr next => exact ih next

theorem resolveCandidate_conservative (hplan : candidate.tradePlan = some plan)
    (hloss : 0 ≤ plan.estimatedLossAtStop) {rows : List ReplayMarketRow} {outcome : ReplayOutcome}
    (h : resolveCandidate sequence candidate rows = .ok outcome) : Conservative outcome := by
  simp only [resolveCandidate, hplan] at h
  split_ifs at h
  cases h
  exact resolveRows_conservative hloss _ _

end Resolving

section Loop

/-- The loop with a loss of `lost` inserted, beside the loop without it. -/
structure Lowered (lost : ℚ) (lower upper : Drawdown) : Prop where
  balance : lower.balance = upper.balance - lost
  peak_pos : 0 < lower.peak
  peak_le : lower.peak ≤ upper.peak
  peak_ge : upper.peak - lost ≤ lower.peak
  maximum : upper.maximum ≤ lower.maximum
  fraction : upper.maximumFraction ≤ lower.maximumFraction

/-- A lower peak and a balance lowered by more fall by a larger part. -/
theorem fraction_le {balance peak balance' peak' lost : ℚ} (hlost : 0 ≤ lost)
    (hbalance : balance' = balance - lost) (hle : balance ≤ peak) (hpos : 0 < peak')
    (hpeak : peak' ≤ peak) (hlow : peak - lost ≤ peak') :
    (peak - balance) / peak ≤ (peak' - balance') / peak' := by
  have hpos' : 0 < peak := lt_of_lt_of_le hpos hpeak
  rw [sub_div, sub_div, div_self hpos'.ne', div_self hpos.ne', sub_le_sub_iff_left,
    div_le_div_iff₀ hpos hpos', hbalance]
  rcases le_total 0 balance with hsign | hsign
  · calc (balance - lost) * peak ≤ balance * (peak - lost) := by nlinarith
      _ ≤ balance * peak' := mul_le_mul_of_nonneg_left hlow hsign
  · calc (balance - lost) * peak ≤ balance * peak := by nlinarith
      _ ≤ balance * peak' := mul_le_mul_of_nonpos_left hpeak hsign

theorem Drawdown.add_of_pos {state : Drawdown} (hpos : 0 < state.peak) (pnl : ℚ) :
    state.add pnl =
      { balance := state.balance + pnl
        peak := max state.peak (state.balance + pnl)
        maximum := max state.maximum (max state.peak (state.balance + pnl) - (state.balance + pnl))
        maximumFraction := max state.maximumFraction
          ((max state.peak (state.balance + pnl) - (state.balance + pnl)) /
            max state.peak (state.balance + pnl)) } := by
  rw [Drawdown.add, if_pos (lt_max_of_lt_left hpos)]

theorem Lowered.add {lost : ℚ} (hlost : 0 ≤ lost) {lower upper : Drawdown}
    (h : Lowered lost lower upper) (pnl : ℚ) : Lowered lost (lower.add pnl) (upper.add pnl) := by
  have hbalance : lower.balance + pnl = upper.balance + pnl - lost := by
    rw [h.balance]
    ring
  have hle : max lower.peak (lower.balance + pnl) ≤ max upper.peak (upper.balance + pnl) :=
    max_le_max h.peak_le (by linarith)
  have hge : max upper.peak (upper.balance + pnl) - lost ≤ max lower.peak (lower.balance + pnl) := by
    rw [← max_sub_sub_right]
    exact max_le_max h.peak_ge hbalance.ge
  have hpos : 0 < max lower.peak (lower.balance + pnl) := lt_max_of_lt_left h.peak_pos
  rw [Drawdown.add_of_pos h.peak_pos, Drawdown.add_of_pos (h.peak_pos.trans_le h.peak_le)]
  exact {
    balance := hbalance
    peak_pos := hpos
    peak_le := hle
    peak_ge := hge
    maximum := max_le_max h.maximum (by linarith)
    fraction := max_le_max h.fraction
      (fraction_le hlost hbalance (le_max_right _ _) hpos hle hge) }

theorem Lowered.foldl {lost : ℚ} (hlost : 0 ≤ lost) {lower upper : Drawdown}
    (h : Lowered lost lower upper) (gains : List ℚ) :
    Lowered lost (gains.foldl Drawdown.add lower) (gains.foldl Drawdown.add upper) := by
  induction gains generalizing lower upper with
  | nil => exact h
  | cons gain gains ih => exact ih (h.add hlost gain)

/-- The variables of the loop: its balance never exceeds its peak, and that is positive. -/
structure Drawdown.Sound (state : Drawdown) : Prop where
  peak_pos : 0 < state.peak
  balance_le : state.balance ≤ state.peak

theorem Drawdown.Sound.add {state : Drawdown} (h : state.Sound) (pnl : ℚ) : (state.add pnl).Sound where
  peak_pos := lt_max_of_lt_left h.peak_pos
  balance_le := le_max_right _ _

theorem Drawdown.Sound.lowered {state : Drawdown} (h : state.Sound) {lost : ℚ} (hlost : 0 ≤ lost) :
    Lowered lost (state.add (-lost)) state := by
  have hpeak : max state.peak (state.balance + -lost) = state.peak :=
    max_eq_left (by linarith [h.balance_le])
  rw [Drawdown.add_of_pos h.peak_pos, hpeak]
  exact {
    balance := (sub_eq_add_neg _ _).symm
    peak_pos := h.peak_pos
    peak_le := le_rfl
    peak_ge := by linarith
    maximum := le_max_left _ _
    fraction := le_max_left _ _ }

end Loop

section Curve
variable (config : StrategyConfig)

def resolutionKey (item : ReplayOutcome) : Int ×ₗ Nat :=
  toLex (item.resolvedAt.getD datetimeMax, item.candidateSequence)

/-- The gains in the order of the resolutions. -/
def orderedGains (outcomes : List ReplayOutcome) : List ℚ :=
  (sortedBy resolutionKey outcomes).map (·.pnl)

/-- The variables before the loop. -/
def initialDrawdown : Drawdown where
  balance := config.referenceBalance
  peak := config.referenceBalance

def drawdownOf (gains : List ℚ) : Drawdown := gains.foldl Drawdown.add (initialDrawdown config)

theorem initialDrawdown_sound : (initialDrawdown config).Sound where
  peak_pos := config.referenceBalance_pos
  balance_le := le_rfl

theorem drawdownOf_append (gains : List ℚ) (gain : ℚ) :
    drawdownOf config (gains ++ [gain]) = (drawdownOf config gains).add gain := by
  rw [drawdownOf, List.foldl_append]
  rfl

theorem drawdownOf_sound (gains : List ℚ) : (drawdownOf config gains).Sound := by
  induction gains using List.reverseRecOn with
  | nil => exact initialDrawdown_sound config
  | append_singleton gains gain ih =>
    rw [drawdownOf_append]
    exact ih.add gain

/-- The variables after some gains, in terms of the equity curve. -/
theorem drawdownOf_curve (gains : List ℚ) :
    (drawdownOf config gains).balance = config.referenceBalance + gains.sum ∧
      IsGreatest (levels config.referenceBalance gains) (drawdownOf config gains).peak ∧
      IsGreatest (falls config.referenceBalance gains) (drawdownOf config gains).maximum := by
  induction gains using List.reverseRecOn with
  | nil => exact ⟨(add_zero _).symm, isGreatest_levels_nil, isGreatest_falls_nil⟩
  | append_singleton gains gain ih =>
    obtain ⟨hbalance, hpeak, hmaximum⟩ := ih
    rw [drawdownOf_append, Drawdown.add_of_pos (drawdownOf_sound config gains).peak_pos]
    have hnext : IsGreatest (levels config.referenceBalance (gains ++ [gain])) _ :=
      isGreatest_levels_append hpeak
    rw [← hbalance] at hnext
    have hfall := isGreatest_falls_append hmaximum hnext
    rw [← hbalance] at hfall
    refine ⟨?_, hnext, hfall⟩
    rw [hbalance, List.sum_append, List.sum_singleton, add_assoc]

end Curve

section Summary
variable (config : StrategyConfig) (inputRows symbolCount : Nat)
  (candidates : List ReplayCandidate)

/-- A missing profit factor counts as infinite. -/
def factorOf (summary : ReplaySummary) : WithTop ℚ := summary.profitFactor.elim ⊤ fun factor => factor

/-- The metrics of a summary are not better than those of another. -/
structure NoBetter (summary other : ReplaySummary) : Prop where
  netProfit : summary.netProfit ≤ other.netProfit
  profitFactor : factorOf summary ≤ factorOf other
  maximumDrawdown : other.maximumDrawdown ≤ summary.maximumDrawdown
  maximumDrawdownFraction : other.maximumDrawdownFraction ≤ summary.maximumDrawdownFraction

theorem lowered_insert {lost : ℚ} (hlost : 0 ≤ lost) (front back : List ℚ) :
    Lowered lost (drawdownOf config (front ++ -lost :: back)) (drawdownOf config (front ++ back)) := by
  rw [drawdownOf, drawdownOf, List.foldl_append, List.foldl_append, List.foldl_cons]
  exact ((drawdownOf_sound config front).lowered hlost).foldl hlost back

/-- The sums of the gains and of the losses. -/
def positivesOf (outcomes : List ReplayOutcome) : ℚ :=
  ((outcomes.filter fun item => decide (item.pnl > 0)).map (·.pnl)).sum

def negativesOf (outcomes : List ReplayOutcome) : ℚ :=
  |((outcomes.filter fun item => decide (item.pnl < 0)).map (·.pnl)).sum|

theorem positivesOf_nonneg (outcomes : List ReplayOutcome) : 0 ≤ positivesOf outcomes := by
  refine List.sum_nonneg fun gain hgain => ?_
  obtain ⟨item, hitem, rfl⟩ := List.mem_map.mp hgain
  exact (of_decide_eq_true (List.mem_filter.mp hitem).2).le

theorem positivesOf_insert {outcome : ReplayOutcome} (h : outcome.pnl ≤ 0)
    (before after : List ReplayOutcome) :
    positivesOf (before ++ outcome :: after) = positivesOf (before ++ after) := by
  rw [positivesOf, positivesOf, List.filter_append, List.filter_append,
    List.filter_cons_of_neg (by simpa using h)]

theorem losses_nonpos (outcomes : List ReplayOutcome) :
    ((outcomes.filter fun item => decide (item.pnl < 0)).map (·.pnl)).sum ≤ 0 := by
  have hlosses : ∀ gain ∈ (outcomes.filter fun item => decide (item.pnl < 0)).map (·.pnl),
      gain ≤ 0 := by
    intro gain hgain
    obtain ⟨item, hitem, rfl⟩ := List.mem_map.mp hgain
    exact (of_decide_eq_true (List.mem_filter.mp hitem).2).le
  have hsum := List.sum_le_card_nsmul _ 0 hlosses
  rwa [nsmul_zero] at hsum

theorem negativesOf_insert {outcome : ReplayOutcome} (h : outcome.pnl ≤ 0)
    (before after : List ReplayOutcome) :
    negativesOf (before ++ outcome :: after) = negativesOf (before ++ after) - outcome.pnl := by
  rw [negativesOf, negativesOf, abs_of_nonpos (losses_nonpos _), abs_of_nonpos (losses_nonpos _)]
  rcases h.lt_or_eq with hneg | hzero
  · rw [List.filter_append, List.filter_append, List.filter_cons_of_pos (by simpa using hneg)]
    simp only [List.map_append, List.map_cons, List.sum_append, List.sum_cons]
    ring
  · rw [List.filter_append, List.filter_append, List.filter_cons_of_neg (by simp [hzero]), hzero,
      sub_zero]

theorem factorOf_buildSummary (outcomes : List ReplayOutcome) :
    factorOf (buildSummary config inputRows symbolCount candidates outcomes) =
      if negativesOf outcomes > 0 then ((positivesOf outcomes / negativesOf outcomes : ℚ) : WithTop ℚ)
      else ⊤ := by
  change Option.elim (if negativesOf outcomes > 0 then
    some (positivesOf outcomes / negativesOf outcomes) else none) ⊤ _ = _
  split_ifs
  · rfl
  · rfl

theorem noBetter_insert {outcome : ReplayOutcome} (h : outcome.pnl ≤ 0)
    (before after : List ReplayOutcome) :
    NoBetter (buildSummary config inputRows symbolCount candidates (before ++ outcome :: after))
      (buildSummary config inputRows symbolCount candidates (before ++ after)) := by
  obtain ⟨front, back, hwith, hwithout⟩ := sortedBy_insert resolutionKey before after outcome
  have hlowered : Lowered (-outcome.pnl)
      (drawdownOf config (orderedGains (before ++ outcome :: after)))
      (drawdownOf config (orderedGains (before ++ after))) := by
    have hinsert := lowered_insert config (neg_nonneg.mpr h) (front.map (·.pnl)) (back.map (·.pnl))
    rw [neg_neg] at hinsert
    rw [orderedGains, orderedGains, hwith, hwithout, List.map_append, List.map_append, List.map_cons]
    exact hinsert
  refine ⟨?_, ?_, hlowered.maximum, hlowered.fraction⟩
  · change ((before ++ outcome :: after).map (·.pnl)).sum ≤ ((before ++ after).map (·.pnl)).sum
    simp only [List.map_append, List.map_cons, List.sum_append, List.sum_cons]
    linarith
  · rw [factorOf_buildSummary, factorOf_buildSummary, positivesOf_insert h, negativesOf_insert h]
    by_cases hnegatives : negativesOf (before ++ after) > 0
    · have hmore : negativesOf (before ++ after) - outcome.pnl > 0 := by linarith
      rw [if_pos hnegatives, if_pos hmore, WithTop.coe_le_coe]
      exact div_le_div_of_nonneg_left (positivesOf_nonneg _) hnegatives (by linarith)
    · rw [if_neg hnegatives]
      exact le_top

theorem sortedCounts_eq_of_perm {keys keys' : List String} (h : keys'.Perm keys) :
    sortedCounts keys' = sortedCounts keys := by
  have hsorted : sortedBy id keys'.dedup = sortedBy id keys.dedup :=
    sortedBy_eq_of_perm h.dedup (keys.nodup_dedup.imp fun hne => hne)
  rw [sortedCounts, sortedCounts, hsorted]
  exact List.map_congr_left fun key _ => by rw [h.count_eq]

theorem buildSummary_eq_of_perm {outcomes outcomes' : List ReplayOutcome}
    (hdistinct : (outcomes.map ReplayOutcome.candidateSequence).Nodup)
    (h : outcomes'.Perm outcomes) :
    buildSummary config inputRows symbolCount candidates outcomes' =
      buildSummary config inputRows symbolCount candidates outcomes := by
  have hkeys : outcomes.Pairwise fun x y => resolutionKey x ≠ resolutionKey y := by
    refine (List.pairwise_map.mp hdistinct).imp fun hne heq => hne ?_
    exact congrArg (fun key : Int ×ₗ Nat => (ofLex key).2) heq
  have hgains : orderedGains outcomes' = orderedGains outcomes := by
    rw [orderedGains, orderedGains, sortedBy_eq_of_perm h hkeys]
  have hcounts := sortedCounts_eq_of_perm (h.map fun item => item.status.value)
  have hnet := (h.map ReplayOutcome.pnl).sum_eq
  have hpositives := ((h.filter fun item => decide (item.pnl > 0)).map ReplayOutcome.pnl).sum_eq
  have hnegatives := ((h.filter fun item => decide (item.pnl < 0)).map ReplayOutcome.pnl).sum_eq
  have hambiguous := h.countP_eq (·.ambiguous)
  unfold orderedGains resolutionKey at hgains
  unfold buildSummary
  simp only [hgains, hcounts, hnet, hpositives, hnegatives, hambiguous]

/-- An ambiguous outcome of the resolver earns nothing and improves no metric of a summary.
The drawdown is the deepest fall of the equity curve, and the order of the list is free. -/
theorem ambiguous_never_improves :
    (∀ (sequence : Nat) (candidate : SignalCandidate) (plan : TradePlan)
        (rows : List ReplayMarketRow) (outcome : ReplayOutcome),
      candidate.tradePlan = some plan → 0 ≤ plan.estimatedLossAtStop →
      resolveCandidate sequence candidate rows = .ok outcome → outcome.ambiguous = true →
      outcome.pnl ≤ 0 ∧ ∀ before after,
        NoBetter (buildSummary config inputRows symbolCount candidates (before ++ outcome :: after))
          (buildSummary config inputRows symbolCount candidates (before ++ after))) ∧
    (∀ outcomes, IsGreatest (falls config.referenceBalance (orderedGains outcomes))
      (buildSummary config inputRows symbolCount candidates outcomes).maximumDrawdown) ∧
    ∀ outcomes outcomes' : List ReplayOutcome,
      (outcomes.map ReplayOutcome.candidateSequence).Nodup → outcomes'.Perm outcomes →
      buildSummary config inputRows symbolCount candidates outcomes' =
        buildSummary config inputRows symbolCount candidates outcomes := by
  refine ⟨?_, ?_, ?_⟩
  · intro sequence candidate plan rows outcome hplan hloss hresolve hambiguous
    have hpnl := resolveCandidate_conservative hplan hloss hresolve hambiguous
    exact ⟨hpnl, noBetter_insert config inputRows symbolCount candidates hpnl⟩
  · exact fun outcomes => (drawdownOf_curve config (orderedGains outcomes)).2.2
  · exact fun outcomes outcomes' => buildSummary_eq_of_perm config inputRows symbolCount candidates

/-- The stop and the entry lie in one minute. -/
theorem ambiguous_never_improves_sample :
    ∃ outcome, resolveCandidate 1 sampleCandidate [sampleRow 1 102 80 103] = .ok outcome ∧
      outcome.ambiguous = true ∧ outcome.pnl < 0 ∧ ∀ before after,
        NoBetter (buildSummary .standard 1 1 [] (before ++ outcome :: after))
          (buildSummary .standard 1 1 [] (before ++ after)) :=
  ⟨_, rfl, by decide +kernel, by decide +kernel,
    ((ambiguous_never_improves .standard 1 1 []).1 1 sampleCandidate sampleInput.plan
      [sampleRow 1 102 80 103] _ rfl (by decide +kernel) rfl (by decide +kernel)).2⟩

end Summary

section Rounding

/-- `sum(values, Decimal(0))`. -/
def Rounded.total (context : ℚ → ℚ) (values : List ℚ) : Decimal context :=
  values.foldl (fun (sum : Decimal context) (value : ℚ) => sum + (value : Decimal context)) 0

/-- One pass of the loop in rounded arithmetic. -/
def Rounded.addGain (context : ℚ → ℚ) (state : Drawdown) (pnl : ℚ) : Drawdown :=
  let balance := ((state.balance : Decimal context) + (pnl : Decimal context)).value
  let peak := max state.peak balance
  let drawdown := (peak : Decimal context) - (balance : Decimal context)
  { balance := balance
    peak := peak
    maximum := max state.maximum drawdown.value
    maximumFraction :=
      if peak > 0 then max state.maximumFraction (drawdown / (peak : Decimal context)).value
      else state.maximumFraction }

/-- The metrics of the summary in rounded arithmetic; its counts are exact. -/
def Rounded.buildSummary (context : ℚ → ℚ) (config : StrategyConfig) (inputRows symbolCount : Nat)
    (candidates : List ReplayCandidate) (outcomes : List ReplayOutcome) : ReplaySummary :=
  let gains := outcomes.map ReplayOutcome.pnl
  let positives := Rounded.total context (gains.filter fun gain => decide (gain > 0))
  let losses := Rounded.total context (gains.filter fun gain => decide (gain < 0))
  let negatives : Decimal context := ⟨context |losses.value|⟩
  let drawdown := (orderedGains outcomes).foldl (Rounded.addGain context) (initialDrawdown config)
  { Replay.buildSummary config inputRows symbolCount candidates outcomes with
    netProfit := (Rounded.total context gains).value
    profitFactor := if negatives.value > 0 then some (positives / negatives).value else none
    maximumDrawdown := drawdown.maximum
    maximumDrawdownFraction := drawdown.maximumFraction }

theorem total_id (values : List ℚ) : (Rounded.total id values).value = values.sum := by
  suffices hfrom : ∀ start : Decimal id,
      (values.foldl (fun (sum : Decimal id) (value : ℚ) => sum + (value : Decimal id)) start).value =
        start.value + values.sum from (hfrom 0).trans (zero_add _)
  induction values with
  | nil => exact fun start => (add_zero _).symm
  | cons value values ih =>
    intro start
    rw [List.foldl_cons, ih, List.sum_cons, Decimal.value_add, id, add_assoc]

/-- Without rounding this is the summary. -/
theorem roundedSummary_id (config : StrategyConfig) (inputRows symbolCount : Nat)
    (candidates : List ReplayCandidate) (outcomes : List ReplayOutcome) :
    Rounded.buildSummary id config inputRows symbolCount candidates outcomes =
      buildSummary config inputRows symbolCount candidates outcomes := by
  have hfilter : ∀ test : ℚ → Bool, (outcomes.map ReplayOutcome.pnl).filter test =
      (outcomes.filter fun item => test item.pnl).map ReplayOutcome.pnl := fun _ => List.filter_map
  unfold Rounded.buildSummary
  simp only [Decimal.value_div, total_id, hfilter]
  rfl

/-- The minute of the entry reaches the stop. -/
def ambiguousLoss : ReplayOutcome :=
  Rounded.resolveRows defaultContext 1 averagedCandidate averagedPlan
    { currentStop := averagedPlan.stopLoss } [(sampleRow 1 100 98 101).candle]

def resolvedLater (sequence : Nat) (status : ReplayOutcomeStatus) (pnl : ℚ) : ReplayOutcome :=
  { ambiguousLoss with
    candidateSequence := sequence
    status := status
    resolvedAt := some (minutes (10 * sequence))
    pnl := pnl
    ambiguous := false }

def laterGain : ReplayOutcome := resolvedLater 2 .tp2 (112731406410714285714285713 / 10 ^ 24)

def laterLoss : ReplayOutcome := resolvedLater 3 .stopped (-9999403021428571428571428608 / 10 ^ 26)

/-- With 28 digits an ambiguous loss lowers the balance to where a later fall is rounded to
one place more, and so lowers the drawdown; and the net profit depends on the order of
the list. -/
theorem rounding_improves_summary :
    let summary := Rounded.buildSummary defaultContext .standard 0 0 []
    ambiguousLoss.ambiguous = true ∧ ambiguousLoss.pnl < 0 ∧
      (summary [ambiguousLoss, laterGain, laterLoss]).maximumDrawdown <
        (summary [laterGain, laterLoss]).maximumDrawdown ∧
      (summary [ambiguousLoss, laterGain, laterLoss]).netProfit ≠
        (summary [ambiguousLoss, laterLoss, laterGain]).netProfit := by
  decide +kernel

end Rounding

end StructurePulse.Replay
