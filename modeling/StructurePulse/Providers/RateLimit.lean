import StructurePulse.Library.Pacing
import StructurePulse.Library.Tables
import StructurePulse.Library.Transactions
import Mathlib.Algebra.Order.Field.Rat
import Mathlib.Tactic.Linarith
import Mathlib.Tactic.Positivity

/-!
# The rate-limited client

The calls of `BybitClient._get` run concurrently and share one `AdaptiveRateLimiter`. A step is
what one call does between two awaits; instants are those of `time.monotonic`, in seconds.
The schedule lock is never held across an await.
-/

namespace StructurePulse.Providers
open Library
set_option autoImplicit false

section Limiter

structure ClientSettings where
  requestsPerSecond : ℚ
  maxConcurrency : Nat
  maxRetries : Nat
  retryBaseSeconds : ℚ
  rate_pos : 0 < requestsPerSecond
  base_pos : 0 < retryBaseSeconds

def ClientSettings.minimumInterval (settings : ClientSettings) : ℚ := 1 / settings.requestsPerSecond

structure AdaptiveRateLimiter where
  nextRequestAt : ℚ := 0
  blockedUntil : ℚ := 0
  deriving Repr, DecidableEq

inductive Body where
  | invalid
  | notAnObject
  | object (retCode : Option Int)
  deriving Repr, DecidableEq

/-- The headers are numbers, or absent when they are missing or not numbers. -/
structure Response where
  status : Nat
  limitStatus : Option Int := none
  limitReset : Option Int := none
  retryAfter : Option ℚ := none
  body : Body
  deriving Repr, DecidableEq

/-- `_wait_for_schedule` up to the sleep: the instant it sleeps until. -/
def waitForSchedule (settings : ClientSettings) (limiter : AdaptiveRateLimiter) (now : ℚ) :
    ℚ × AdaptiveRateLimiter :=
  let scheduledAt := max (max now limiter.nextRequestAt) limiter.blockedUntil
  (scheduledAt, { limiter with nextRequestAt := scheduledAt + settings.minimumInterval })

def blockFor (limiter : AdaptiveRateLimiter) (delay now : ℚ) : AdaptiveRateLimiter :=
  if delay ≤ 0 then limiter
  else { limiter with blockedUntil := max limiter.blockedUntil (now + delay) }

/-- `wallClock` is `time.time`. -/
def observeHeaders (limiter : AdaptiveRateLimiter) (response : Response) (wallClock now : ℚ) :
    AdaptiveRateLimiter :=
  match response.limitStatus, response.limitReset with
  | some remaining, some reset =>
    if remaining > 0 then limiter
    else
      let delay := max 0 ((reset : ℚ) / 1000 - wallClock)
      if delay > 0 then blockFor limiter delay now else limiter
  | _, _ => limiter

/-- `random.uniform` is a fraction of its range. -/
def retryDelay (settings : ClientSettings) (attempt : Nat) (response : Response) (ipBan : Bool)
    (wallClock jitter : ℚ) : ℚ :=
  let resetDelay := match response.limitReset with
    | some reset => if reset = 0 then 0 else max 0 ((reset : ℚ) / 1000 - wallClock)
    | none => 0
  let exponential := settings.retryBaseSeconds * 2 ^ attempt
  let officialIpWait := if ipBan then 600 else 0
  max (max (max (response.retryAfter.getD 0) resetDelay) (exponential + jitter * (exponential / 4)))
    officialIpWait

end Limiter

section Calls

/-- How `_get` ends: with its payload, `BybitRateLimitError`, a failed request, or the answer
that is no object. -/
inductive GetOutcome where
  | payload
  | rateLimited
  | failed
  | notAnObject
  deriving Repr, DecidableEq

inductive Verdict where
  | ended (outcome : GetOutcome)
  | retry (ipBan : Bool)
  deriving Repr, DecidableEq

/-- The code in the payload and the status; `raise_for_status` lets the 2xx pass. -/
def examinePayload (settings : ClientSettings) (attempt : Nat) (response : Response)
    (retCode : Option Int) : Verdict :=
  let ipBan := response.status == 403
  let rateLimited := response.status == 429 || retCode == some 10006
  if rateLimited || ipBan then
    if settings.maxRetries ≤ attempt then .ended .rateLimited else .retry ipBan
  else if 200 ≤ response.status ∧ response.status < 300 then .ended .payload
  else .ended .failed

/-- What `_get` makes of a response. -/
def verdict (settings : ClientSettings) (attempt : Nat) (response : Response) : Verdict :=
  match response.body with
  | .invalid =>
    if response.status = 403 ∨ response.status = 429 then examinePayload settings attempt response none
    else .ended .failed
  | .notAnObject => .ended .notAnObject
  | .object retCode => examinePayload settings attempt response retCode

/-- Where a call of `_get` stands. -/
inductive CallPhase where
  | asking (attempt : Nat)
  | scheduled (attempt : Nat) (slot : ℚ)
  | inFlight (attempt : Nat)
  | answered (attempt : Nat) (response : Response)
  | backingOff (attempt : Nat) (wakeAt : ℚ)
  | ended (outcome : GetOutcome)
  | cancelled
  deriving Repr, DecidableEq

def CallPhase.isInFlight : CallPhase → Bool
  | .inFlight _ => true
  | _ => false

/-- A request as it left: the call, its attempt and the instant. -/
structure Request where
  call : Nat
  attempt : Nat
  sentAt : ℚ
  deriving Repr, DecidableEq

/-- `slots` are the instants the limiter gave, `requests` what was sent, both in this order. -/
structure ClientWorld where
  limiter : AdaptiveRateLimiter := {}
  calls : List CallPhase := []
  clock : ℚ
  slots : List ℚ := []
  requests : List Request := []
  deriving Repr, DecidableEq

inductive CallAction where
  | schedule
  | send
  | answer (response : Response)
  | fail
  | settle (wallClock jitter : ℚ)
  | wake
  | cancel

inductive ClientAction where
  | call
  | act (index : Nat) (action : CallAction) (now : ℚ)

def ClientWorld.setCall (world : ClientWorld) (index : Nat) (phase : CallPhase) : ClientWorld :=
  { world with calls := world.calls.set index phase }

/-- The next step of the call at a position, at the world's clock. -/
def callStep (settings : ClientSettings) (world : ClientWorld) (index : Nat) :
    CallPhase → CallAction → Except Unit ClientWorld
  | .asking attempt, .schedule =>
    let scheduled := waitForSchedule settings world.limiter world.clock
    .ok { world.setCall index (.scheduled attempt scheduled.1) with
      limiter := scheduled.2
      slots := world.slots ++ [scheduled.1] }
  | .scheduled attempt slot, .send =>
    -- the sleep is over and the semaphore is free
    if slot ≤ world.clock ∧ world.calls.countP CallPhase.isInFlight < settings.maxConcurrency then
      .ok { world.setCall index (.inFlight attempt) with
        requests := world.requests ++ [⟨index, attempt, world.clock⟩] }
    else .error ()
  | .inFlight attempt, .answer response => .ok (world.setCall index (.answered attempt response))
  | .inFlight _, .fail => .ok (world.setCall index (.ended .failed))
  | .answered attempt response, .settle wallClock jitter =>
    if 0 ≤ jitter ∧ jitter ≤ 1 then
      let limiter := observeHeaders world.limiter response wallClock world.clock
      match verdict settings attempt response with
      | .ended outcome => .ok { world.setCall index (.ended outcome) with limiter := limiter }
      | .retry ipBan =>
        let delay := retryDelay settings attempt response ipBan wallClock jitter
        .ok { world.setCall index (.backingOff attempt (world.clock + delay)) with
          limiter := blockFor limiter delay world.clock }
    else .error ()
  | .backingOff attempt wakeAt, .wake =>
    if wakeAt ≤ world.clock then
      -- the loop over the attempts
      if attempt < settings.maxRetries then .ok (world.setCall index (.asking (attempt + 1)))
      else .ok (world.setCall index (.ended .rateLimited))
    else .error ()
  | .ended _, .cancel => .error ()
  | .cancelled, .cancel => .error ()
  | _, .cancel => .ok (world.setCall index .cancelled)
  | _, _ => .error ()

/-- The clock never goes back. -/
def step (settings : ClientSettings) (world : ClientWorld) :
    ClientAction → Except Unit ClientWorld
  | .call => .ok { world with calls := world.calls ++ [.asking 0] }
  | .act index action now =>
    match world.calls[index]? with
    | none => .error ()
    | some phase =>
      if world.clock ≤ now then callStep settings { world with clock := now } index phase action
      else .error ()

end Calls

section Limits
variable {settings : ClientSettings} {limiter : AdaptiveRateLimiter}

theorem ClientSettings.minimumInterval_pos (settings : ClientSettings) :
    0 < settings.minimumInterval := one_div_pos.mpr settings.rate_pos

theorem blockFor_next (delay now : ℚ) :
    (blockFor limiter delay now).nextRequestAt = limiter.nextRequestAt := by
  unfold blockFor
  split <;> rfl

theorem le_blockFor (delay now : ℚ) :
    limiter.blockedUntil ≤ (blockFor limiter delay now).blockedUntil := by
  unfold blockFor
  split
  · exact le_rfl
  · exact le_max_left _ _

theorem observeHeaders_next (response : Response) (wallClock now : ℚ) :
    (observeHeaders limiter response wallClock now).nextRequestAt = limiter.nextRequestAt := by
  unfold observeHeaders
  split
  · split
    · rfl
    · simp only
      split
      · exact blockFor_next _ _
      · rfl
  · rfl

theorem le_observeHeaders (response : Response) (wallClock now : ℚ) :
    limiter.blockedUntil ≤ (observeHeaders limiter response wallClock now).blockedUntil := by
  unfold observeHeaders
  split
  · split
    · exact le_rfl
    · simp only
      split
      · exact le_blockFor _ _
      · exact le_rfl
  · exact le_rfl

/-- The wait before the next attempt is at least the exponential part. -/
theorem le_retryDelay {attempt : Nat} {response : Response} {ipBan : Bool} {wallClock jitter : ℚ}
    (hjitter : 0 ≤ jitter) : settings.retryBaseSeconds * 2 ^ attempt ≤
      retryDelay settings attempt response ipBan wallClock jitter := by
  have hpositive : 0 < settings.retryBaseSeconds * 2 ^ attempt :=
    mul_pos settings.base_pos (pow_pos two_pos attempt)
  have hadded : 0 ≤ jitter * (settings.retryBaseSeconds * 2 ^ attempt / 4) := by positivity
  unfold retryDelay
  simp only
  refine le_max_of_le_left (le_max_of_le_right ?_)
  exact le_add_of_nonneg_right hadded

end Limits

section Steps
variable {settings : ClientSettings} {world next : ClientWorld}

/-- The instant a call waits for. -/
def CallPhase.waitsUntil (bound : ℚ) : CallPhase → Bool
  | .scheduled _ slot => decide (slot ≤ bound)
  | _ => false

def ClientWorld.waiting (world : ClientWorld) (bound : ℚ) : Nat :=
  world.calls.countP (CallPhase.waitsUntil bound)

def ClientWorld.inFlight (world : ClientWorld) : Nat := world.calls.countP CallPhase.isInFlight

/-- A count over the calls after one of them has moved. -/
theorem countP_setCall {p : CallPhase → Bool} {calls : List CallPhase} {index : Nat}
    {phase after : CallPhase} (hphase : calls[index]? = some phase) :
    (calls.set index after).countP p + (if p phase then 1 else 0) =
      calls.countP p + if p after then 1 else 0 := by
  obtain ⟨hindex, hget⟩ := List.getElem?_eq_some_iff.mp hphase
  rw [List.countP_set hindex, hget]
  have hcounted : p phase = true → 0 < calls.countP p := by
    intro hp
    exact List.countP_pos_iff.mpr ⟨phase, List.mem_of_getElem? hphase, hp⟩
  by_cases hp : p phase = true
  · have hpositive := hcounted hp
    rw [if_pos hp]
    omega
  · rw [if_neg hp]
    omega

/-- What a step of a call does to the limiter, the slots and the requests: it asks for a slot,
sends its request at the slot or later, or moves on and may block the limiter. -/
theorem callStep_cases {index : Nat} {phase : CallPhase} {action : CallAction}
    (h : callStep settings world index phase action = .ok next) :
    (∃ attempt, phase = .asking attempt ∧
      next = { world.setCall index
          (.scheduled attempt (waitForSchedule settings world.limiter world.clock).1) with
        limiter := (waitForSchedule settings world.limiter world.clock).2
        slots := world.slots ++ [(waitForSchedule settings world.limiter world.clock).1] }) ∨
    (∃ attempt slot, phase = .scheduled attempt slot ∧ slot ≤ world.clock ∧
      world.inFlight < settings.maxConcurrency ∧
      next = { world.setCall index (.inFlight attempt) with
        requests := world.requests ++ [⟨index, attempt, world.clock⟩] }) ∨
    ∃ after limiter, after.isInFlight = false ∧ (∀ bound, after.waitsUntil bound = false) ∧
      limiter.nextRequestAt = world.limiter.nextRequestAt ∧
      world.limiter.blockedUntil ≤ limiter.blockedUntil ∧
      next = { world.setCall index after with limiter := limiter } := by
  cases phase with
  | asking attempt =>
    cases action with
    | schedule =>
      cases h
      exact Or.inl ⟨attempt, rfl, rfl⟩
    | cancel =>
      cases h
      exact Or.inr (Or.inr ⟨_, _, rfl, fun _ => rfl, rfl, le_rfl, rfl⟩)
    | _ => cases h
  | scheduled attempt slot =>
    cases action with
    | send =>
      simp only [callStep] at h
      split at h
      · rename_i hfree
        cases h
        exact Or.inr (Or.inl ⟨attempt, slot, rfl, hfree.1, hfree.2, rfl⟩)
      · cases h
    | cancel =>
      cases h
      exact Or.inr (Or.inr ⟨_, _, rfl, fun _ => rfl, rfl, le_rfl, rfl⟩)
    | _ => cases h
  | inFlight attempt =>
    cases action with
    | answer response =>
      cases h
      exact Or.inr (Or.inr ⟨_, _, rfl, fun _ => rfl, rfl, le_rfl, rfl⟩)
    | fail =>
      cases h
      exact Or.inr (Or.inr ⟨_, _, rfl, fun _ => rfl, rfl, le_rfl, rfl⟩)
    | cancel =>
      cases h
      exact Or.inr (Or.inr ⟨_, _, rfl, fun _ => rfl, rfl, le_rfl, rfl⟩)
    | _ => cases h
  | answered attempt response =>
    cases action with
    | settle wallClock jitter =>
      have hnext := @observeHeaders_next world.limiter response wallClock world.clock
      have hblocked := @le_observeHeaders world.limiter response wallClock world.clock
      simp only [callStep] at h
      split at h
      · split at h
        · cases h
          exact Or.inr (Or.inr ⟨_, _, rfl, fun _ => rfl, hnext, hblocked, rfl⟩)
        · cases h
          exact Or.inr (Or.inr ⟨_, _, rfl, fun _ => rfl, (blockFor_next _ _).trans hnext,
            hblocked.trans (le_blockFor _ _), rfl⟩)
      · cases h
    | cancel =>
      cases h
      exact Or.inr (Or.inr ⟨_, _, rfl, fun _ => rfl, rfl, le_rfl, rfl⟩)
    | _ => cases h
  | backingOff attempt wakeAt =>
    cases action with
    | wake =>
      simp only [callStep] at h
      split at h
      · split at h
        · cases h
          exact Or.inr (Or.inr ⟨_, _, rfl, fun _ => rfl, rfl, le_rfl, rfl⟩)
        · cases h
          exact Or.inr (Or.inr ⟨_, _, rfl, fun _ => rfl, rfl, le_rfl, rfl⟩)
      · cases h
    | cancel =>
      cases h
      exact Or.inr (Or.inr ⟨_, _, rfl, fun _ => rfl, rfl, le_rfl, rfl⟩)
    | _ => cases h
  | ended outcome => cases action <;> cases h
  | cancelled => cases action <;> cases h

end Steps

section Pacing
variable {settings : ClientSettings} {start : ℚ} {world next : ClientWorld}

/-- The requests that left up to an instant, and the calls that wait for one, have a slot up
to it each. -/
structure Limited (settings : ClientSettings) (start : ℚ) (world : ClientWorld) : Prop where
  clock : start ≤ world.clock
  paced : Paced settings.minimumInterval world.slots
  next : ∀ slot ∈ world.slots, slot + settings.minimumInterval ≤ world.limiter.nextRequestAt
  started : ∀ slot ∈ world.slots, start ≤ slot
  served : ∀ bound, countUntil (world.requests.map Request.sentAt) bound + world.waiting bound ≤
    countUntil world.slots bound
  inFlight : world.inFlight ≤ settings.maxConcurrency

theorem limited_initial (start : ℚ) : Limited settings start { clock := start } := by
  refine ⟨le_rfl, List.isChain_nil, ?_, ?_, ?_, Nat.zero_le _⟩
  · intro slot hslot
    cases hslot
  · intro slot hslot
    cases hslot
  · intro bound
    exact Nat.zero_le _

theorem Limited.later (h : Limited settings start world) {now : ℚ} (hnow : world.clock ≤ now) :
    Limited settings start { world with clock := now } :=
  ⟨h.clock.trans hnow, h.paced, h.next, h.started, h.served, h.inFlight⟩

theorem Limited.called (h : Limited settings start world) :
    Limited settings start { world with calls := world.calls ++ [.asking 0] } := by
  refine ⟨h.clock, h.paced, h.next, h.started, ?_, ?_⟩
  · intro bound
    have hwaiting : (world.calls ++ [CallPhase.asking 0]).countP (CallPhase.waitsUntil bound) =
        world.waiting bound := List.countP_append
    unfold ClientWorld.waiting
    rw [hwaiting]
    exact h.served bound
  · have hflight : (world.calls ++ [CallPhase.asking 0]).countP CallPhase.isInFlight =
        world.inFlight := List.countP_append
    unfold ClientWorld.inFlight
    rw [hflight]
    exact h.inFlight

theorem Limited.stepped (h : Limited settings start world) {index : Nat} {phase : CallPhase}
    {action : CallAction} (hphase : world.calls[index]? = some phase)
    (hstep : callStep settings world index phase action = .ok next) :
    Limited settings start next := by
  have hwaiting : ∀ after bound, (world.calls.set index after).countP (CallPhase.waitsUntil bound) +
      (if phase.waitsUntil bound then 1 else 0) =
        world.waiting bound + if after.waitsUntil bound then 1 else 0 :=
    fun after bound => countP_setCall hphase
  have hflight : ∀ after, (world.calls.set index after).countP CallPhase.isInFlight +
      (if phase.isInFlight then 1 else 0) = world.inFlight + if after.isInFlight then 1 else 0 :=
    fun after => countP_setCall hphase
  rcases callStep_cases hstep with ⟨attempt, rfl, rfl⟩ | ⟨attempt, slot, rfl, hslot, hfree, rfl⟩ |
    ⟨after, limiter, hafter, hwaits, hnext, -, rfl⟩
  · -- a slot is given
    have hgiven : world.clock ≤ (waitForSchedule settings world.limiter world.clock).1 :=
      le_max_of_le_left (le_max_left _ _)
    have hlast : ∀ slot ∈ world.slots, slot + settings.minimumInterval ≤
        (waitForSchedule settings world.limiter world.clock).1 := by
      intro slot hslot
      exact (h.next slot hslot).trans (le_max_of_le_left (le_max_right _ _))
    refine ⟨h.clock, h.paced.snoc hlast, ?_, ?_, ?_, ?_⟩
    · apply forall_mem_append_singleton
      · intro slot hslot
        have hpositive := settings.minimumInterval_pos
        exact (hlast slot hslot).trans (le_add_of_nonneg_right hpositive.le)
      · exact le_rfl
    · exact forall_mem_append_singleton h.started (h.clock.trans hgiven)
    · intro bound
      have hserved := h.served bound
      have hcount := hwaiting (.scheduled attempt
        (waitForSchedule settings world.limiter world.clock).1) bound
      simp only [CallPhase.waitsUntil, Bool.false_eq_true, if_false, decide_eq_true_eq] at hcount
      rw [countUntil_snoc]
      simp only [ClientWorld.setCall, ClientWorld.waiting] at hserved hcount ⊢
      omega
    · have hcount := hflight (.scheduled attempt
        (waitForSchedule settings world.limiter world.clock).1)
      have hbound := h.inFlight
      simp only [CallPhase.isInFlight, Bool.false_eq_true, if_false] at hcount
      simp only [ClientWorld.setCall, ClientWorld.inFlight] at hbound hcount ⊢
      omega
  · -- a request is sent
    refine ⟨h.clock, h.paced, h.next, h.started, ?_, ?_⟩
    · intro bound
      have hserved := h.served bound
      have hcount := hwaiting (.inFlight attempt) bound
      simp only [CallPhase.waitsUntil, Bool.false_eq_true, if_false, decide_eq_true_eq] at hcount
      have hlater : (if world.clock ≤ bound then 1 else 0) ≤ if slot ≤ bound then 1 else 0 := by
        by_cases hbound : world.clock ≤ bound
        · rw [if_pos hbound, if_pos (hslot.trans hbound)]
        · rw [if_neg hbound]
          exact Nat.zero_le _
      rw [List.map_append, List.map_singleton, countUntil_snoc]
      simp only [ClientWorld.setCall, ClientWorld.waiting] at hserved hcount ⊢
      omega
    · have hcount := hflight (.inFlight attempt)
      simp only [CallPhase.isInFlight, Bool.false_eq_true, if_false, if_true] at hcount
      simp only [ClientWorld.setCall, ClientWorld.inFlight] at hfree hcount ⊢
      omega
  · refine ⟨h.clock, h.paced, ?_, h.started, ?_, ?_⟩
    · rw [hnext]
      exact h.next
    · intro bound
      have hserved := h.served bound
      have hcount := hwaiting after bound
      rw [hwaits bound] at hcount
      simp only [ClientWorld.setCall, ClientWorld.waiting, Bool.false_eq_true, if_false] at hserved hcount ⊢
      omega
    · have hcount := hflight after
      have hbound := h.inFlight
      rw [hafter] at hcount
      simp only [ClientWorld.setCall, ClientWorld.inFlight, Bool.false_eq_true, if_false] at hbound hcount ⊢
      omega

/-- Between two states the slots only grow, by slots outside of the time of a block. -/
structure Extends (world next : ClientWorld) : Prop where
  blocked : world.limiter.blockedUntil ≤ next.limiter.blockedUntil
  slots : ∃ more, next.slots = world.slots ++ more ∧
    ∀ slot ∈ more, world.limiter.blockedUntil ≤ slot

theorem Extends.refl (world : ClientWorld) : Extends world world := by
  refine ⟨le_rfl, [], (List.append_nil _).symm, ?_⟩
  intro slot hslot
  cases hslot

theorem Extends.trans {middle : ClientWorld} (h : Extends world middle) (h' : Extends middle next) :
    Extends world next := by
  obtain ⟨more, hmore, hblocked⟩ := h.slots
  obtain ⟨others, hothers, hblocked'⟩ := h'.slots
  refine ⟨h.blocked.trans h'.blocked, more ++ others, ?_, ?_⟩
  · rw [hothers, hmore, List.append_assoc]
  · intro slot hslot
    rcases List.mem_append.mp hslot with hslot | hslot
    · exact hblocked slot hslot
    · exact h.blocked.trans (hblocked' slot hslot)

theorem extends_callStep {index : Nat} {phase : CallPhase} {action : CallAction}
    (hstep : callStep settings world index phase action = .ok next) : Extends world next := by
  rcases callStep_cases hstep with ⟨attempt, rfl, rfl⟩ | ⟨attempt, slot, rfl, hslot, hfree, rfl⟩ |
    ⟨after, limiter, -, -, -, hblocked, rfl⟩
  · refine ⟨le_rfl, _, rfl, ?_⟩
    intro slot hslot
    rw [List.mem_singleton.mp hslot]
    exact le_max_right _ _
  · exact ⟨le_rfl, (Extends.refl world).slots⟩
  · exact ⟨hblocked, (Extends.refl world).slots⟩

theorem step_ok {action : ClientAction} (h : step settings world action = .ok next) :
    next = { world with calls := world.calls ++ [.asking 0] } ∨
    ∃ index phase act now, world.calls[index]? = some phase ∧ world.clock ≤ now ∧
      callStep settings { world with clock := now } index phase act = .ok next := by
  cases action with
  | call =>
    cases h
    exact Or.inl rfl
  | act index act now =>
    simp only [step] at h
    split at h
    · cases h
    · rename_i phase hphase
      split at h
      · rename_i hnow
        exact Or.inr ⟨index, phase, act, now, hphase, hnow, h⟩
      · cases h

theorem extends_step {action : ClientAction} (h : step settings world action = .ok next) :
    Extends world next := by
  rcases step_ok h with rfl | ⟨index, phase, act, now, -, -, hstep⟩
  · exact ⟨le_rfl, (Extends.refl world).slots⟩
  · have hextends := extends_callStep hstep
    exact ⟨hextends.blocked, hextends.slots⟩

theorem Limited.step (h : Limited settings start world) {action : ClientAction}
    (hstep : Providers.step settings world action = .ok next) : Limited settings start next := by
  rcases step_ok hstep with rfl | ⟨index, phase, act, now, hphase, hnow, hstep⟩
  · exact h.called
  · exact (h.later hnow).stepped hphase hstep

theorem extends_runAll (world : ClientWorld) (actions : List ClientAction) :
    Extends world (runAll (Providers.step settings) world actions) := by
  refine runAll_invariant (P := Extends world) ?_ (Extends.refl world) actions
  intro before action after h hstep
  exact h.trans (extends_step hstep)

/-- In every interleaving of the calls: two slots lie at least the minimum interval apart; up to
any instant at most one request more has left than the rate allows since the start; at most
`max_concurrency` requests are in flight; and while a block lasts no slot is given out. -/
theorem requests_paced (settings : ClientSettings) (start : ℚ) (actions : List ClientAction) :
    let world := runAll (Providers.step settings) { clock := start } actions
    Paced settings.minimumInterval world.slots ∧
    (∀ bound, start ≤ bound → (countUntil (world.requests.map Request.sentAt) bound : ℚ) ≤
      (bound - start) * settings.requestsPerSecond + 1) ∧
    world.inFlight ≤ settings.maxConcurrency ∧
    ∀ before after, before ++ after = actions →
      let earlier := runAll (Providers.step settings) { clock := start } before
      ∃ more, world.slots = earlier.slots ++ more ∧
        ∀ slot ∈ more, earlier.limiter.blockedUntil ≤ slot := by
  intro world
  have hlimited : Limited settings start world :=
    runAll_invariant (fun _ _ _ h hstep => h.step hstep) (limited_initial start) actions
  refine ⟨hlimited.paced, ?_, hlimited.inFlight, ?_⟩
  · intro bound hbound
    have hslots := hlimited.paced.countUntil_le_of_start settings.minimumInterval_pos.le
      hlimited.started hbound
    have hserved : countUntil (world.requests.map Request.sentAt) bound ≤
        countUntil world.slots bound := le_trans (Nat.le_add_right _ _) (hlimited.served bound)
    have hrate : ((countUntil world.slots bound - 1 : Nat) : ℚ) ≤
        (bound - start) * settings.requestsPerSecond := by
      rw [nsmul_eq_mul] at hslots
      unfold ClientSettings.minimumInterval at hslots
      rw [← div_le_iff₀ settings.rate_pos, div_eq_mul_one_div]
      linarith
    have hcount : countUntil (world.requests.map Request.sentAt) bound ≤
        countUntil world.slots bound - 1 + 1 := by omega
    calc (countUntil (world.requests.map Request.sentAt) bound : ℚ)
        ≤ ((countUntil world.slots bound - 1 + 1 : Nat) : ℚ) := by exact_mod_cast hcount
      _ = ((countUntil world.slots bound - 1 : Nat) : ℚ) + 1 := Nat.cast_succ _
      _ ≤ (bound - start) * settings.requestsPerSecond + 1 := add_le_add_left hrate 1
  · intro before after hactions earlier
    have hrun : world = runAll (Providers.step settings) earlier after := by
      rw [← runAll_append, hactions]
    rw [hrun]
    exact (extends_runAll earlier after).slots

/-- The first of two calls is told to wait; the slot of the second stays where it was. -/
example :
    let settings : ClientSettings := ⟨8, 1, 1, 1 / 2, by norm_num, by norm_num⟩
    (runAll (Providers.step settings) { clock := 0 }
      [.call, .call, .act 0 .schedule 0, .act 1 .schedule 0, .act 0 .send 0,
        .act 0 (.answer { status := 429, body := .invalid }) 1, .act 0 (.settle 0 0) 1,
        .act 1 .send 1, .act 0 .wake 2, .act 0 .schedule 2]).slots = [0, 1 / 8, 2] := by
  decide +kernel

end Pacing

section Retries
variable {settings : ClientSettings} {world next : ClientWorld} {clock : ℚ} {own : List Request}

def requestsOf (requests : List Request) (index : Nat) : List Request :=
  requests.filter fun request => request.call == index

/-- The earliest instant at which the next attempt may follow. -/
def Request.due (settings : ClientSettings) (request : Request) : ℚ :=
  request.sentAt + settings.retryBaseSeconds * 2 ^ request.attempt

/-- The attempts are numbered from 0, and each waited for the exponential back-off of the one
before it. -/
structure Spaced (settings : ClientSettings) (own : List Request) : Prop where
  attempts : own.map Request.attempt = List.range own.length
  spaced : own.IsChain fun earlier later => earlier.due settings ≤ later.sentAt
  bounded : own.length ≤ settings.maxRetries + 1

/-- What the phase of a call says about its requests. -/
def CallPhase.Follows (settings : ClientSettings) (clock : ℚ) (own : List Request) :
    CallPhase → Prop
  | .asking attempt => own.length = attempt ∧ attempt ≤ settings.maxRetries ∧
      ∀ last ∈ own.getLast?, last.due settings ≤ clock
  | .scheduled attempt slot => own.length = attempt ∧ attempt ≤ settings.maxRetries ∧
      ∀ last ∈ own.getLast?, last.due settings ≤ slot
  | .inFlight attempt | .answered attempt _ => attempt ≤ settings.maxRetries ∧
      own.length = attempt + 1 ∧ ∀ last ∈ own.getLast?, last.attempt = attempt ∧ last.sentAt ≤ clock
  | .backingOff attempt wakeAt => attempt < settings.maxRetries ∧ own.length = attempt + 1 ∧
      ∀ last ∈ own.getLast?, last.due settings ≤ wakeAt
  | .ended outcome => outcome = .rateLimited → own.length = settings.maxRetries + 1
  | .cancelled => True

theorem CallPhase.Follows.later {phase : CallPhase} (h : phase.Follows settings clock own) {now : ℚ}
    (hnow : clock ≤ now) : phase.Follows settings now own := by
  cases phase with
  | asking attempt => exact ⟨h.1, h.2.1, fun last hlast => (h.2.2 last hlast).trans hnow⟩
  | inFlight attempt | answered attempt response =>
    exact ⟨h.1, h.2.1, fun last hlast =>
      ⟨(h.2.2 last hlast).1, (h.2.2 last hlast).2.trans hnow⟩⟩
  | scheduled _ _ | backingOff _ _ | ended _ | cancelled => exact h

theorem Spaced.snoc (h : Spaced settings own) {request : Request}
    (hattempt : request.attempt = own.length) (hbound : own.length ≤ settings.maxRetries)
    (hdue : ∀ last ∈ own.getLast?, last.due settings ≤ request.sentAt) :
    Spaced settings (own ++ [request]) := by
  refine ⟨?_, ?_, ?_⟩
  · rw [List.map_append, List.map_singleton, h.attempts, hattempt, List.length_append,
      List.length_singleton, List.range_succ]
  · apply List.IsChain.append h.spaced (List.isChain_singleton request)
    intro earlier hearlier later hlater
    cases hlater
    exact hdue earlier hearlier
  · rw [List.length_append, List.length_singleton]
    omega

/-- The requests of the call at a position fit its phase. -/
def Numbered (settings : ClientSettings) (world : ClientWorld) (index : Nat) : Prop :=
  Spaced settings (requestsOf world.requests index) ∧
    ∀ phase ∈ world.calls[index]?, phase.Follows settings world.clock (requestsOf world.requests index)

structure Retried (settings : ClientSettings) (world : ClientWorld) : Prop where
  numbered : ∀ index, Numbered settings world index
  known : ∀ request ∈ world.requests, request.call < world.calls.length

theorem requestsOf_append_own (requests : List Request) {index : Nat} {added : List Request}
    (h : ∀ request ∈ added, request.call = index) :
    requestsOf (requests ++ added) index = requestsOf requests index ++ added := by
  unfold requestsOf
  rw [List.filter_append]
  congr 1
  apply List.filter_eq_self.mpr
  intro request hrequest
  exact beq_iff_eq.mpr (h request hrequest)

theorem requestsOf_append_other (requests : List Request) {index : Nat} {added : List Request}
    (h : ∀ request ∈ added, request.call ≠ index) :
    requestsOf (requests ++ added) index = requestsOf requests index := by
  have hnone : requestsOf added index = [] := by
    apply List.filter_eq_nil_iff.mpr
    intro request hrequest hcall
    exact h request hrequest (beq_iff_eq.mp hcall)
  unfold requestsOf at hnone ⊢
  rw [List.filter_append, hnone, List.append_nil]

/-- A retry is refused in the last attempt only. -/
def Verdict.Within (settings : ClientSettings) (attempt : Nat) : Verdict → Prop
  | .ended outcome => outcome = .rateLimited → settings.maxRetries ≤ attempt
  | .retry _ => attempt < settings.maxRetries

theorem examinePayload_within (settings : ClientSettings) (attempt : Nat) (response : Response)
    (retCode : Option Int) :
    (examinePayload settings attempt response retCode).Within settings attempt := by
  unfold examinePayload
  simp only
  split
  · split
    · rename_i hlast
      exact fun _ => hlast
    · rename_i hmore
      exact Nat.lt_of_not_le hmore
  · split
    · intro h
      cases h
    · intro h
      cases h

theorem verdict_within (settings : ClientSettings) (attempt : Nat) (response : Response) :
    (verdict settings attempt response).Within settings attempt := by
  unfold verdict
  split
  · split
    · exact examinePayload_within settings attempt response none
    · intro h
      cases h
  · intro h
    cases h
  · exact examinePayload_within settings attempt response _

/-- What a step of a call adds to its requests, and the phase that follows. -/
theorem callStep_numbered {index : Nat} {phase : CallPhase} {action : CallAction}
    (hphase : phase.Follows settings world.clock (requestsOf world.requests index))
    (hspaced : Spaced settings (requestsOf world.requests index))
    (h : callStep settings world index phase action = .ok next) :
    ∃ after added, next.calls = world.calls.set index after ∧ next.clock = world.clock ∧
      next.requests = world.requests ++ added ∧ (∀ request ∈ added, request.call = index) ∧
      Spaced settings (requestsOf world.requests index ++ added) ∧
      after.Follows settings world.clock (requestsOf world.requests index ++ added) := by
  -- every step but a send adds no request
  have hquiet : ∀ after : CallPhase, next.calls = world.calls.set index after →
      next.clock = world.clock → next.requests = world.requests →
      after.Follows settings world.clock (requestsOf world.requests index) →
      ∃ after added, next.calls = world.calls.set index after ∧ next.clock = world.clock ∧
        next.requests = world.requests ++ added ∧ (∀ request ∈ added, request.call = index) ∧
        Spaced settings (requestsOf world.requests index ++ added) ∧
        after.Follows settings world.clock (requestsOf world.requests index ++ added) := by
    intro after hcalls hclock hrequests hafter
    refine ⟨after, [], hcalls, hclock, ?_, ?_, ?_, ?_⟩
    · rw [hrequests, List.append_nil]
    · intro request hrequest
      cases hrequest
    · rw [List.append_nil]
      exact hspaced
    · rw [List.append_nil]
      exact hafter
  cases phase with
  | asking attempt =>
    cases action with
    | schedule =>
      cases h
      apply hquiet _ rfl rfl rfl
      refine ⟨hphase.1, hphase.2.1, ?_⟩
      intro last hlast
      exact (hphase.2.2 last hlast).trans (le_max_of_le_left (le_max_left _ _))
    | cancel =>
      cases h
      exact hquiet .cancelled rfl rfl rfl trivial
    | _ => cases h
  | scheduled attempt slot =>
    cases action with
    | send =>
      simp only [callStep] at h
      split at h
      · rename_i hfree
        cases h
        obtain ⟨hlength, hbound, hdue⟩ := hphase
        refine ⟨.inFlight attempt, [⟨index, attempt, world.clock⟩], rfl, rfl, rfl, ?_, ?_, ?_⟩
        · intro request hrequest
          rw [List.mem_singleton.mp hrequest]
        · apply hspaced.snoc hlength.symm
          · omega
          · intro last hlast
            exact (hdue last hlast).trans hfree.1
        · refine ⟨hbound, ?_, ?_⟩
          · rw [List.length_append, List.length_singleton, hlength]
          · intro last hlast
            rw [List.getLast?_concat] at hlast
            cases hlast
            exact ⟨rfl, le_rfl⟩
      · cases h
    | cancel =>
      cases h
      exact hquiet .cancelled rfl rfl rfl trivial
    | _ => cases h
  | inFlight attempt =>
    cases action with
    | answer response =>
      cases h
      exact hquiet (.answered attempt response) rfl rfl rfl hphase
    | fail =>
      cases h
      apply hquiet (.ended .failed) rfl rfl rfl
      intro houtcome
      cases houtcome
    | cancel =>
      cases h
      exact hquiet .cancelled rfl rfl rfl trivial
    | _ => cases h
  | answered attempt response =>
    obtain ⟨hbound, hlength, hlast⟩ := hphase
    have hwithin := verdict_within settings attempt response
    cases action with
    | settle wallClock jitter =>
      simp only [callStep] at h
      split at h
      · rename_i hjitter
        split at h
        · rename_i outcome hverdict
          rw [hverdict] at hwithin
          cases h
          apply hquiet (.ended outcome) rfl rfl rfl
          intro houtcome
          have hattempts : settings.maxRetries ≤ attempt := hwithin houtcome
          omega
        · rename_i ipBan hverdict
          rw [hverdict] at hwithin
          cases h
          apply hquiet (.backingOff attempt _) rfl rfl rfl
          refine ⟨hwithin, hlength, ?_⟩
          intro last hmem
          obtain ⟨hattempt, hsent⟩ := hlast last hmem
          unfold Request.due
          rw [hattempt]
          exact add_le_add hsent (le_retryDelay hjitter.1)
      · cases h
    | cancel =>
      cases h
      exact hquiet .cancelled rfl rfl rfl trivial
    | _ => cases h
  | backingOff attempt wakeAt =>
    obtain ⟨hbound, hlength, hlast⟩ := hphase
    cases action with
    | wake =>
      simp only [callStep] at h
      split at h
      · rename_i hawake
        cases h
        apply hquiet (.asking (attempt + 1)) rfl rfl rfl
        refine ⟨hlength, hbound, ?_⟩
        intro last hmem
        exact (hlast last hmem).trans hawake
      · cases h
    | cancel =>
      cases h
      exact hquiet .cancelled rfl rfl rfl trivial
    | _ => cases h
  | ended outcome => cases action <;> cases h
  | cancelled => cases action <;> cases h

theorem retried_initial (start : ℚ) : Retried settings { clock := start } := by
  constructor
  · intro index
    refine ⟨⟨rfl, List.isChain_nil, Nat.zero_le _⟩, ?_⟩
    intro phase hphase
    cases hphase
  · intro request hrequest
    cases hrequest

theorem Retried.later (h : Retried settings world) {now : ℚ} (hnow : world.clock ≤ now) :
    Retried settings { world with clock := now } := by
  refine ⟨?_, h.known⟩
  intro index
  refine ⟨(h.numbered index).1, ?_⟩
  intro phase hphase
  exact ((h.numbered index).2 phase hphase).later hnow

/-- A new call has sent nothing yet. -/
theorem Retried.called (h : Retried settings world) :
    Retried settings { world with calls := world.calls ++ [.asking 0] } := by
  constructor
  · intro index
    refine ⟨(h.numbered index).1, ?_⟩
    intro phase hphase
    by_cases hindex : index < world.calls.length
    · have hold : (world.calls ++ [.asking 0])[index]? = some phase := hphase
      rw [List.getElem?_append_left hindex] at hold
      exact (h.numbered index).2 phase hold
    · have hnone : requestsOf world.requests index = [] := by
        apply List.filter_eq_nil_iff.mpr
        intro request hrequest hcall
        rw [beq_iff_eq] at hcall
        exact hindex (hcall ▸ h.known request hrequest)
      have hnew : phase = .asking 0 := by
        rw [List.getElem?_append_right (Nat.le_of_not_lt hindex)] at hphase
        exact List.mem_singleton.mp (List.mem_of_getElem? hphase)
      rw [hnone, hnew]
      refine ⟨rfl, Nat.zero_le _, ?_⟩
      intro last hlast
      cases hlast
  · intro request hrequest
    rw [List.length_append]
    exact Nat.lt_add_right _ (h.known request hrequest)

theorem Retried.stepped (h : Retried settings world) {index : Nat} {phase : CallPhase}
    {action : CallAction} (hphase : world.calls[index]? = some phase)
    (hstep : callStep settings world index phase action = .ok next) : Retried settings next := by
  obtain ⟨hspaced, hfollows⟩ := h.numbered index
  obtain ⟨after, added, hcalls, hclock, hrequests, hown, hnext, hafter⟩ :=
    callStep_numbered (hfollows phase hphase) hspaced hstep
  have hindex := (List.getElem?_eq_some_iff.mp hphase).1
  constructor
  · intro other
    unfold Numbered
    rw [hcalls, hclock, hrequests]
    by_cases hother : index = other
    · subst hother
      rw [requestsOf_append_own world.requests hown, List.getElem?_set_self hindex]
      refine ⟨hnext, ?_⟩
      intro phase' hphase'
      cases hphase'
      exact hafter
    · have hothers : ∀ request ∈ added, request.call ≠ other := by
        intro request hrequest hcall
        exact hother ((hown request hrequest).symm.trans hcall)
      rw [requestsOf_append_other world.requests hothers, List.getElem?_set_ne hother]
      exact h.numbered other
  · intro request hrequest
    rw [hcalls, List.length_set]
    rw [hrequests] at hrequest
    rcases List.mem_append.mp hrequest with hold | hadded
    · exact h.known request hold
    · rw [hown request hadded]
      exact hindex

theorem Retried.step (h : Retried settings world) {action : ClientAction}
    (hstep : Providers.step settings world action = .ok next) : Retried settings next := by
  rcases step_ok hstep with rfl | ⟨index, phase, act, now, hphase, hnow, hstep⟩
  · exact h.called
  · exact (h.later hnow).stepped hphase hstep

/-- In every interleaving of the calls, the attempts of each call are numbered from 0, there are
at most `max_retries + 1` of them, each is sent after the exponential back-off of the one before
it, a call that backs off has an attempt left, and `BybitRateLimitError` is raised after the
last attempt only. -/
theorem retries_backed_off (settings : ClientSettings) (start : ℚ) (actions : List ClientAction)
    (index : Nat) :
    let world := runAll (Providers.step settings) { clock := start } actions
    let own := requestsOf world.requests index
    own.map Request.attempt = List.range own.length ∧ own.length ≤ settings.maxRetries + 1 ∧
    (own.IsChain fun earlier later =>
      earlier.sentAt + settings.retryBaseSeconds * 2 ^ earlier.attempt ≤ later.sentAt) ∧
    (∀ attempt wakeAt, world.calls[index]? = some (.backingOff attempt wakeAt) →
      attempt < settings.maxRetries) ∧
    (world.calls[index]? = some (.ended .rateLimited) → own.length = settings.maxRetries + 1) := by
  intro world own
  have hretried : Retried settings world :=
    runAll_invariant (fun _ _ _ h hstep => h.step hstep) (retried_initial start) actions
  obtain ⟨hspaced, hfollows⟩ := hretried.numbered index
  refine ⟨hspaced.attempts, hspaced.bounded, hspaced.spaced, ?_, ?_⟩
  · intro attempt wakeAt hphase
    exact (hfollows _ hphase).1
  · intro hphase
    exact hfollows _ hphase rfl

end Retries

end StructurePulse.Providers
