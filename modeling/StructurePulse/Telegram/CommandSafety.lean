import StructurePulse.Telegram.Commands

/-!
# Commands and valid settings

A command is answered and leaves valid settings when the functions that read its words
accept no more than the service expects. `Harmless` says where they accept more.
-/

namespace StructurePulse.Telegram.Commands
open Library
set_option autoImplicit false

section Validity
variable (python : Python) (queries : Queries)

structure ValidSettings (settings : TelegramUserSettings) : Prop where
  score : 0 ≤ settings.minimumScore ∧ settings.minimumScore ≤ 100
  risk : ∃ percent, settings.riskPercent = .finite percent ∧ 0 < percent ∧ percent ≤ 10
  balance : ∃ balance, settings.referenceBalance = .finite balance ∧ 0 < balance
  start : settings.scheduleStart.offset = none
  stop : settings.scheduleEnd.offset = none
  zone : ∃ localTime, python.zoneInfo settings.scheduleTimezone = .loaded localTime

/-- A reply, at most one update, valid settings after it, and a window that never raises. -/
structure Keeps (record : SettingsRecord) (handled : Handled) : Prop where
  replies : ∃ reply, handled.reply = .ok reply
  settings : ∃ next, handled.record = some next ∧
    match handled.updated with
    | none => next = record
    | some view => (∃ change, updateUser record change = .ok (next, view)) ∧
        ValidSettings python view ∧ ValidSettings python next.settings
  window : ∀ next, handled.record = some next → ∀ now, ∃ isOpen,
    notificationWindowIsOpen python now next.settings = .ok isOpen

/-- Two words that are times, and the zone they are stored with. -/
def HarmlessSchedule (first second timezone : String) : Prop :=
  ∀ start stop, python.fromIsoformat first = some start → python.fromIsoformat second = some stop →
    match python.zoneInfo timezone with
    | .raised _ => False
    | .notFound => True
    | .loaded _ => start.offset = none ∧ stop.offset = none ∧ TextFits 64 timezone

/-- The balance is looked at when the risk is in its range; both are kept with four decimal
places and the balance with sixteen digits before them. -/
def HarmlessRisk (risk balance : PyDecimal) : Prop :=
  match risk with
  | .nan => False
  | .infinity _ => True
  | .finite percent => 0 < percent → percent ≤ 10 →
    match balance with
    | .nan => False
    | .infinity negative => negative = true
    | .finite value => 0 < value →
      1 / (2 * 10 ^ 4) ≤ percent ∧ 1 / (2 * 10 ^ 4) ≤ value ∧ value < 10 ^ 16 - 1 / (2 * 10 ^ 4)

/-- The words of a command on which no library function gives more than the command
expects. -/
def HarmlessWords (record : SettingsRecord) (command : Command) (args : List String) : Prop :=
  match command with
  | .coin => ∀ word ∈ args.head?, zeroCharacter ∉ (coinSymbol python word).toList
  | .threshold => ∀ word, args = [word] → isdigit python word = true → Readable python word
  | .schedule =>
    (∀ first second, args = [first, second] →
      HarmlessSchedule python first second record.settings.scheduleTimezone) ∧
    ∀ first second timezone, args = [first, second, timezone] →
      HarmlessSchedule python first second timezone
  | .risk => ∀ first second, args = [first, second] →
    ∀ risk balance, python.decimal first = some risk → python.decimal second = some balance →
      HarmlessRisk risk balance
  | _ => True

def Harmless (record : SettingsRecord) (commandText : String) : Prop :=
  HarmlessWords python record (commandOf python (splitWords commandText))
    (splitWords commandText).tail

end Validity

section Window
variable {python : Python}

theorem before_of_naive {first second : ClockTime} (hfirst : first.offset = none)
    (hsecond : second.offset = none) :
    first.before second = .ok (decide (first.time < second.time)) := by
  simp only [ClockTime.before, hfirst, hsecond]

theorem same_of_naive {first second : ClockTime} (hfirst : first.offset = none)
    (hsecond : second.offset = none) : first.same second = decide (first.time = second.time) := by
  simp only [ClockTime.same, hfirst, hsecond]

/-- The row that the deliveries read. -/
def TelegramUserSettings.row (settings : TelegramUserSettings) : UserSettings where
  userId := settings.userId
  language := settings.language
  minimumScore := settings.minimumScore
  scheduleTimezone := settings.scheduleTimezone
  scheduleStart := settings.scheduleStart.time
  scheduleEnd := settings.scheduleEnd.time
  paused := settings.paused

/-- The local time as the deliveries ask for it. -/
def Python.localTime (python : Python) (timezone : String) (now : Int) : Option Int :=
  match python.zoneInfo timezone with
  | .loaded localTime => some (localTime now)
  | _ => none

theorem deliveries_window {settings : TelegramUserSettings} {now time : Int}
    (h : python.localTime settings.scheduleTimezone now = some time) :
    Telegram.notificationWindowIsOpen python.localTime now settings.row =
      if settings.scheduleStart.time = settings.scheduleEnd.time then true
      else if settings.scheduleStart.time < settings.scheduleEnd.time then
        decide (settings.scheduleStart.time ≤ time ∧ time < settings.scheduleEnd.time)
      else decide (time ≥ settings.scheduleStart.time ∨ time < settings.scheduleEnd.time) := by
  have hrow : python.localTime settings.row.scheduleTimezone now = some time := h
  unfold Telegram.notificationWindowIsOpen
  rw [hrow]
  rfl

/-- On valid settings the window does not raise and is the one of the deliveries. -/
theorem window_of_valid {settings : TelegramUserSettings} (h : ValidSettings python settings)
    (now : Int) :
    notificationWindowIsOpen python now settings =
      .ok (Telegram.notificationWindowIsOpen python.localTime now settings.row) := by
  obtain ⟨localTime, hzone⟩ := h.zone
  have htime : python.localTime settings.scheduleTimezone now = some (localTime now) := by
    simp only [Python.localTime, hzone]
  rw [deliveries_window htime]
  simp only [notificationWindowIsOpen, hzone, same_of_naive h.start h.stop, decide_eq_true_eq,
    before_of_naive h.start h.stop, @before_of_naive ⟨localTime now, none⟩ _ rfl h.start,
    @before_of_naive ⟨localTime now, none⟩ _ rfl h.stop]
  by_cases hsame : settings.scheduleStart.time = settings.scheduleEnd.time
  · rw [if_pos hsame, if_pos hsame]
  · rw [if_neg hsame, if_neg hsame]
    by_cases horder : settings.scheduleStart.time < settings.scheduleEnd.time
    · by_cases hearly : localTime now < settings.scheduleStart.time
      · simp [bind, Except.bind, pure, Except.pure, horder, hearly, not_le.mpr hearly]
      · simp [bind, Except.bind, horder, hearly, not_lt.mp hearly]
    · by_cases hearly : localTime now < settings.scheduleStart.time
      · simp [bind, Except.bind, horder, hearly, not_le.mpr hearly]
      · simp [bind, Except.bind, pure, Except.pure, horder, hearly, not_lt.mp hearly]

end Window

section Numbers

theorem number_of_fits {digits : Nat} (hdigits : digits ≤ 20) {value : PyDecimal}
    (h : value.Fits digits 4) : ∃ shown, number value = .ok shown := by
  cases value with
  | finite value =>
    have hpow : ((10 ^ (digits - 4) : ℕ) : ℚ) ≤ 10 ^ 16 := by
      push_cast
      exact pow_le_pow_right₀ (by norm_num) (by omega)
    have hrounded : |atPlaces awayFromZero 4 value| < 10 ^ 16 := lt_of_lt_of_le h hpow
    have haway := abs_sub_abs_le_abs_sub value (atPlaces awayFromZero 4 value)
    rw [abs_sub_comm] at haway
    have heven := abs_sub_abs_le_abs_sub (atPlaces toEven 4 value) value
    have hshown : |atPlaces toEven 4 value| < 10 ^ 24 := by
      linarith [abs_atPlaces_sub_le abs_awayFromZero_sub_le 4 value,
        abs_atPlaces_sub_le abs_toEven_sub_le 4 value]
    exact ⟨_, if_pos hshown⟩
  | infinity negative => exact h.elim
  | nan => exact ⟨.nan, rfl⟩

theorem renderSettings_of_storable {settings : TelegramUserSettings} (h : Storable settings)
    (language : String) : ∃ reply, renderSettings settings language = .ok reply := by
  obtain ⟨-, -, -, hrisk, hbalance⟩ := h
  obtain ⟨risk, heq⟩ := number_of_fits (by norm_num) hrisk
  obtain ⟨balance, heq'⟩ := number_of_fits (by norm_num) hbalance
  simp only [renderSettings, heq, heq']
  exact ⟨_, rfl⟩

/-- What a column with four places keeps of a value is positive. -/
theorem column_pos_iff {value : ℚ} :
    0 < atPlaces awayFromZero 4 value ↔ 1 / (2 * 10 ^ 4) ≤ value := atPlaces_pos_iff

theorem fits_iff {digits : Nat} {value : ℚ} (hvalue : 0 < value) :
    PyDecimal.Fits digits 4 (.finite value) ↔
      value < ((10 ^ (digits - 4) : ℕ) : ℚ) - 1 / (2 * 10 ^ 4) := by
  have hnonneg : 0 ≤ atPlaces awayFromZero 4 value := by
    have hround : (0 : ℤ) ≤ awayFromZero (value * 10 ^ 4) := by
      rw [awayFromZero, if_neg (not_lt.mpr (by positivity)), round_eq]
      exact Int.floor_nonneg.mpr (by positivity)
    exact div_nonneg (by exact_mod_cast hround) (by positivity)
  change |atPlaces awayFromZero 4 value| < _ ↔ _
  rw [abs_of_nonneg hnonneg, atPlaces_lt_iff (by positivity)]

end Numbers

section Updates
variable {python : Python} {record : SettingsRecord}

/-- An update that the row takes, with valid settings in the answer and in the row. -/
def Sound (python : Python) (record : SettingsRecord) (change : SettingsUpdate) : Prop :=
  Storable (change.apply record.settings) ∧ ValidSettings python (change.apply record.settings) ∧
    ValidSettings python (columns (change.apply record.settings))

theorem updateUser_of_storable {change : SettingsUpdate}
    (h : Storable (change.apply record.settings)) : ∃ next : SettingsRecord,
      next.settings = columns (change.apply record.settings) ∧
      updateUser record change = .ok (next, change.apply record.settings) :=
  ⟨⟨_, h.columns, columns_idem _⟩, rfl, dif_pos h⟩

theorem keeps_of_unchanged (hvalid : ValidSettings python record.settings) {reply : Reply} :
    Keeps python record { record := some record, reply := .ok reply } where
  replies := ⟨reply, rfl⟩
  settings := ⟨record, rfl, rfl⟩
  window := by
    intro next hnext now
    cases hnext
    exact ⟨_, window_of_valid hvalid now⟩

theorem keeps_update_iff {change : SettingsUpdate}
    {render : TelegramUserSettings → Except Raised Reply}
    (hrender : ∀ settings, Storable settings → ∃ reply, render settings = .ok reply) :
    Keeps python record (update record change render) ↔ Sound python record change := by
  by_cases hstorable : Storable (change.apply record.settings)
  · obtain ⟨next, hnext, heq⟩ := updateUser_of_storable hstorable
    obtain ⟨reply, hreply⟩ := hrender _ hstorable
    simp only [update, heq, hreply]
    constructor
    · rintro ⟨-, ⟨other, hother, -, hview, hrow⟩, -⟩
      cases hother
      rw [hnext] at hrow
      exact ⟨hstorable, hview, hrow⟩
    · rintro ⟨-, hview, hrow⟩
      rw [← hnext] at hrow
      refine ⟨⟨reply, rfl⟩, ⟨next, rfl, ⟨change, heq⟩, hview, hrow⟩, ?_⟩
      intro other hother now
      cases hother
      exact ⟨_, window_of_valid hrow now⟩
  · have heq : updateUser record change = .error .databaseError := dif_neg hstorable
    simp only [update, heq]
    constructor
    · rintro ⟨⟨reply, hreply⟩, -, -⟩
      cases hreply
    · exact fun h => absurd h.1 hstorable

/-- A parser that does not raise and gives an update that is sound. -/
def Accepts (python : Python) (record : SettingsRecord)
    (parsed : Except Raised (Option SettingsUpdate)) : Prop :=
  ∃ found, parsed = .ok found ∧ ∀ change ∈ found, Sound python record change

theorem accepts_none : Accepts python record (.ok none) := ⟨none, rfl, by simp⟩

theorem not_accepts_error {error : Raised} : ¬ Accepts python record (.error error) := by
  rintro ⟨found, hfound, -⟩
  cases hfound

theorem accepts_some_iff {change : SettingsUpdate} :
    Accepts python record (.ok (some change)) ↔ Sound python record change := by
  constructor
  · rintro ⟨found, hfound, h⟩
    cases hfound
    exact h change rfl
  · intro h
    refine ⟨_, rfl, ?_⟩
    rintro other hother
    cases hother
    exact h

theorem keeps_updateParsed_iff (hvalid : ValidSettings python record.settings)
    {parsed : Except Raised (Option SettingsUpdate)}
    {render : TelegramUserSettings → Except Raised Reply}
    (hrender : ∀ settings, Storable settings → ∃ reply, render settings = .ok reply) :
    Keeps python record (updateParsed record parsed render) ↔ Accepts python record parsed := by
  cases parsed with
  | error error =>
    refine iff_of_false ?_ not_accepts_error
    rintro ⟨⟨reply, hreply⟩, -, -⟩
    cases hreply
  | ok found =>
    cases found with
    | none => exact iff_of_true (keeps_of_unchanged hvalid) accepts_none
    | some change => exact (keeps_update_iff hrender).trans accepts_some_iff.symm

end Updates

section Parsers
variable {python : Python} {record : SettingsRecord}

/-- Settings that the columns keep as they are. -/
theorem sound_of_columns_eq {change : SettingsUpdate}
    (hstorable : Storable (change.apply record.settings))
    (hvalid : ValidSettings python (change.apply record.settings))
    (heq : columns (change.apply record.settings) = change.apply record.settings) :
    Sound python record change := by
  refine ⟨hstorable, hvalid, ?_⟩
  rw [heq]
  exact hvalid

theorem sound_language (hvalid : ValidSettings python record.settings) {language : String}
    (h : language ∈ ["ru", "en"]) : Sound python record (.language language) := by
  obtain ⟨-, hscore, htimezone, hrisk, hbalance⟩ := record.storable
  have hfits : TextFits 2 language := by
    simp only [List.mem_cons, List.not_mem_nil, or_false] at h
    rcases h with rfl | rfl
    · decide
    · decide
  exact sound_of_columns_eq ⟨hfits, hscore, htimezone, hrisk, hbalance⟩
    ⟨hvalid.score, hvalid.risk, hvalid.balance, hvalid.start, hvalid.stop, hvalid.zone⟩
    (congrArg (fun settings => { settings with language := language }) record.held)

theorem sound_minimumScore (hvalid : ValidSettings python record.settings) {score : Int}
    (h : 0 ≤ score ∧ score ≤ 100) : Sound python record (.minimumScore score) := by
  obtain ⟨hlanguage, -, htimezone, hrisk, hbalance⟩ := record.storable
  have hfits : -2 ^ 31 ≤ score ∧ score < 2 ^ 31 := ⟨by linarith [h.1], by linarith [h.2]⟩
  exact sound_of_columns_eq ⟨hlanguage, hfits, htimezone, hrisk, hbalance⟩
    ⟨h, hvalid.risk, hvalid.balance, hvalid.start, hvalid.stop, hvalid.zone⟩
    (congrArg (fun settings => { settings with minimumScore := score }) record.held)

theorem sound_paused (hvalid : ValidSettings python record.settings) (paused : Bool) :
    Sound python record (.paused paused) :=
  sound_of_columns_eq record.storable
    ⟨hvalid.score, hvalid.risk, hvalid.balance, hvalid.start, hvalid.stop, hvalid.zone⟩
    (congrArg (fun settings => { settings with paused := paused }) record.held)

theorem sound_schedule_iff (hvalid : ValidSettings python record.settings)
    {start stop : ClockTime} {timezone : String} :
    Sound python record (.schedule start stop timezone) ↔
      start.offset = none ∧ stop.offset = none ∧ TextFits 64 timezone ∧
        ∃ localTime, python.zoneInfo timezone = .loaded localTime := by
  obtain ⟨hlanguage, hscore, -, hrisk, hbalance⟩ := record.storable
  constructor
  · rintro ⟨hstorable, hview, -⟩
    exact ⟨hview.start, hview.stop, hstorable.2.2.1, hview.zone⟩
  · rintro ⟨hstart, hstop, htimezone, hzone⟩
    have hrow := congrArg TelegramUserSettings.riskPercent record.held
    have hrow' := congrArg TelegramUserSettings.referenceBalance record.held
    refine ⟨⟨hlanguage, hscore, htimezone, hrisk, hbalance⟩,
      ⟨hvalid.score, hvalid.risk, hvalid.balance, hstart, hstop, hzone⟩,
      ⟨hvalid.score, ?_, ?_, rfl, rfl, hzone⟩⟩
    · obtain ⟨percent, hpercent, hrange⟩ := hvalid.risk
      exact ⟨percent, hrow.trans hpercent, hrange⟩
    · obtain ⟨balance, hbalance, hpos⟩ := hvalid.balance
      exact ⟨balance, hrow'.trans hbalance, hpos⟩

theorem sound_risk_iff (hvalid : ValidSettings python record.settings) {percent balance : ℚ}
    (hpercent : 0 < percent) (hten : percent ≤ 10) (hbalance : 0 < balance) :
    Sound python record (.risk (.finite percent) (.finite balance)) ↔
      1 / (2 * 10 ^ 4) ≤ percent ∧ 1 / (2 * 10 ^ 4) ≤ balance ∧
        balance < 10 ^ 16 - 1 / (2 * 10 ^ 4) := by
  obtain ⟨hlanguage, hscore, htimezone, -, -⟩ := record.storable
  have hfits : PyDecimal.Fits 10 4 (.finite percent) := by
    rw [fits_iff hpercent]
    norm_num
    linarith
  have hbound : PyDecimal.Fits 20 4 (.finite balance) ↔ balance < 10 ^ 16 - 1 / (2 * 10 ^ 4) := by
    rw [fits_iff hbalance]
    norm_num
  constructor
  · rintro ⟨hstorable, -, hrow⟩
    obtain ⟨kept, hkept, hpos, -⟩ := hrow.risk
    obtain ⟨kept', hkept', hpos'⟩ := hrow.balance
    cases hkept
    cases hkept'
    exact ⟨column_pos_iff.mp hpos, column_pos_iff.mp hpos', hbound.mp hstorable.2.2.2.2⟩
  · rintro ⟨hlow, hlow', hhigh⟩
    refine ⟨⟨hlanguage, hscore, htimezone, hfits, hbound.mpr hhigh⟩,
      ⟨hvalid.score, ⟨percent, rfl, hpercent, hten⟩, ⟨balance, rfl, hbalance⟩, hvalid.start,
        hvalid.stop, hvalid.zone⟩,
      ⟨hvalid.score, ⟨_, rfl, column_pos_iff.mpr hlow, ?_⟩, ⟨_, rfl, column_pos_iff.mpr hlow'⟩,
        rfl, rfl, hvalid.zone⟩⟩
    have hkept : atPlaces awayFromZero 4 percent ≤ ((10 : ℕ) : ℚ) :=
      atPlaces_le (by exact_mod_cast hten)
    exact_mod_cast hkept

theorem accepts_languageUpdate (hvalid : ValidSettings python record.settings)
    (args : List String) : Accepts python record (languageUpdate python args) := by
  unfold languageUpdate
  split
  · split_ifs with hlanguage
    · exact accepts_some_iff.mpr (sound_language hvalid hlanguage)
    · exact accepts_none
  · exact accepts_none

theorem accepts_threshold_iff (hvalid : ValidSettings python record.settings)
    (args : List String) :
    Accepts python record (thresholdUpdate python args) ↔
      ∀ word, args = [word] → isdigit python word = true → Readable python word := by
  unfold thresholdUpdate
  split
  · rename_i word
    by_cases hdigit : isdigit python word = true
    · rw [if_pos hdigit]
      by_cases hread : Readable python word
      · refine iff_of_true ?_ ?_
        · rw [parseInt, if_pos hread]
          simp only [bind, Except.bind]
          split_ifs with hrange
          · exact accepts_some_iff.mpr (sound_minimumScore hvalid hrange)
          · exact accepts_none
        · intro other hother _
          cases hother
          exact hread
      · refine iff_of_false ?_ fun h => hread (h word rfl hdigit)
        rw [parseInt, if_neg hread]
        exact not_accepts_error
    · rw [if_neg hdigit]
      refine iff_of_true accepts_none ?_
      intro other hother hother'
      cases hother
      exact absurd hother' hdigit
  · rename_i hargs
    exact iff_of_true accepts_none fun word heq _ => absurd heq (hargs word)

theorem accepts_scheduleOf_iff (hvalid : ValidSettings python record.settings)
    (first second timezone : String) :
    Accepts python record (scheduleOf python first second timezone) ↔
      HarmlessSchedule python first second timezone := by
  unfold scheduleOf HarmlessSchedule
  cases hstart : python.fromIsoformat first with
  | none => exact iff_of_true accepts_none fun start stop h _ => by cases h
  | some start =>
    cases hstop : python.fromIsoformat second with
    | none => exact iff_of_true accepts_none fun start stop _ h => by cases h
    | some stop =>
      cases hzone : python.zoneInfo timezone with
      | raised error =>
        exact iff_of_false not_accepts_error fun h => h start stop rfl rfl
      | notFound => exact iff_of_true accepts_none fun _ _ _ _ => trivial
      | loaded localTime =>
        refine accepts_some_iff.trans ((sound_schedule_iff hvalid).trans ⟨?_, ?_⟩)
        · rintro ⟨hfirst, hsecond, hfits, -⟩ start' stop' hstart' hstop'
          cases hstart'
          cases hstop'
          exact ⟨hfirst, hsecond, hfits⟩
        · intro h
          obtain ⟨hfirst, hsecond, hfits⟩ := h start stop rfl rfl
          exact ⟨hfirst, hsecond, hfits, localTime, hzone⟩

theorem accepts_schedule_iff (hvalid : ValidSettings python record.settings)
    (args : List String) :
    Accepts python record (parseSchedule python args record.settings.scheduleTimezone) ↔
      (∀ first second, args = [first, second] →
        HarmlessSchedule python first second record.settings.scheduleTimezone) ∧
      ∀ first second timezone, args = [first, second, timezone] →
        HarmlessSchedule python first second timezone := by
  unfold parseSchedule
  split
  · rename_i first second
    rw [accepts_scheduleOf_iff hvalid]
    constructor
    · intro h
      refine ⟨?_, by simp⟩
      intro first' second' heq
      cases heq
      exact h
    · exact fun h => h.1 first second rfl
  · rename_i first second timezone
    rw [accepts_scheduleOf_iff hvalid]
    constructor
    · intro h
      refine ⟨by simp, ?_⟩
      intro first' second' timezone' heq
      cases heq
      exact h
    · exact fun h => h.2 first second timezone rfl
  · rename_i htwo hthree
    exact iff_of_true accepts_none ⟨fun first second heq => absurd heq (htwo first second),
      fun first second timezone heq => absurd heq (hthree first second timezone)⟩

theorem riskOf_outside {percent : ℚ} (h : 0 < percent → ¬ percent ≤ 10) (balance : PyDecimal) :
    riskOf (.finite percent) balance = .ok none := by
  by_cases hpos : 0 < percent
  · simp [riskOf, PyDecimal.atMost, bind, Except.bind, pure, Except.pure, not_le.mpr hpos, h hpos]
  · simp [riskOf, PyDecimal.atMost, bind, Except.bind, pure, Except.pure, not_lt.mp hpos]

theorem riskOf_inside {percent : ℚ} (hpos : 0 < percent) (hten : percent ≤ 10)
    (balance : PyDecimal) :
    riskOf (.finite percent) balance = (balance.atMost 0).map fun low =>
      if low then none else some (.risk (.finite percent) balance) := by
  have hzero : (PyDecimal.finite percent).atMost 0 = .ok false := by
    simp [PyDecimal.atMost, hpos]
  have hbound : (PyDecimal.finite percent).atMost 10 = .ok true := by
    simp [PyDecimal.atMost, hten]
  unfold riskOf
  rw [hzero, hbound]
  cases balance.atMost 0 with
  | error error => simp [Except.map, bind, Except.bind]
  | ok low => cases low <;> simp [Except.map, bind, Except.bind, pure, Except.pure]

theorem accepts_riskOf_iff (hvalid : ValidSettings python record.settings)
    (risk balance : PyDecimal) :
    Accepts python record (riskOf risk balance) ↔ HarmlessRisk risk balance := by
  cases risk with
  | nan => exact iff_of_false not_accepts_error fun h => h
  | infinity negative =>
    refine iff_of_true ?_ trivial
    cases negative with
    | true => exact accepts_none
    | false => exact accepts_none
  | finite percent =>
    by_cases hpos : 0 < percent
    · by_cases hten : percent ≤ 10
      · rw [riskOf_inside hpos hten]
        cases balance with
        | nan => exact iff_of_false not_accepts_error fun h => h hpos hten
        | infinity negative =>
          cases negative with
          | true => exact iff_of_true accepts_none fun _ _ => rfl
          | false =>
            refine iff_of_false ?_ fun h => by cases h hpos hten
            exact fun h => (accepts_some_iff.mp h).1.2.2.2.2
        | finite value =>
          by_cases hvalue : 0 < value
          · have heq : (PyDecimal.finite value).atMost 0 = .ok false := by
              simp [PyDecimal.atMost, hvalue]
            rw [heq]
            refine accepts_some_iff.trans ((sound_risk_iff hvalid hpos hten hvalue).trans ?_)
            exact ⟨fun h _ _ _ => h, fun h => h hpos hten hvalue⟩
          · have heq : (PyDecimal.finite value).atMost 0 = .ok true := by
              simp [PyDecimal.atMost, not_lt.mp hvalue]
            rw [heq]
            exact iff_of_true accepts_none fun _ _ h => absurd h hvalue
      · rw [riskOf_outside fun _ => hten]
        exact iff_of_true accepts_none fun _ h => absurd h hten
    · rw [riskOf_outside fun h => absurd h hpos]
      exact iff_of_true accepts_none fun h => absurd h hpos

theorem accepts_risk_iff (hvalid : ValidSettings python record.settings) (args : List String) :
    Accepts python record (parseRisk python args) ↔
      ∀ first second, args = [first, second] →
        ∀ risk balance, python.decimal first = some risk → python.decimal second = some balance →
          HarmlessRisk risk balance := by
  unfold parseRisk
  split
  · rename_i first second
    cases hfirst : python.decimal first with
    | none =>
      refine iff_of_true accepts_none ?_
      intro first' second' heq risk balance hrisk _
      cases heq
      rw [hfirst] at hrisk
      cases hrisk
    | some risk =>
      cases hsecond : python.decimal second with
      | none =>
        refine iff_of_true accepts_none ?_
        intro first' second' heq risk balance _ hbalance
        cases heq
        rw [hsecond] at hbalance
        cases hbalance
      | some balance =>
        refine (accepts_riskOf_iff hvalid risk balance).trans ⟨?_, ?_⟩
        · intro h first' second' heq risk' balance' hrisk hbalance
          cases heq
          cases hfirst.symm.trans hrisk
          cases hsecond.symm.trans hbalance
          exact h
        · exact fun h => h first second rfl risk balance hfirst hsecond
  · rename_i hargs
    exact iff_of_true accepts_none fun first second heq => absurd heq (hargs first second)

end Parsers

section Safety
variable {python : Python} {queries : Queries} {record : SettingsRecord}

theorem not_keeps_of_raised {handled : Handled} (h : handled.reply.isOk = false) :
    ¬ Keeps python record handled := by
  rintro ⟨⟨reply, hreply⟩, -, -⟩
  rw [hreply] at h
  cases h

theorem not_keeps_of_offset {handled : Handled}
    (h : handled.updated.any (·.scheduleStart.offset.isSome) = true) :
    ¬ Keeps python record handled := by
  rintro ⟨-, ⟨next, -, hsettings⟩, -⟩
  cases hupdated : handled.updated with
  | none =>
    rw [hupdated] at h
    cases h
  | some view =>
    rw [hupdated] at h hsettings
    rw [Option.any_some, hsettings.2.1.start] at h
    cases h

theorem not_keeps_of_zero {handled : Handled} (hupdated : handled.updated.isSome = true)
    (h : handled.record.any (·.settings.riskPercent = .finite 0) = true) :
    ¬ Keeps python record handled := by
  rintro ⟨-, ⟨next, hnext, hsettings⟩, -⟩
  obtain ⟨view, hview⟩ := Option.isSome_iff_exists.mp hupdated
  rw [hview] at hsettings
  rw [hnext, Option.any_some, decide_eq_true_eq] at h
  obtain ⟨percent, hpercent, hpos, -⟩ := hsettings.2.2.risk
  rw [h] at hpercent
  cases hpercent
  exact lt_irrefl _ hpos

theorem keeps_answer_iff (hvalid : ValidSettings python record.settings)
    {reply : Except Raised Reply} :
    Keeps python record { record := some record, reply := reply } ↔
      ∃ answered, reply = .ok answered := by
  constructor
  · exact Keeps.replies
  · rintro ⟨answered, rfl⟩
    exact keeps_of_unchanged hvalid

theorem latestCoin_ok_iff (queries : Queries) (word language : String) :
    (∃ found, latestCoin python queries word language = .ok found) ↔
      zeroCharacter ∉ (coinSymbol python word).toList := by
  unfold latestCoin
  split_ifs with hzero
  · simp [hzero]
  · simp [hzero]

theorem keeps_handleCommand_iff (hvalid : ValidSettings python record.settings)
    (command : Command) (args : List String) :
    Keeps python record (handleCommand python queries record command args) ↔
      HarmlessWords python record command args := by
  have hrender : ∀ settings, Storable settings →
      ∃ reply, renderSettings settings record.settings.language = .ok reply :=
    fun _ h => renderSettings_of_storable h _
  cases command with
  | help => exact iff_of_true (keeps_of_unchanged hvalid) trivial
  | signals =>
    refine iff_of_true ?_ trivial
    simp only [handleCommand]
    split_ifs
    · exact keeps_of_unchanged hvalid
    · exact keeps_of_unchanged hvalid
  | coin =>
    cases args with
    | nil => exact iff_of_true (keeps_of_unchanged hvalid) (by simp [HarmlessWords])
    | cons word rest =>
      have hcoin := @latestCoin_ok_iff python queries word record.settings.language
      refine (keeps_answer_iff hvalid).trans (Iff.trans ?_ (hcoin.trans ?_))
      · cases latestCoin python queries word record.settings.language with
        | error error => simp [bind, Except.bind]
        | ok found => cases found <;> simp [bind, Except.bind, pure, Except.pure]
      · simp [HarmlessWords]
  | settings =>
    refine iff_of_true ((keeps_answer_iff hvalid).mpr ?_) trivial
    exact hrender _ record.storable
  | status => exact iff_of_true (keeps_of_unchanged hvalid) trivial
  | stats => exact iff_of_true (keeps_of_unchanged hvalid) trivial
  | language =>
    refine iff_of_true ?_ trivial
    exact (keeps_updateParsed_iff hvalid fun _ h => renderSettings_of_storable h _).mpr
      (accepts_languageUpdate hvalid args)
  | threshold =>
    exact (keeps_updateParsed_iff hvalid hrender).trans (accepts_threshold_iff hvalid args)
  | schedule =>
    exact (keeps_updateParsed_iff hvalid hrender).trans (accepts_schedule_iff hvalid args)
  | risk => exact (keeps_updateParsed_iff hvalid hrender).trans (accepts_risk_iff hvalid args)
  | pause =>
    exact iff_of_true ((keeps_update_iff fun _ _ => ⟨_, rfl⟩).mpr (sound_paused hvalid true)) trivial
  | resume =>
    exact iff_of_true ((keeps_update_iff fun _ _ => ⟨_, rfl⟩).mpr (sound_paused hvalid false)) trivial

/-- Python's functions on the words of the samples. -/
def samplePython : Python where
  lower := String.map Char.toLower
  upper := String.map Char.toUpper
  isDigit c := c.isDigit || decide (c = '²')
  decimalValue c := if c.isDigit then some (c.toNat - '0'.toNat) else none
  fromIsoformat
    | "07:00+02:00" => some ⟨7 * oneHour, some (2 * oneHour)⟩
    | "08:00" => some ⟨8 * oneHour, none⟩
    | "19:30" => some ⟨19 * oneHour + 30 * oneMinute, none⟩
    | _ => none
  decimal
    | "NaN" => some .nan
    | "Infinity" => some (.infinity false)
    | "0.00001" => some (.finite (1 / 10 ^ 5))
    | "1.5" => some (.finite (3 / 2))
    | "12000" => some (.finite 12000)
    | _ => none
  zoneInfo
    | "UTC" => .loaded (· % (24 * oneHour))
    | "../UTC" => .raised .valueError
    | _ => .notFound

def quietQueries : Queries where
  activeSignals _ := []
  latestCoin _ _ := none
  status language := language
  stats language := language

def sampleSettings : TelegramUserSettings where
  userId := 42
  language := "ru"
  minimumScore := 70
  scheduleTimezone := "UTC"
  scheduleStart := { time := 7 * oneHour }
  scheduleEnd := { time := 20 * oneHour }
  riskPercent := .finite 1
  referenceBalance := .finite 10000
  paused := false

def sampleRecord : SettingsRecord where
  settings := sampleSettings
  storable := by decide +kernel
  held := by decide +kernel

theorem sampleRecord_valid : ValidSettings samplePython sampleRecord.settings where
  score := by decide
  risk := ⟨1, rfl, by norm_num, by norm_num⟩
  balance := ⟨10000, rfl, by norm_num⟩
  start := rfl
  stop := rfl
  zone := ⟨_, rfl⟩

/-- A command of a user with valid settings is answered without an exception and leaves valid
settings and a window that never raises exactly when its words are harmless. -/
theorem command_keeps_settings_iff (python : Python) (queries : Queries) (record : SettingsRecord)
    (commandText : String) (hvalid : ValidSettings python record.settings) :
    Keeps python record (handle python queries (some record) commandText) ↔
      Harmless python record commandText :=
  keeps_handleCommand_iff hvalid _ _

theorem command_keeps_settings_sample :
    ValidSettings samplePython sampleRecord.settings ∧
      (Keeps samplePython sampleRecord
        (handle samplePython quietQueries (some sampleRecord) "/schedule 08:00 19:30 UTC") ↔
        Harmless samplePython sampleRecord "/schedule 08:00 19:30 UTC") :=
  ⟨sampleRecord_valid, command_keeps_settings_iff samplePython quietQueries sampleRecord
    "/schedule 08:00 19:30 UTC" sampleRecord_valid⟩

/-- Words that make `int`, the comparisons, the row or `ZoneInfo` raise, a time with an offset,
and a risk that the row keeps as zero. -/
theorem commands_break_settings :
    ValidSettings samplePython sampleRecord.settings ∧
      ∀ commandText ∈ ["/threshold ²", "/risk NaN 12000", "/risk 1.5 Infinity",
          "/schedule 08:00 19:30 ../UTC", "/schedule 07:00+02:00 19:30", "/risk 0.00001 12000"],
        ¬ Keeps samplePython sampleRecord
          (handle samplePython quietQueries (some sampleRecord) commandText) := by
  refine ⟨sampleRecord_valid, ?_⟩
  simp only [List.forall_mem_cons, List.not_mem_nil, false_implies, implies_true, and_true]
  refine ⟨?_, ?_, ?_, ?_, ?_, ?_⟩
  · exact not_keeps_of_raised (by decide +kernel)
  · exact not_keeps_of_raised (by decide +kernel)
  · exact not_keeps_of_raised (by decide +kernel)
  · exact not_keeps_of_raised (by decide +kernel)
  · exact not_keeps_of_offset (by decide +kernel)
  · exact not_keeps_of_zero (by decide +kernel) (by decide +kernel)

end Safety

end StructurePulse.Telegram.Commands
