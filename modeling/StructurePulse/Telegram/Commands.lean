import StructurePulse.Library.Rounding
import StructurePulse.Telegram.Deliveries

/-!
# The Telegram commands

`handle` reads the settings of a user, and one command makes at most one update of them.
The functions of Python's library that read the words of a user are parameters, with the
ways in which they raise.
-/

namespace StructurePulse.Telegram.Commands
open Library
set_option autoImplicit false

section Python

inductive Raised where
  | valueError
  | invalidOperation
  | typeError
  | databaseError
  deriving Repr, DecidableEq

/-- `datetime.time`, in microseconds from midnight, with its UTC offset if it has one. -/
structure ClockTime where
  time : Int
  offset : Option Int := none
  deriving Repr, DecidableEq

/-- A `Decimal`; the ordering comparisons raise on `nan`. -/
inductive PyDecimal where
  | finite (value : ℚ)
  | infinity (negative : Bool)
  | nan
  deriving Repr, DecidableEq

/-- `ZoneInfo(key)`; a zone gives the local time of day of an instant. -/
inductive ZoneLookup where
  | loaded (localTime : Int → Int)
  | notFound
  | raised (error : Raised)

/-- `fromIsoformat` and `decimal` are none where the constructor raises `ValueError` or
`InvalidOperation`, `decimalValue` where `int` rejects the character. -/
structure Python where
  lower : String → String
  upper : String → String
  isDigit : Char → Bool
  decimalValue : Char → Option Nat
  maxStrDigits : Nat := 4300
  fromIsoformat : String → Option ClockTime
  decimal : String → Option PyDecimal
  zoneInfo : String → ZoneLookup

/-- The characters that `str.split()` takes as separators. -/
def isSpace (c : Char) : Bool :=
  decide (c.toNat ∈ [0x85, 0xa0, 0x1680, 0x2028, 0x2029, 0x202f, 0x205f, 0x3000]) ||
    decide (9 ≤ c.toNat ∧ c.toNat ≤ 13) || decide (28 ≤ c.toNat ∧ c.toNat ≤ 32) ||
    decide (0x2000 ≤ c.toNat ∧ c.toNat ≤ 0x200a)

/-- `text.strip().split()`. -/
def splitWords (text : String) : List String :=
  ((text.toList.splitOnP isSpace).filter fun word => !word.isEmpty).map String.ofList

def ClockTime.same (first second : ClockTime) : Bool :=
  match first.offset, second.offset with
  | none, none => decide (first.time = second.time)
  | some x, some y => decide (first.time - x = second.time - y)
  | _, _ => false

/-- `first < second`; a time with an offset cannot be compared with one without. -/
def ClockTime.before (first second : ClockTime) : Except Raised Bool :=
  match first.offset, second.offset with
  | none, none => .ok (decide (first.time < second.time))
  | some x, some y => .ok (decide (first.time - x < second.time - y))
  | _, _ => .error .typeError

/-- `value <= bound`. -/
def PyDecimal.atMost (bound : ℚ) : PyDecimal → Except Raised Bool
  | .finite value => .ok (decide (value ≤ bound))
  | .infinity negative => .ok negative
  | .nan => .error .invalidOperation

variable (python : Python)

def isdigit (word : String) : Bool := !word.isEmpty && word.toList.all python.isDigit

/-- `int` accepts these words of digits. -/
def Readable (word : String) : Prop :=
  word.length ≤ python.maxStrDigits ∧ ∀ c ∈ word.toList, (python.decimalValue c).isSome

instance (word : String) : Decidable (Readable python word) :=
  @instDecidableAnd _ _ inferInstance (List.decidableBAll _ word.toList)

/-- `int(word)` for a word of digits. -/
def parseInt (word : String) : Except Raised Int :=
  if Readable python word then
    .ok (word.toList.foldl (fun value c => 10 * value + (python.decimalValue c).getD 0) 0 : Nat)
  else .error .valueError

end Python

section Settings

structure TelegramUserSettings where
  userId : Int
  language : String
  minimumScore : Int
  scheduleTimezone : String
  scheduleStart : ClockTime
  scheduleEnd : ClockTime
  riskPercent : PyDecimal
  referenceBalance : PyDecimal
  paused : Bool
  deriving Repr, DecidableEq

def zeroCharacter : Char := Char.ofNat 0

/-- A text that a column of this length takes. -/
def TextFits (limit : Nat) (text : String) : Prop :=
  text.length ≤ limit ∧ zeroCharacter ∉ text.toList

instance (limit : Nat) (text : String) : Decidable (TextFits limit text) :=
  inferInstanceAs (Decidable (_ ∧ _))

/-- What a column `Numeric(_, places)` makes of a value. -/
def PyDecimal.column (places : Nat) : PyDecimal → PyDecimal
  | .finite value => .finite (atPlaces awayFromZero places value)
  | value => value

/-- Such a column takes the value: NaN is a value of it, an infinity is not. -/
def PyDecimal.Fits (digits places : Nat) : PyDecimal → Prop
  | .finite value => |atPlaces awayFromZero places value| < ((10 ^ (digits - places) : ℕ) : ℚ)
  | .infinity _ => False
  | .nan => True

instance (digits places : Nat) (value : PyDecimal) : Decidable (value.Fits digits places) := by
  cases value with
  | finite value => exact inferInstanceAs (Decidable (_ < _))
  | infinity negative => exact instDecidableFalse
  | nan => exact instDecidableTrue

/-- The row of the settings can be written. -/
def Storable (settings : TelegramUserSettings) : Prop :=
  TextFits 2 settings.language ∧ (-2 ^ 31 ≤ settings.minimumScore ∧ settings.minimumScore < 2 ^ 31) ∧
    TextFits 64 settings.scheduleTimezone ∧ settings.riskPercent.Fits 10 4 ∧
    settings.referenceBalance.Fits 20 4

instance (settings : TelegramUserSettings) : Decidable (Storable settings) :=
  inferInstanceAs (Decidable (_ ∧ _))

/-- What the columns of the row keep: `Time()` has no offset. -/
def columns (settings : TelegramUserSettings) : TelegramUserSettings :=
  { settings with
    scheduleStart := { settings.scheduleStart with offset := none }
    scheduleEnd := { settings.scheduleEnd with offset := none }
    riskPercent := settings.riskPercent.column 4
    referenceBalance := settings.referenceBalance.column 4 }

theorem PyDecimal.column_idem (places : Nat) (value : PyDecimal) :
    (value.column places).column places = value.column places := by
  cases value with
  | finite value => exact congrArg PyDecimal.finite (atPlaces_idem places value)
  | infinity negative => rfl
  | nan => rfl

theorem PyDecimal.Fits.column {digits places : Nat} {value : PyDecimal}
    (h : value.Fits digits places) : (value.column places).Fits digits places := by
  cases value with
  | finite value =>
    change |atPlaces awayFromZero places (atPlaces awayFromZero places value)| < _
    rwa [atPlaces_idem]
  | infinity negative => exact h
  | nan => exact h

theorem columns_idem (settings : TelegramUserSettings) :
    columns (columns settings) = columns settings := by
  simp only [columns, PyDecimal.column_idem]

theorem Storable.columns {settings : TelegramUserSettings} (h : Storable settings) :
    Storable (columns settings) :=
  ⟨h.1, h.2.1, h.2.2.1, h.2.2.2.1.column, h.2.2.2.2.column⟩

/-- `TelegramUserSettingsRecord`: settings as a row holds them. -/
structure SettingsRecord where
  settings : TelegramUserSettings
  storable : Storable settings
  held : columns settings = settings

/-- The values of one `update_user`. -/
inductive SettingsUpdate where
  | language (value : String)
  | minimumScore (value : Int)
  | schedule (start stop : ClockTime) (timezone : String)
  | risk (percent balance : PyDecimal)
  | paused (value : Bool)
  deriving Repr, DecidableEq

def SettingsUpdate.apply (settings : TelegramUserSettings) : SettingsUpdate → TelegramUserSettings
  | .language value => { settings with language := value }
  | .minimumScore value => { settings with minimumScore := value }
  | .schedule start stop timezone =>
    { settings with
      scheduleTimezone := timezone, scheduleStart := start, scheduleEnd := stop }
  | .risk percent balance =>
    { settings with riskPercent := percent, referenceBalance := balance }
  | .paused value => { settings with paused := value }

/-- The row after the update, and the settings that the caller gets: the values as they were
given. -/
def updateUser (record : SettingsRecord) (update : SettingsUpdate) :
    Except Raised (SettingsRecord × TelegramUserSettings) :=
  if h : Storable (update.apply record.settings) then
    .ok (⟨columns (update.apply record.settings), h.columns, columns_idem _⟩,
      update.apply record.settings)
  else .error .databaseError

/-- The ways in which `notification_window_is_open` can raise are its own here. -/
def notificationWindowIsOpen (python : Python) (now : Int) (settings : TelegramUserSettings) :
    Except Raised Bool :=
  match python.zoneInfo settings.scheduleTimezone with
  | .raised error => .error error
  | .notFound => .ok false
  | .loaded localTime =>
    if settings.scheduleStart.same settings.scheduleEnd then .ok true
    else do
      let clock : ClockTime := { time := localTime now }
      if ← settings.scheduleStart.before settings.scheduleEnd then
        if ← clock.before settings.scheduleStart then return false
        else clock.before settings.scheduleEnd
      else
        if ← clock.before settings.scheduleStart then clock.before settings.scheduleEnd
        else return true

end Settings

section Replies

inductive TextKey where
  | help
  | noSignals
  | coinMissing
  | coinNotFound (symbol : String)
  | invalidValue
  | paused
  | resumed
  deriving Repr, DecidableEq

/-- A reply before it is put into words; `rendered` is the text of a query's answer. -/
inductive Reply where
  | empty
  | text (language : String) (key : TextKey)
  | rendered (text : String)
  | settings (language : String) (view : TelegramUserSettings)
  deriving Repr, DecidableEq

/-- The queries at the time of the command, with the rendering of what they find. -/
structure Queries where
  activeSignals : String → List String
  latestCoin : String → String → Option String
  status : String → String
  stats : String → String

/-- `TEXTS.get(language, TEXTS["en"])`. -/
def text (language : String) (key : TextKey) : Reply :=
  .text (if language = "ru" then "ru" else "en") key

/-- `_number`: `quantize` raises when the result has more than 28 digits. -/
def number : PyDecimal → Except Raised PyDecimal
  | .finite value =>
    if |atPlaces toEven 4 value| < 10 ^ 24 then .ok (.finite (atPlaces toEven 4 value))
    else .error .invalidOperation
  | .infinity _ => .error .invalidOperation
  | .nan => .ok .nan

def renderSettings (settings : TelegramUserSettings) (language : String) :
    Except Raised Reply := do
  let risk ← number settings.riskPercent
  let balance ← number settings.referenceBalance
  return .settings language { settings with riskPercent := risk, referenceBalance := balance }

end Replies

section Handle
variable (python : Python) (queries : Queries)

inductive Command where
  | help
  | signals
  | coin
  | settings
  | status
  | stats
  | language
  | threshold
  | schedule
  | risk
  | pause
  | resume
  deriving Repr, DecidableEq

/-- `/start`, `/help` and every other word give the help text. -/
def Command.ofWord : String → Command
  | "/signals" => .signals
  | "/coin" => .coin
  | "/settings" => .settings
  | "/status" => .status
  | "/stats" => .stats
  | "/language" => .language
  | "/threshold" => .threshold
  | "/schedule" => .schedule
  | "/risk" => .risk
  | "/pause" => .pause
  | "/resume" => .resume
  | _ => .help

/-- `parts[0].split("@", 1)[0].lower()`. -/
def commandOf (parts : List String) : Command :=
  match parts with
  | [] => .help
  | word :: _ => .ofWord (python.lower (String.ofList (word.toList.takeWhile (· ≠ '@'))))

def normalizeSymbol (word : String) : String :=
  if "USDT".toList.isSuffixOf (python.upper word).toList then python.upper word
  else python.upper word ++ "USDT"

/-- The text that the query of `/coin` compares with. -/
def coinSymbol (word : String) : String := python.upper (normalizeSymbol python word)

/-- A text with the character zero cannot be sent to the database. -/
def latestCoin (word language : String) : Except Raised (Option String) :=
  if zeroCharacter ∈ (coinSymbol python word).toList then .error .databaseError
  else .ok (queries.latestCoin (coinSymbol python word) language)

def languageUpdate (args : List String) : Except Raised (Option SettingsUpdate) :=
  match args with
  | [word] =>
    if python.lower word ∈ ["ru", "en"] then .ok (some (.language (python.lower word)))
    else .ok none
  | _ => .ok none

def thresholdUpdate (args : List String) : Except Raised (Option SettingsUpdate) :=
  match args with
  | [word] =>
    if isdigit python word then do
      let threshold ← parseInt python word
      if 0 ≤ threshold ∧ threshold ≤ 100 then return some (.minimumScore threshold)
      else return none
    else .ok none
  | _ => .ok none

/-- `_parse_schedule` after the check of the number of words. -/
def scheduleOf (first second timezone : String) : Except Raised (Option SettingsUpdate) :=
  match python.fromIsoformat first, python.fromIsoformat second with
  | some start, some stop =>
    match python.zoneInfo timezone with
    | .loaded _ => .ok (some (.schedule start stop timezone))
    | .notFound => .ok none
    | .raised error => .error error
  | _, _ => .ok none

def parseSchedule (args : List String) (defaultTimezone : String) :
    Except Raised (Option SettingsUpdate) :=
  match args with
  | [first, second] => scheduleOf python first second defaultTimezone
  | [first, second, timezone] => scheduleOf python first second timezone
  | _ => .ok none

/-- `_parse_risk` after the two constructors; the later comparisons are not reached when an
earlier one holds. -/
def riskOf (risk balance : PyDecimal) : Except Raised (Option SettingsUpdate) := do
  if ← risk.atMost 0 then return none
  else if !(← risk.atMost 10) then return none
  else if ← balance.atMost 0 then return none
  else return some (.risk risk balance)

def parseRisk (args : List String) : Except Raised (Option SettingsUpdate) :=
  match args with
  | [first, second] =>
    match python.decimal first, python.decimal second with
    | some risk, some balance => riskOf risk balance
    | _, _ => .ok none
  | _ => .ok none

/-- The end of a call: the row, the settings that `update_user` returned if it was called,
and the reply. -/
structure Handled where
  record : Option SettingsRecord
  updated : Option TelegramUserSettings := none
  reply : Except Raised Reply

def update (record : SettingsRecord) (change : SettingsUpdate)
    (render : TelegramUserSettings → Except Raised Reply) : Handled :=
  match updateUser record change with
  | .error error => { record := some record, reply := .error error }
  | .ok (next, settings) =>
    { record := some next, updated := some settings, reply := render settings }

/-- The branch of a command that parses its words. -/
def updateParsed (record : SettingsRecord) (parsed : Except Raised (Option SettingsUpdate))
    (render : TelegramUserSettings → Except Raised Reply) : Handled :=
  match parsed with
  | .error error => { record := some record, reply := .error error }
  | .ok none =>
    { record := some record, reply := .ok (text record.settings.language .invalidValue) }
  | .ok (some change) => update record change render

def handleCommand (record : SettingsRecord) (command : Command) (args : List String) : Handled :=
  let language := record.settings.language
  let answer (reply : Except Raised Reply) : Handled := { record := some record, reply := reply }
  match command with
  | .help => answer (.ok (text language .help))
  | .signals =>
    if (queries.activeSignals language).isEmpty then answer (.ok (text language .noSignals))
    else answer (.ok (.rendered ("\n\n".intercalate (queries.activeSignals language))))
  | .coin =>
    match args with
    | [] => answer (.ok (text language .coinMissing))
    | word :: _ => answer do
      match ← latestCoin python queries word language with
      | none => return text language (.coinNotFound (normalizeSymbol python word))
      | some analysis => return .rendered analysis
  | .settings => answer (renderSettings record.settings language)
  | .status => answer (.ok (.rendered (queries.status language)))
  | .stats => answer (.ok (.rendered (queries.stats language)))
  | .language =>
    updateParsed record (languageUpdate python args) fun settings =>
      renderSettings settings settings.language
  | .threshold =>
    updateParsed record (thresholdUpdate python args) fun settings =>
      renderSettings settings language
  | .schedule =>
    updateParsed record (parseSchedule python args record.settings.scheduleTimezone)
      fun settings => renderSettings settings language
  | .risk =>
    updateParsed record (parseRisk python args) fun settings => renderSettings settings language
  | .pause => update record (.paused true) fun _ => .ok (text language .paused)
  | .resume => update record (.paused false) fun _ => .ok (text language .resumed)

def handle (record : Option SettingsRecord) (commandText : String) : Handled :=
  match record with
  | none => { record := none, reply := .ok .empty }
  | some record =>
    handleCommand python queries record (commandOf python (splitWords commandText))
      (splitWords commandText).tail

end Handle

end StructurePulse.Telegram.Commands
