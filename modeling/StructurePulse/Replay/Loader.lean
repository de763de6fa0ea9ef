import StructurePulse.Replay.Chronology

/-!
# The CSV loader of a replay

`loadReplayCsv` reads the rows that `csv.reader` gives. The conversions of the texts are those of
the standard library; an exception of theirs that the loader does not expect leaves it as it is.
-/

namespace StructurePulse.Replay
open Library SMC Strategy Aggregation
set_option autoImplicit false

section Texts

/-- An exception; `isCaught` if it is an InvalidOperation, a TypeError or a ValueError. -/
structure Raised where
  isCaught : Bool
  text : String
  deriving Repr, DecidableEq

def valueError (text : String) : Raised := ⟨true, text⟩

/-- What `datetime.fromisoformat` reads: an instant, unless it has no timezone. -/
inductive IsoTime where
  | naive
  | aware (instant : Int)
  deriving Repr, DecidableEq

/-- The conversions of the standard library. `decimal` gives none for NaN and the infinities,
`fromTimestamp` takes seconds, and `candleErrors` is what pydantic says of such numbers. -/
structure TextLibrary where
  upper : String → String
  strip : String → String
  isDigit : String → Bool
  int : String → Except Raised Int
  fromTimestamp : ℚ → Except Raised Int
  fromIsoFormat : String → Except Raised IsoTime
  astimezone : Int → Except Raised Int
  decimal : String → Except Raised (Option ℚ)
  candleErrors : List (Option ℚ) → String

inductive LoadError where
  | missingColumns (names : List String)
  | invalidRow (lineNumber : Nat) (text : String)
  | duplicate (symbol : Symbol) (openTime : Int)
  | raised (text : String)
  deriving Repr, DecidableEq

/-- `isoformat` is that of a datetime. -/
def LoadError.text (isoformat : Int → String) : LoadError → String
  | .missingColumns names =>
    "Replay CSV is missing columns: [" ++
      ", ".intercalate (names.map fun name => "'" ++ name ++ "'") ++ "]"
  | .invalidRow lineNumber text => s!"Invalid replay CSV row {lineNumber}: {text}"
  | .duplicate symbol openTime => s!"Duplicate 1m candle: {symbol} {isoformat openTime}"
  | .raised text => text

end Texts

section Rows
variable (library : TextLibrary)

/-- A row of the `DictReader`: of two columns of one name the later counts, and a short line
has no value in the last columns. -/
def csvValue (fieldNames values : List String) (name : String) : Option String :=
  (fieldNames.zipIdx.reverse.find? fun field => decide (field.1 = name)).bind fun field =>
    values[field.2]?

def requiredValue (row : String → Option String) (name : String) : Except Raised String :=
  match row name with
  | none => .error (valueError (name ++ " cannot be empty"))
  | some value =>
    if (library.strip value).isEmpty then .error (valueError (name ++ " cannot be empty"))
    else .ok (library.strip value)

def requiredDecimal (row : String → Option String) (name : String) : Except Raised (Option ℚ) := do
  let value ← requiredValue library row name
  library.decimal value

/-- None if the column is missing or blank. -/
def optionalDecimal (row : String → Option String) (name : String) :
    Except Raised (Option (Option ℚ)) :=
  match row name with
  | none => .ok none
  | some value =>
    if (library.strip value).isEmpty then .ok none else (library.decimal value).map some

def parseTimestamp (value : String) : Except Raised Int :=
  let stripped := library.strip value
  if stripped.isEmpty then .error (valueError "open_time cannot be empty")
  else if library.isDigit stripped then do
    let raw ← library.int stripped
    library.fromTimestamp (if raw ≥ 10000000000 then (raw : ℚ) / 1000 else raw)
  else do
    let parsed ← library.fromIsoFormat (stripped.replace "Z" "+00:00")
    match parsed with
    | .naive => .error (valueError "open_time must include a timezone")
    | .aware instant => library.astimezone instant

def parseCandle (row : String → Option String) : Except Raised Candle1m := do
  let symbol := library.upper (← requiredValue library row "symbol")
  if symbol.isEmpty then throw (valueError "symbol cannot be empty")
  let openTime ← parseTimestamp library (← requiredValue library row "open_time")
  let openPrice ← requiredDecimal library row "open"
  let highPrice ← requiredDecimal library row "high"
  let lowPrice ← requiredDecimal library row "low"
  let closePrice ← requiredDecimal library row "close"
  let volume ← requiredDecimal library row "volume"
  let turnover ← requiredDecimal library row "turnover"
  -- the constructor refuses what `_validate_finite` would
  match openPrice, highPrice, lowPrice, closePrice, volume, turnover with
  | some openPrice, some highPrice, some lowPrice, some closePrice, some volume, some turnover =>
    return {
      symbol := symbol
      openTime := openTime
      openPrice := openPrice
      highPrice := highPrice
      lowPrice := lowPrice
      closePrice := closePrice
      volume := volume
      turnover := turnover }
  | _, _, _, _, _, _ =>
    throw (valueError (library.candleErrors
      [openPrice, highPrice, lowPrice, closePrice, volume, turnover]))

def checkCandle (candle : Candle1m) : Except Raised Unit :=
  if min (min (min candle.openPrice candle.highPrice) candle.lowPrice) candle.closePrice ≤ 0 then
    .error (valueError "candle prices must be positive")
  else if candle.volume < 0 ∨ candle.turnover < 0 then
    .error (valueError "volume and turnover cannot be negative")
  else if candle.lowPrice > candle.highPrice then .error (valueError "low exceeds high")
  else if candle.lowPrice > min candle.openPrice candle.closePrice then
    .error (valueError "low exceeds candle body")
  else if candle.highPrice < max candle.openPrice candle.closePrice then
    .error (valueError "high is below candle body")
  else .ok ()

/-- The checks of the instrument's limits. -/
def checkLimits (row : ReplayMarketRow) : Except Raised Unit :=
  if row.instrumentMaxLeverage.any fun leverage => decide (leverage < 1) then
    .error (valueError "instrument_max_leverage must be at least one")
  else if row.instrumentQuantityStep.any fun step => decide (step ≤ 0) then
    .error (valueError "instrument_quantity_step must be positive")
  else if row.instrumentMinNotional.any fun notional => decide (notional < 0) then
    .error (valueError "instrument_min_notional cannot be negative")
  else .ok ()

def parseRow (row : String → Option String) : Except Raised ReplayMarketRow := do
  let candle ← parseCandle library row
  checkCandle candle
  let openInterest ← optionalDecimal library row "open_interest"
  let fundingRate ← optionalDecimal library row "funding_rate"
  let spreadBps ← optionalDecimal library row "spread_bps"
  let turnover24hUsdt ← optionalDecimal library row "turnover_24h_usdt"
  let instrumentMaxLeverage ← optionalDecimal library row "instrument_max_leverage"
  let instrumentQuantityStep ← optionalDecimal library row "instrument_quantity_step"
  let instrumentMinNotional ← optionalDecimal library row "instrument_min_notional"
  if [openInterest, fundingRate, spreadBps, turnover24hUsdt, instrumentMaxLeverage,
      instrumentQuantityStep, instrumentMinNotional].any fun value => decide (value = some none) then
    throw (valueError "numeric values must be finite")
  let marketRow : ReplayMarketRow := {
    candle := candle
    openInterest := openInterest.join
    fundingRate := fundingRate.join
    spreadBps := spreadBps.join
    turnover24hUsdt := turnover24hUsdt.join
    instrumentMaxLeverage := instrumentMaxLeverage.join
    instrumentQuantityStep := instrumentQuantityStep.join
    instrumentMinNotional := instrumentMinNotional.join }
  checkLimits marketRow
  return marketRow

end Rows

section Loading
variable (library : TextLibrary)

/-- `sorted(REQUIRED_COLUMNS)`. -/
def requiredColumns : List String :=
  ["close", "high", "low", "open", "open_time", "symbol", "turnover", "volume"]

/-- The `except` of the loop. -/
def Raised.toLoadError (raised : Raised) (lineNumber : Nat) : LoadError :=
  if raised.isCaught then .invalidRow lineNumber raised.text else .raised raised.text

/-- The loop over the enumerated rows. -/
def parseLines (fieldNames : List String) : Nat → List (List String) →
    Except LoadError (List ReplayMarketRow)
  | _, [] => .ok []
  | lineNumber, line :: lines =>
    match parseRow library (csvValue fieldNames line) with
    | .error raised => .error (raised.toLoadError lineNumber)
    | .ok row => do
      let rows ← parseLines fieldNames (lineNumber + 1) lines
      return row :: rows

/-- The first row whose key was seen before. -/
def firstRepeated : List (Int ×ₗ Symbol) → List ReplayMarketRow → Option ReplayMarketRow
  | _, [] => none
  | seen, row :: rows =>
    if rowKey row ∈ seen then some row else firstRepeated (rowKey row :: seen) rows

/-- The loop over the sorted rows. -/
def rejectRepeated (rows : List ReplayMarketRow) : Except LoadError (List ReplayMarketRow) :=
  match firstRepeated [] rows with
  | some row => .error (.duplicate row.candle.symbol row.candle.openTime)
  | none => .ok rows

/-- The lines the reader gives: it skips the blank ones. -/
def readLines (lines : List (List String)) : List (List String) :=
  lines.filter fun line => decide (line ≠ [])

def missingColumns (fieldNames : List String) : List String :=
  requiredColumns.filter fun name => decide (name ∉ fieldNames)

/-- `header` is the first line, if there is one. -/
def loadReplayCsv (header : Option (List String)) (lines : List (List String)) :
    Except LoadError (List ReplayMarketRow) :=
  let fieldNames := header.getD []
  if missingColumns fieldNames ≠ [] then .error (.missingColumns (missingColumns fieldNames))
  else do
    let rows ← parseLines library fieldNames 2 (readLines lines)
    rejectRepeated (sortedBy rowKey rows)

end Loading

section Lines
variable {library : TextLibrary} {fieldNames : List String} {lineNumber : Nat}
  {lines : List (List String)}

/-- What the loader makes of one line. -/
abbrev parsesTo (library : TextLibrary) (fieldNames line : List String) (row : ReplayMarketRow) :
    Prop := parseRow library (csvValue fieldNames line) = .ok row

theorem parseLines_ok_iff {rows : List ReplayMarketRow} :
    parseLines library fieldNames lineNumber lines = .ok rows ↔
      List.Forall₂ (parsesTo library fieldNames) lines rows := by
  induction lines generalizing lineNumber rows with
  | nil =>
    rw [List.forall₂_nil_left_iff]
    constructor
    · intro h
      cases h
      rfl
    · rintro rfl
      rfl
  | cons line lines ih =>
    simp only [parseLines]
    rw [List.forall₂_cons_left_iff]
    cases hline : parseRow library (csvValue fieldNames line) with
    | error raised =>
      constructor
      · intro h
        cases h
      · rintro ⟨row, rest, hrow, -, -⟩
        rw [parsesTo, hline] at hrow
        cases hrow
    | ok row =>
      simp only
      constructor
      · intro h
        obtain ⟨rest, hrest, hrows⟩ := bind_eq_ok.mp h
        cases hrows
        exact ⟨row, rest, hline, ih.mp hrest, rfl⟩
      · rintro ⟨other, rest, hother, hrest, rfl⟩
        rw [parsesTo, hline] at hother
        cases hother
        exact bind_eq_ok.mpr ⟨rest, ih.mpr hrest, rfl⟩

/-- The loop stops at the first line that raises. -/
theorem parseLines_error_iff {error : LoadError} :
    parseLines library fieldNames lineNumber lines = .error error ↔
      ∃ before bad after raised, lines = before ++ bad :: after ∧
        (∀ line ∈ before, ∃ row, parsesTo library fieldNames line row) ∧
        parseRow library (csvValue fieldNames bad) = .error raised ∧
        error = raised.toLoadError (lineNumber + before.length) := by
  induction lines generalizing lineNumber with
  | nil =>
    constructor
    · intro h
      cases h
    · rintro ⟨before, bad, after, raised, hlines, -⟩
      cases before <;> cases hlines
  | cons line lines ih =>
    simp only [parseLines]
    cases hline : parseRow library (csvValue fieldNames line) with
    | error raised =>
      constructor
      · intro h
        cases h
        refine ⟨[], line, lines, raised, rfl, ?_, hline, rfl⟩
        intro other hother
        cases hother
      · rintro ⟨before, bad, after, other, hlines, hbefore, hbad, rfl⟩
        cases before with
        | nil =>
          cases hlines
          rw [hline] at hbad
          cases hbad
          rfl
        | cons first before =>
          cases hlines
          obtain ⟨row, hrow⟩ := hbefore line List.mem_cons_self
          rw [parsesTo, hline] at hrow
          cases hrow
    | ok row =>
      simp only
      rw [bind_eq_error]
      constructor
      · intro h
        rcases h with hrest | ⟨rest, -, hrow⟩
        · obtain ⟨before, bad, after, raised, rfl, hbefore, hbad, rfl⟩ := ih.mp hrest
          refine ⟨line :: before, bad, after, raised, rfl, ?_, hbad, ?_⟩
          · intro other hother
            rcases List.mem_cons.mp hother with rfl | hother
            · exact ⟨row, hline⟩
            · exact hbefore other hother
          · rw [List.length_cons]
            congr 1
            omega
        · cases hrow
      · rintro ⟨before, bad, after, raised, hlines, hbefore, hbad, rfl⟩
        left
        cases before with
        | nil =>
          cases hlines
          rw [hline] at hbad
          cases hbad
        | cons first before =>
          cases hlines
          apply ih.mpr
          refine ⟨before, bad, after, raised, rfl, ?_, hbad, ?_⟩
          · intro other hother
            exact hbefore other (List.mem_cons_of_mem _ hother)
          · rw [List.length_cons]
            congr 1
            omega

/-- Every row comes from a line. -/
theorem line_of_row {rows : List ReplayMarketRow}
    (h : List.Forall₂ (parsesTo library fieldNames) lines rows) :
    ∀ row ∈ rows, ∃ line ∈ lines, parsesTo library fieldNames line row := by
  induction h with
  | nil =>
    intro row hrow
    cases hrow
  | @cons line parsed lines rows hline _ ih =>
    intro row hrow
    rcases List.mem_cons.mp hrow with rfl | hrow
    · exact ⟨line, List.mem_cons_self, hline⟩
    · obtain ⟨other, hother, hparsed⟩ := ih row hrow
      exact ⟨other, List.mem_cons_of_mem _ hother, hparsed⟩

theorem firstRepeated_eq_none {seen : List (Int ×ₗ Symbol)} {rows : List ReplayMarketRow} :
    firstRepeated seen rows = none ↔
      (rows.map rowKey).Nodup ∧ ∀ row ∈ rows, rowKey row ∉ seen := by
  induction rows generalizing seen with
  | nil => simp [firstRepeated]
  | cons row rows ih =>
    simp only [firstRepeated]
    split
    · rename_i hseen
      constructor
      · intro h
        cases h
      · rintro ⟨-, hfree⟩
        exact absurd hseen (hfree row List.mem_cons_self)
    · rename_i hfresh
      rw [ih, List.map_cons, List.nodup_cons]
      constructor
      · rintro ⟨hnodup, hfree⟩
        refine ⟨⟨?_, hnodup⟩, ?_⟩
        · intro hmem
          obtain ⟨other, hother, hkey⟩ := List.mem_map.mp hmem
          apply hfree other hother
          rw [hkey]
          exact List.mem_cons_self
        · intro other hother hmem
          rcases List.mem_cons.mp hother with rfl | hother
          · exact hfresh hmem
          · exact hfree other hother (List.mem_cons_of_mem _ hmem)
      · rintro ⟨⟨hnew, hnodup⟩, hfree⟩
        refine ⟨hnodup, ?_⟩
        intro other hother hmem
        rcases List.mem_cons.mp hmem with hkey | hmem
        · apply hnew
          rw [← hkey]
          exact List.mem_map_of_mem hother
        · exact hfree other (List.mem_cons_of_mem _ hother) hmem

end Lines

section Accepted
variable {library : TextLibrary}

/-- What the loader has checked of a row. -/
structure Loadable (row : ReplayMarketRow) : Prop where
  formed : Formed row.candle
  low_pos : 0 < row.candle.lowPrice
  turnover_nonneg : 0 ≤ row.candle.turnover
  leverage : ∀ leverage ∈ row.instrumentMaxLeverage, 1 ≤ leverage
  step : ∀ step ∈ row.instrumentQuantityStep, 0 < step
  notional : ∀ notional ∈ row.instrumentMinNotional, 0 ≤ notional

theorem checkCandle_ok {candle : Candle1m} (h : checkCandle candle = .ok ()) :
    Formed candle ∧ 0 < candle.lowPrice ∧ 0 ≤ candle.turnover := by
  unfold checkCandle at h
  split_ifs at h with hprices hvolumes hrange hlow hhigh
  rw [not_or] at hvolumes
  have hbody := le_min_iff.mp (not_lt.mp hlow)
  have hbody' := max_le_iff.mp (not_lt.mp hhigh)
  refine ⟨⟨hbody.1, hbody.2, hbody'.1, hbody'.2, not_lt.mp hvolumes.1⟩, ?_, not_lt.mp hvolumes.2⟩
  calc 0 < min (min (min candle.openPrice candle.highPrice) candle.lowPrice) candle.closePrice :=
        not_le.mp hprices
    _ ≤ candle.lowPrice := (min_le_left _ _).trans (min_le_right _ _)

theorem checkLimits_ok {row : ReplayMarketRow} (h : checkLimits row = .ok ()) :
    (∀ leverage ∈ row.instrumentMaxLeverage, 1 ≤ leverage) ∧
      (∀ step ∈ row.instrumentQuantityStep, 0 < step) ∧
      ∀ notional ∈ row.instrumentMinNotional, 0 ≤ notional := by
  unfold checkLimits at h
  split_ifs at h with hleverage hstep hnotional
  refine ⟨?_, ?_, ?_⟩
  · intro leverage hmem
    apply not_lt.mp
    intro hlt
    exact hleverage ((Option.any_eq_true _ _).mpr ⟨leverage, hmem, decide_eq_true hlt⟩)
  · intro step hmem
    apply not_le.mp
    intro hle
    exact hstep ((Option.any_eq_true _ _).mpr ⟨step, hmem, decide_eq_true hle⟩)
  · intro notional hmem
    apply not_lt.mp
    intro hlt
    exact hnotional ((Option.any_eq_true _ _).mpr ⟨notional, hmem, decide_eq_true hlt⟩)

theorem parseRow_ok {row : String → Option String} {marketRow : ReplayMarketRow}
    (h : parseRow library row = .ok marketRow) : Loadable marketRow := by
  unfold parseRow at h
  obtain ⟨candle, -, h⟩ := bind_eq_ok.mp h
  obtain ⟨⟨⟩, hcandle, h⟩ := bind_eq_ok.mp h
  obtain ⟨openInterest, -, h⟩ := bind_eq_ok.mp h
  obtain ⟨fundingRate, -, h⟩ := bind_eq_ok.mp h
  obtain ⟨spreadBps, -, h⟩ := bind_eq_ok.mp h
  obtain ⟨turnover24hUsdt, -, h⟩ := bind_eq_ok.mp h
  obtain ⟨instrumentMaxLeverage, -, h⟩ := bind_eq_ok.mp h
  obtain ⟨instrumentQuantityStep, -, h⟩ := bind_eq_ok.mp h
  obtain ⟨instrumentMinNotional, -, h⟩ := bind_eq_ok.mp h
  split at h
  · cases h
  · obtain ⟨⟨⟩, hlimits, h⟩ := bind_eq_ok.mp h
    obtain ⟨hformed, hlow, hturnover⟩ := checkCandle_ok hcandle
    obtain ⟨hleverage, hstep, hnotional⟩ := checkLimits_ok hlimits
    cases h
    exact ⟨hformed, hlow, hturnover, hleverage, hstep, hnotional⟩

end Accepted

section Results
variable {library : TextLibrary} {header : Option (List String)} {lines : List (List String)}

theorem missingColumns_eq_nil {fieldNames : List String} :
    missingColumns fieldNames = [] ↔ ∀ name ∈ requiredColumns, name ∈ fieldNames := by
  unfold missingColumns
  rw [List.filter_eq_nil_iff]
  simp only [decide_eq_true_eq, not_not]

theorem rejectRepeated_ok_iff {rows accepted : List ReplayMarketRow} :
    rejectRepeated rows = .ok accepted ↔ (rows.map rowKey).Nodup ∧ accepted = rows := by
  have hnone := @firstRepeated_eq_none [] rows
  unfold rejectRepeated
  split
  · rename_i row hrepeated
    rw [hrepeated] at hnone
    constructor
    · intro h
      cases h
    · intro h
      cases hnone.mpr ⟨h.1, fun _ _ => List.not_mem_nil⟩
  · rename_i hfree
    constructor
    · intro h
      cases h
      exact ⟨(hnone.mp hfree).1, rfl⟩
    · intro h
      rw [h.2]

theorem loadReplayCsv_ok_iff {rows : List ReplayMarketRow} :
    loadReplayCsv library header lines = .ok rows ↔
      (∀ name ∈ requiredColumns, name ∈ header.getD []) ∧
      ∃ parsed, List.Forall₂ (parsesTo library (header.getD [])) (readLines lines) parsed ∧
        (parsed.map rowKey).Nodup ∧ rows = sortedBy rowKey parsed := by
  have hkeys : ∀ parsed : List ReplayMarketRow,
      ((sortedBy rowKey parsed).map rowKey).Nodup ↔ (parsed.map rowKey).Nodup :=
    fun parsed => ((sortedBy_perm parsed).map rowKey).nodup_iff
  unfold loadReplayCsv
  simp only
  rw [← missingColumns_eq_nil]
  split
  · rename_i hmissing
    constructor
    · intro h
      cases h
    · intro h
      exact absurd h.1 hmissing
  · rename_i hcomplete
    rw [bind_eq_ok]
    constructor
    · intro h
      obtain ⟨parsed, hparsed, hrows⟩ := h
      obtain ⟨hnodup, rfl⟩ := rejectRepeated_ok_iff.mp hrows
      exact ⟨not_not.mp hcomplete, parsed, parseLines_ok_iff.mp hparsed, (hkeys parsed).mp hnodup, rfl⟩
    · intro h
      obtain ⟨-, parsed, hparsed, hnodup, rfl⟩ := h
      exact ⟨parsed, parseLines_ok_iff.mpr hparsed,
        rejectRepeated_ok_iff.mpr ⟨(hkeys parsed).mpr hnodup, rfl⟩⟩

theorem rejectRepeated_ne_invalidRow {rows : List ReplayMarketRow} {lineNumber : Nat} {text : String} :
    rejectRepeated rows ≠ .error (.invalidRow lineNumber text) := by
  unfold rejectRepeated
  split
  · intro h
    cases h
  · intro h
    cases h

theorem toLoadError_eq_invalidRow {raised : Raised} {lineNumber n : Nat} {text : String} :
    LoadError.invalidRow lineNumber text = raised.toLoadError n ↔
      raised = ⟨true, text⟩ ∧ lineNumber = n := by
  obtain ⟨isCaught, raisedText⟩ := raised
  unfold Raised.toLoadError
  cases isCaught with
  | false => simp
  | true =>
    simp only [if_true, LoadError.invalidRow.injEq, Raised.mk.injEq, true_and]
    exact ⟨fun h => ⟨h.2.symm, h.1⟩, fun h => ⟨h.2, h.1.symm⟩⟩

theorem loadReplayCsv_invalidRow_iff {lineNumber : Nat} {text : String} :
    loadReplayCsv library header lines = .error (.invalidRow lineNumber text) ↔
      (∀ name ∈ requiredColumns, name ∈ header.getD []) ∧
      ∃ before bad after, readLines lines = before ++ bad :: after ∧
        (∀ line ∈ before, ∃ row, parsesTo library (header.getD []) line row) ∧
        parseRow library (csvValue (header.getD []) bad) = .error ⟨true, text⟩ ∧
        lineNumber = 2 + before.length := by
  unfold loadReplayCsv
  simp only
  rw [← missingColumns_eq_nil]
  split
  · rename_i hmissing
    constructor
    · intro h
      cases h
    · intro h
      exact absurd h.1 hmissing
  · rename_i hcomplete
    rw [bind_eq_error]
    constructor
    · intro h
      rcases h with hparse | ⟨parsed, -, hrepeated⟩
      · obtain ⟨before, bad, after, raised, hlines, hbefore, hbad, herror⟩ :=
          parseLines_error_iff.mp hparse
        obtain ⟨rfl, hnumber⟩ := toLoadError_eq_invalidRow.mp herror
        exact ⟨not_not.mp hcomplete, before, bad, after, hlines, hbefore, hbad, hnumber⟩
      · exact absurd hrepeated rejectRepeated_ne_invalidRow
    · intro h
      obtain ⟨-, before, bad, after, hlines, hbefore, hbad, hnumber⟩ := h
      left
      apply parseLines_error_iff.mpr
      exact ⟨before, bad, after, _, hlines, hbefore, hbad,
        toLoadError_eq_invalidRow.mpr ⟨rfl, hnumber⟩⟩

variable (library header lines)

/-- A file is accepted exactly when it has the columns, every line parses and no key is there
twice; the rows are then its lines sorted. A bad line is answered with the error of the first
one. -/
theorem loadReplayCsv_outcome :
    (∀ rows, loadReplayCsv library header lines = .ok rows ↔
      (∀ name ∈ requiredColumns, name ∈ header.getD []) ∧
      ∃ parsed, List.Forall₂ (parsesTo library (header.getD [])) (readLines lines) parsed ∧
        (parsed.map rowKey).Nodup ∧ rows = sortedBy rowKey parsed) ∧
    ∀ lineNumber text, loadReplayCsv library header lines = .error (.invalidRow lineNumber text) ↔
      (∀ name ∈ requiredColumns, name ∈ header.getD []) ∧
      ∃ before bad after, readLines lines = before ++ bad :: after ∧
        (∀ line ∈ before, ∃ row, parsesTo library (header.getD []) line row) ∧
        parseRow library (csvValue (header.getD []) bad) = .error ⟨true, text⟩ ∧
        lineNumber = 2 + before.length :=
  ⟨fun _ => loadReplayCsv_ok_iff, fun _ _ => loadReplayCsv_invalidRow_iff⟩

variable {library header lines}

/-- What the loader accepts is in the order of its keys and passes every check of the runner, so
the replay of it never raises; the order of the lines does not matter. -/
theorem loaded_rows_replay {rows : List ReplayMarketRow}
    (h : loadReplayCsv library header lines = .ok rows) :
    (rows.Pairwise fun a b => rowKey a < rowKey b) ∧ (∀ row ∈ rows, Loadable row) ∧
    (∀ settings config, ∃ result, runReplay settings config rows = .ok result) ∧
    ∀ shuffled, shuffled.Perm lines → loadReplayCsv library header shuffled = .ok rows := by
  obtain ⟨hcolumns, parsed, hparsed, hnodup, rfl⟩ := loadReplayCsv_ok_iff.mp h
  have hdistinct : parsed.Pairwise fun a b => rowKey a ≠ rowKey b := List.pairwise_map.mp hnodup
  have hloadable : ∀ row ∈ sortedBy rowKey parsed, Loadable row := by
    intro row hrow
    obtain ⟨line, -, hline⟩ := line_of_row hparsed row (mem_sortedBy.mp hrow)
    exact parseRow_ok hline
  refine ⟨sortedBy_increasing rowKey hdistinct, hloadable, ?_, ?_⟩
  · intro settings config
    obtain ⟨result, -, hresult, -⟩ :=
      @runReplay_ok config settings _ fun row hrow => (hloadable row hrow).formed
    exact ⟨result, hresult⟩
  · intro shuffled hperm
    obtain ⟨others, hothers, hpermuted⟩ :=
      List.perm_comp_forall₂ (hperm.filter fun line => decide (line ≠ [])) hparsed
    apply loadReplayCsv_ok_iff.mpr
    refine ⟨hcolumns, others, hothers, ?_, ?_⟩
    · exact (hpermuted.map rowKey).nodup_iff.mpr hnodup
    · exact (sortedBy_eq_of_perm hpermuted hdistinct).symm

def plainNumber (text : String) : Except Raised Nat :=
  text.toList.foldlM (fun value digit =>
    if digit.isDigit then .ok (10 * value + (digit.toNat - 48)) else .error (valueError "")) 0

/-- Plain numbers of seconds and of prices. -/
def plainTexts : TextLibrary where
  upper := id
  strip := id
  isDigit text := text.toList.all Char.isDigit
  int text := (plainNumber text).map fun value => (value : Int)
  fromTimestamp seconds := .ok (seconds * 1000000).floor
  fromIsoFormat _ := .error (valueError "")
  astimezone instant := .ok instant
  decimal text := (plainNumber text).map fun value => some (value : ℚ)
  candleErrors _ := ""

def quietSample (openTime : Int) : ReplayMarketRow where
  candle := { (quietRow openTime).candle with symbol := "BTCUSDT" }

/-- Two minutes of one symbol, the later one first. -/
def sampleLines : List (List String) :=
  [["BTCUSDT", "120", "100", "101", "99", "100", "1", "100"], [],
    ["BTCUSDT", "60", "100", "101", "99", "100", "1", "100"]]

def sampleHeader : Option (List String) :=
  some ["symbol", "open_time", "open", "high", "low", "close", "volume", "turnover"]

theorem loaded_rows_replay_sample :
    ∃ rows, rows.map (fun row => row.candle.openTime) = [60000000, 120000000] ∧
      ∃ result, runReplay .standard shortHistory rows = .ok result := by
  have hrows : (loadReplayCsv plainTexts sampleHeader sampleLines).toOption =
      some [quietSample 60000000, quietSample 120000000] := by
    decide +kernel
  have hload : loadReplayCsv plainTexts sampleHeader sampleLines =
      .ok [quietSample 60000000, quietSample 120000000] := by
    cases hresult : loadReplayCsv plainTexts sampleHeader sampleLines with
    | error _ =>
      rw [hresult] at hrows
      cases hrows
    | ok rows =>
      rw [hresult] at hrows
      cases hrows
      rfl
  exact ⟨_, rfl, (loaded_rows_replay hload).2.2.1 .standard shortHistory⟩

end Results

end StructurePulse.Replay
