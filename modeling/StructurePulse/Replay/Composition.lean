import StructurePulse.Aggregation.Exactness
import StructurePulse.Library.Partitions
import StructurePulse.Replay.Runner

/-!
# Aggregates of aggregates

The interval of a longer timeframe is tiled by the intervals of a shorter one. It can be
aggregated exactly if all its tiles can, and then the aggregation rule, applied to the
aggregates of the tiles, gives the same candle.
-/

namespace StructurePulse.Replay
open Library SMC Aggregation
set_option autoImplicit false

section Tiles

/-- The intervals of a shorter timeframe in an interval of a longer one. -/
def tileStarts (shorter longer : Timeframe) (start : Int) : List Int :=
  (List.range (timeframeMinutes longer / timeframeMinutes shorter)).map fun (tile : Nat) =>
    start + minutes (tile * timeframeMinutes shorter : Nat)

theorem tileStarts_nodup (shorter longer : Timeframe) (start : Int) :
    (tileStarts shorter longer start).Nodup := by
  have hpos := timeframeMinutes_pos shorter
  refine List.pairwise_map.mpr (List.pairwise_lt_range.imp fun {i j} hlt => ?_)
  have hmul := Nat.mul_lt_mul_of_pos_right hlt hpos
  unfold minutes oneMinute
  omega

/-- Longer timeframes are multiples of shorter ones. -/
theorem timeframeMinutes_dvd {shorter longer : Timeframe}
    (h : timeframeMinutes shorter < timeframeMinutes longer) :
    timeframeMinutes shorter ∣ timeframeMinutes longer := by
  revert h
  cases shorter <;> cases longer <;> decide

variable {shorter longer : Timeframe} (hshorter : timeframeMinutes shorter < timeframeMinutes longer)
include hshorter

theorem intervalLength_dvd : intervalLength shorter ∣ intervalLength longer :=
  mul_dvd_mul_right (Int.natCast_dvd_natCast.mpr (timeframeMinutes_dvd hshorter)) oneMinute

theorem intervalLength_eq_mul : intervalLength longer =
    intervalLength shorter * (timeframeMinutes longer / timeframeMinutes shorter : Nat) := by
  have hmul := Nat.div_mul_cancel (timeframeMinutes_dvd hshorter)
  unfold intervalLength minutes
  calc (timeframeMinutes longer : Int) * oneMinute
      = (timeframeMinutes longer / timeframeMinutes shorter * timeframeMinutes shorter : Nat)
          * oneMinute := by rw [hmul]
    _ = timeframeMinutes shorter * oneMinute *
          (timeframeMinutes longer / timeframeMinutes shorter : Nat) := by
        push_cast
        ring

theorem tile_aligned {start tile : Int} (hstart : intervalLength longer ∣ start)
    (htile : tile ∈ tileStarts shorter longer start) : intervalLength shorter ∣ tile := by
  obtain ⟨index, -, rfl⟩ := List.mem_map.mp htile
  refine dvd_add ((intervalLength_dvd hshorter).trans hstart) ?_
  unfold intervalLength minutes
  push_cast
  exact mul_dvd_mul_right (dvd_mul_left _ _) oneMinute

theorem minutesOf_tiles (start : Int) :
    minutesOf start (timeframeMinutes longer) =
      (tileStarts shorter longer start).flatMap fun tile =>
        minutesOf tile (timeframeMinutes shorter) := by
  unfold tileStarts
  rw [List.flatMap_map, ← minutesOf_mul, Nat.div_mul_cancel (timeframeMinutes_dvd hshorter)]

/-- An interval of a shorter timeframe lies in one of a longer. -/
theorem intervalStart_nested (value : Int) :
    intervalStart (intervalStart value shorter) longer = intervalStart value longer ∧
      intervalStart value longer ≤ intervalStart value shorter ∧
      intervalStart value shorter + intervalLength shorter ≤
        intervalStart value longer + intervalLength longer := by
  have hstart : intervalStart value shorter = (value.tdiv 1000000 / 60 -
      value.tdiv 1000000 / 60 % timeframeMinutes shorter) * oneMinute := rfl
  rw [hstart, intervalStart_minute]
  unfold intervalStart intervalLength minutes
  generalize value.tdiv 1000000 / 60 = minute
  unfold oneMinute
  cases shorter <;> cases longer <;> simp only [timeframeMinutes] at hshorter ⊢ <;> push_cast <;> omega

/-- A time is in an interval exactly if it is in one of the tiles. -/
theorem intervalStart_eq_iff_mem_tiles {start : Int} (hstart : intervalLength longer ∣ start)
    (time : Int) :
    intervalStart time longer = start ↔
      intervalStart time shorter ∈ tileStarts shorter longer start := by
  constructor
  · rintro rfl
    obtain ⟨-, hle, hend⟩ := intervalStart_nested hshorter time
    have hpos := intervalLength_pos shorter
    have htile : intervalLength shorter ∣ intervalStart time shorter :=
      intervalStart_eq_self_iff.mp (intervalStart_idem time shorter)
    obtain ⟨index, hindex⟩ := dvd_sub htile ((intervalLength_dvd hshorter).trans hstart)
    have hlonger := intervalLength_eq_mul hshorter
    have hnonneg : 0 ≤ index := by
      refine (mul_nonneg_iff_of_pos_left hpos).mp ?_
      omega
    have hlt : index < (timeframeMinutes longer / timeframeMinutes shorter : Nat) := by
      refine lt_of_mul_lt_mul_left ?_ (le_of_lt hpos)
      omega
    refine List.mem_map.mpr ⟨index.toNat, List.mem_range.mpr (by omega), ?_⟩
    have hshift : minutes (index.toNat * timeframeMinutes shorter : Nat) =
        intervalLength shorter * index := by
      unfold intervalLength minutes
      push_cast
      rw [Int.toNat_of_nonneg hnonneg]
      ring
    rw [hshift]
    omega
  · intro h
    obtain ⟨index, hindex, heq⟩ := List.mem_map.mp h
    rw [← (intervalStart_nested hshorter time).1, ← heq]
    refine intervalStart_add longer (intervalStart_eq_self_iff.mpr hstart) ?_
    have hlt := List.mem_range.mp hindex
    calc index * timeframeMinutes shorter
        < timeframeMinutes longer / timeframeMinutes shorter * timeframeMinutes shorter :=
          Nat.mul_lt_mul_of_pos_right hlt (timeframeMinutes_pos shorter)
      _ = timeframeMinutes longer := Nat.div_mul_cancel (timeframeMinutes_dvd hshorter)

end Tiles

section Buckets
variable {candles : List Candle1m} {timeframe : Timeframe} {start : Int}
variable {aggregate : AggregatedCandle}

/-- The candles of an interval. -/
def bucket (candles : List Candle1m) (timeframe : Timeframe) (start : Int) : List Candle1m :=
  candles.filter fun candle => decide (intervalStart candle.openTime timeframe = start)

theorem mem_bucket {candle : Candle1m} : candle ∈ bucket candles timeframe start ↔
    candle ∈ candles ∧ intervalStart candle.openTime timeframe = start := by
  unfold bucket
  rw [List.mem_filter, decide_eq_true_eq]

/-- A bucket can be aggregated exactly if it is complete. -/
theorem bucketAggregate_eq_some_iff :
    bucketAggregate candles timeframe start = some aggregate ↔
      CompleteInterval (bucket candles timeframe start) timeframe start ∧
        Summarizes (bucket candles timeframe start) timeframe start aggregate := by
  unfold bucketAggregate
  rw [aggregateCandles_eq_some_iff]
  constructor
  · rintro ⟨time, hcomplete, -, hsummary⟩
    obtain ⟨first, hfirst, hopen⟩ := hcomplete.exists_at (timeframeMinutes_pos timeframe)
    have htime : time = start := by
      have hstart := (mem_bucket.mp hfirst).2
      have hzero : first.openTime = time := by
        rw [hopen]
        unfold minutes
        omega
      rw [hzero, intervalStart_eq_self_iff.mpr hcomplete.aligned] at hstart
      exact hstart
    subst htime
    exact ⟨hcomplete, hsummary⟩
  · rintro ⟨hcomplete, hsummary⟩
    refine ⟨start, hcomplete, fun time htime => ?_, hsummary⟩
    rw [← Option.some.inj htime]
    exact intervalStart_eq_self_iff.mpr hcomplete.aligned

variable {shorter longer : Timeframe} (hshorter : timeframeMinutes shorter < timeframeMinutes longer)
variable (hstart : intervalLength longer ∣ start)
include hshorter hstart

/-- The candles of an interval are those of its tiles. -/
theorem bucket_perm_tiles (candles : List Candle1m) :
    (bucket candles longer start).Perm
      ((tileStarts shorter longer start).flatMap (bucket candles shorter)) := by
  have hsame : bucket candles longer start = candles.filter fun candle =>
      decide (intervalStart candle.openTime shorter ∈ tileStarts shorter longer start) := by
    refine List.filter_congr fun candle _ => ?_
    rw [decide_eq_decide]
    exact intervalStart_eq_iff_mem_tiles hshorter hstart candle.openTime
  rw [hsame]
  exact filter_mem_perm_flatMap (fun candle : Candle1m => intervalStart candle.openTime shorter)
    (tileStarts_nodup shorter longer start) candles

theorem mem_bucket_iff_tiles {candle : Candle1m} : candle ∈ bucket candles longer start ↔
    ∃ tile ∈ tileStarts shorter longer start, candle ∈ bucket candles shorter tile :=
  (bucket_perm_tiles hshorter hstart candles).mem_iff.trans List.mem_flatMap

/-- The minutes of an interval are complete if those of its tiles are. -/
theorem times_of_tiles (h : ∀ tile ∈ tileStarts shorter longer start,
      CompleteInterval (bucket candles shorter tile) shorter tile) :
    ((bucket candles longer start).map Candle1m.openTime).Perm
      (minutesOf start (timeframeMinutes longer)) := by
  have hperm := (bucket_perm_tiles hshorter hstart candles).map Candle1m.openTime
  rw [List.map_flatMap] at hperm
  rw [minutesOf_tiles hshorter]
  exact hperm.trans (List.Perm.flatMap_left _ fun tile htile => (h tile htile).times)

/-- The tiles of a complete interval are complete. -/
theorem complete_tile (h : CompleteInterval (bucket candles longer start) longer start)
    {tile : Int} (htile : tile ∈ tileStarts shorter longer start) :
    CompleteInterval (bucket candles shorter tile) shorter tile := by
  have haligned := tile_aligned hshorter hstart htile
  refine ⟨haligned, fun candle hcandle other hother => ?_, ?_⟩
  · exact h.symbols candle ((mem_bucket_iff_tiles hshorter hstart).mpr ⟨tile, htile, hcandle⟩) other
      ((mem_bucket_iff_tiles hshorter hstart).mpr ⟨tile, htile, hother⟩)
  · have hpart : bucket candles shorter tile = (bucket candles longer start).filter fun candle =>
        decide (intervalStart candle.openTime shorter = tile) := by
      unfold bucket
      rw [List.filter_filter]
      refine List.filter_congr fun candle _ => ?_
      by_cases hin : intervalStart candle.openTime shorter = tile
      · have hlonger := (intervalStart_eq_iff_mem_tiles hshorter hstart candle.openTime).mpr
          (hin ▸ htile)
        simp [hin, hlonger]
      · simp [hin]
    have hmap : (bucket candles shorter tile).map Candle1m.openTime =
        ((bucket candles longer start).map Candle1m.openTime).filter fun time =>
          decide (intervalStart time shorter = tile) := by
      rw [hpart, List.filter_map]
      rfl
    have hnodup : ∀ first count, (minutesOf first count).Nodup := fun first count =>
      (minutesOf_increasing first count).imp ne_of_lt
    have hfilter := h.times.filter fun time => decide (intervalStart time shorter = tile)
    rw [hmap]
    refine hfilter.trans ((List.perm_ext_iff_of_nodup ((hnodup _ _).filter _) (hnodup _ _)).mpr
      fun time => ?_)
    rw [List.mem_filter, decide_eq_true_eq, minutesOf_tiles hshorter, List.mem_flatMap]
    have hown : ∀ other ∈ tileStarts shorter longer start, time ∈ minutesOf other
        (timeframeMinutes shorter) → intervalStart time shorter = other := by
      intro other hother hmem
      obtain ⟨index, hindex, rfl⟩ := mem_minutesOf.mp hmem
      exact intervalStart_add shorter
        (intervalStart_eq_self_iff.mpr (tile_aligned hshorter hstart hother)) hindex
    constructor
    · rintro ⟨⟨other, hother, hmem⟩, htime⟩
      rw [← htime, hown other hother hmem]
      exact hmem
    · intro hmem
      exact ⟨⟨tile, htile, hmem⟩, hown tile htile hmem⟩

/-- An interval is complete exactly if its tiles are, for one symbol. -/
theorem complete_of_tiles (symbol : Symbol) (h : ∀ tile ∈ tileStarts shorter longer start,
      CompleteInterval (bucket candles shorter tile) shorter tile) (hsymbol : ∀ tile ∈ tileStarts shorter longer start,
      ∀ candle ∈ bucket candles shorter tile, candle.symbol = symbol) :
    CompleteInterval (bucket candles longer start) longer start := by
  refine ⟨hstart, fun candle hcandle other hother => ?_, times_of_tiles hshorter hstart h⟩
  obtain ⟨tile, htile, hcandle⟩ := (mem_bucket_iff_tiles hshorter hstart).mp hcandle
  obtain ⟨tile', htile', hother⟩ := (mem_bucket_iff_tiles hshorter hstart).mp hother
  exact (hsymbol tile htile candle hcandle).trans (hsymbol tile' htile' other hother).symm

/-- One symbol's interval can be aggregated exactly if all its tiles can. -/
theorem exists_aggregate_iff_tiles (symbol : Symbol) :
    (∃ aggregate, bucketAggregate candles longer start = some aggregate ∧
        aggregate.symbol = symbol) ↔
      ∀ tile ∈ tileStarts shorter longer start, ∃ aggregate,
        bucketAggregate candles shorter tile = some aggregate ∧ aggregate.symbol = symbol := by
  constructor
  · rintro ⟨aggregate, haggregate, hsymbol⟩ tile htile
    obtain ⟨hcomplete, hsummary⟩ := bucketAggregate_eq_some_iff.mp haggregate
    have htileComplete := complete_tile hshorter hstart hcomplete htile
    obtain ⟨part, hpart⟩ := htileComplete.exists_summary
    refine ⟨part, bucketAggregate_eq_some_iff.mpr ⟨htileComplete, hpart⟩, ?_⟩
    obtain ⟨candle, hcandle, -⟩ := htileComplete.exists_at (timeframeMinutes_pos shorter)
    have hmem := (mem_bucket_iff_tiles hshorter hstart).mpr ⟨tile, htile, hcandle⟩
    rw [hpart.symbol candle hcandle, ← hsummary.symbol candle hmem, hsymbol]
  · intro h
    have hcomplete := @complete_of_tiles candles start shorter longer hshorter hstart symbol
      (fun tile htile => by
        obtain ⟨part, hpart, -⟩ := h tile htile
        exact (bucketAggregate_eq_some_iff.mp hpart).1)
      (fun tile htile candle hcandle => by
        obtain ⟨part, hpart, hsymbol⟩ := h tile htile
        rw [← (bucketAggregate_eq_some_iff.mp hpart).2.symbol candle hcandle, hsymbol])
    obtain ⟨aggregate, hsummary⟩ := hcomplete.exists_summary
    refine ⟨aggregate, bucketAggregate_eq_some_iff.mpr ⟨hcomplete, hsummary⟩, ?_⟩
    obtain ⟨candle, hcandle, -⟩ := hcomplete.exists_at (timeframeMinutes_pos longer)
    obtain ⟨tile, htile, htileCandle⟩ := (mem_bucket_iff_tiles hshorter hstart).mp hcandle
    obtain ⟨part, hpart, hsymbol⟩ := h tile htile
    rw [hsummary.symbol candle hcandle,
      ← (bucketAggregate_eq_some_iff.mp hpart).2.symbol candle htileCandle, hsymbol]

end Buckets

section Combine

/-- An aggregate read as a candle of its own. -/
def asCandle (aggregate : AggregatedCandle) : Candle1m where
  symbol := aggregate.symbol
  openTime := aggregate.openTime
  openPrice := aggregate.openPrice
  highPrice := aggregate.highPrice
  lowPrice := aggregate.lowPrice
  closePrice := aggregate.closePrice
  volume := aggregate.volume
  turnover := aggregate.turnover

/-- The aggregation rule, applied to aggregates. -/
def combine (timeframe : Timeframe) (first : AggregatedCandle) (rest : List AggregatedCandle) :
    AggregatedCandle :=
  aggregateOf timeframe (asCandle first) (rest.map asCandle)

/-- The tiles' aggregates, in order. -/
structure TiledBy (candles : List Candle1m) (shorter longer : Timeframe) (start : Int)
    (parts : List AggregatedCandle) : Prop where
  tiles : (tileStarts shorter longer start).map (bucketAggregate candles shorter) = parts.map some

variable {candles : List Candle1m} {shorter longer : Timeframe} {start : Int}
variable {parts : List AggregatedCandle} (h : TiledBy candles shorter longer start parts)
include h

theorem TiledBy.length : parts.length = timeframeMinutes longer / timeframeMinutes shorter := by
  have hlength := congrArg List.length h.tiles
  rw [List.length_map, List.length_map, tileStarts, List.length_map, List.length_range] at hlength
  exact hlength.symm

/-- The part at an index is the aggregate of the tile at the index. -/
theorem TiledBy.getElem {index : Nat} {part : AggregatedCandle} (hpart : parts[index]? = some part) :
    start + minutes (index * timeframeMinutes shorter : Nat) ∈ tileStarts shorter longer start ∧
      bucketAggregate candles shorter
        (start + minutes (index * timeframeMinutes shorter : Nat)) = some part := by
  have hget := congrArg (fun values => values[index]?) h.tiles
  have hindex : index < timeframeMinutes longer / timeframeMinutes shorter := by
    rw [← h.length]
    exact (List.getElem?_eq_some_iff.mp hpart).1
  simp only [tileStarts, List.getElem?_map, List.getElem?_range hindex, hpart, Option.map_some,
    Option.some.injEq] at hget
  exact ⟨List.mem_map.mpr ⟨index, List.mem_range.mpr hindex, rfl⟩, hget⟩

theorem TiledBy.mem {part : AggregatedCandle} (hpart : part ∈ parts) :
    ∃ tile ∈ tileStarts shorter longer start, bucketAggregate candles shorter tile = some part := by
  obtain ⟨index, hget⟩ := List.mem_iff_getElem?.mp hpart
  exact ⟨_, (h.getElem hget).1, (h.getElem hget).2⟩

/-- Every tile has its part. -/
theorem TiledBy.exists_part {tile : Int} (htile : tile ∈ tileStarts shorter longer start) :
    ∃ part ∈ parts, bucketAggregate candles shorter tile = some part := by
  have hmem : bucketAggregate candles shorter tile ∈ parts.map some := by
    rw [← h.tiles]
    exact List.mem_map_of_mem htile
  obtain ⟨part, hpart, heq⟩ := List.mem_map.mp hmem
  exact ⟨part, hpart, heq.symm⟩

/-- The sums of the parts add up. -/
theorem TiledBy.sum_eq (hshorter : timeframeMinutes shorter < timeframeMinutes longer)
    (hstart : intervalLength longer ∣ start) (amount : Candle1m → ℚ) (total : AggregatedCandle → ℚ)
    (htotal : ∀ tile part, Summarizes (bucket candles shorter tile) shorter tile part →
      total part = ((bucket candles shorter tile).map amount).sum) :
    (parts.map total).sum = ((bucket candles longer start).map amount).sum := by
  have hsums := map_eq_map_of_some (g := fun tile => ((bucket candles shorter tile).map amount).sum)
    (h := total) h.tiles fun tile part hpart =>
      (htotal tile part (bucketAggregate_eq_some_iff.mp hpart).2).symm
  have hperm := (bucket_perm_tiles hshorter hstart candles).map amount
  rw [← hsums, hperm.sum_eq, List.map_flatMap]
  induction tileStarts shorter longer start with
  | nil => rfl
  | cons tile tiles ih => rw [List.map_cons, List.sum_cons, List.flatMap_cons, List.sum_append, ih]

/-- The greatest value of the parts is the greatest of their candles. -/
theorem TiledBy.isGreatest (hshorter : timeframeMinutes shorter < timeframeMinutes longer)
    (hstart : intervalLength longer ∣ start) {κ : Type*} [Preorder κ] {value : Candle1m → κ}
    {top : AggregatedCandle → κ} {greatest : κ}
    (htop : ∀ tile part, Summarizes (bucket candles shorter tile) shorter tile part →
      IsGreatest {v | ∃ candle ∈ bucket candles shorter tile, value candle = v} (top part))
    (hgreatest : IsGreatest {v | ∃ part ∈ parts, top part = v} greatest) :
    IsGreatest {v | ∃ candle ∈ bucket candles longer start, value candle = v} greatest := by
  obtain ⟨⟨part, hpart, heq⟩, hupper⟩ := hgreatest
  constructor
  · obtain ⟨tile, htile, haggregate⟩ := h.mem hpart
    obtain ⟨candle, hcandle, hvalue⟩ := (htop tile part (bucketAggregate_eq_some_iff.mp haggregate).2).1
    exact ⟨candle, (mem_bucket_iff_tiles hshorter hstart).mpr ⟨tile, htile, hcandle⟩,
      hvalue.trans heq⟩
  · rintro v ⟨candle, hcandle, rfl⟩
    obtain ⟨tile, htile, htileCandle⟩ := (mem_bucket_iff_tiles hshorter hstart).mp hcandle
    obtain ⟨other, hother, haggregate⟩ := h.exists_part htile
    have htileTop := (htop tile other (bucketAggregate_eq_some_iff.mp haggregate).2).2
    exact (htileTop ⟨candle, htileCandle, rfl⟩).trans (hupper ⟨other, hother, rfl⟩)

end Combine

section Summary
variable {candles : List Candle1m} {shorter longer : Timeframe} {start : Int}
variable {first : AggregatedCandle} {rest : List AggregatedCandle}

theorem exists_mem_cons_eq {α κ : Type*} (f : α → κ) (x : α) (l : List α) (v : κ) :
    (∃ y ∈ x :: l, f y = v) ↔ v = f x ∨ ∃ y ∈ l, f y = v := by
  rw [List.exists_mem_cons_iff, eq_comm]

/-- The combination of the tiles' aggregates summarizes the whole interval. -/
theorem TiledBy.summarizes (h : TiledBy candles shorter longer start (first :: rest))
    (hsymbols : ∀ part ∈ first :: rest, part.symbol = first.symbol)
    (hshorter : timeframeMinutes shorter < timeframeMinutes longer)
    (hstart : intervalLength longer ∣ start) :
    Summarizes (bucket candles longer start) longer start (combine longer first rest) := by
  have hfirst := (@TiledBy.getElem _ _ _ _ _ h 0 first rfl).2
  have hzero : start + minutes (0 * timeframeMinutes shorter : Nat) = start := by
    unfold minutes
    omega
  rw [hzero] at hfirst
  obtain ⟨-, hopening⟩ := bucketAggregate_eq_some_iff.mp hfirst
  have hinterval : intervalStart first.openTime longer = start := by
    rw [hopening.openTime]
    exact intervalStart_eq_self_iff.mpr hstart
  have hsums := fun amount total htotal => h.sum_eq hshorter hstart amount total htotal
  refine ⟨fun candle hcandle => ?_, rfl, hinterval, ?_, fun candle hcandle htime => ?_, ?_, ?_,
    fun candle hcandle htime => ?_, ?_, ?_, rfl⟩
  · obtain ⟨tile, htile, htileCandle⟩ := (mem_bucket_iff_tiles hshorter hstart).mp hcandle
    obtain ⟨part, hpart, haggregate⟩ := h.exists_part htile
    rw [← (bucketAggregate_eq_some_iff.mp haggregate).2.symbol candle htileCandle]
    exact (hsymbols part hpart).symm
  · show intervalEnd (intervalStart first.openTime longer) longer = _
    rw [hinterval, intervalEnd, intervalStart_eq_self_iff.mpr hstart]
  · -- the first minute is in the first tile
    refine hopening.openPrice candle (mem_bucket.mpr ⟨(mem_bucket.mp hcandle).1, ?_⟩) htime
    rw [htime]
    exact intervalStart_eq_self_iff.mpr ((intervalLength_dvd hshorter).trans hstart)
  · have hgreatest := isGreatest_foldl_max AggregatedCandle.highPrice first.highPrice rest
    simp only [← exists_mem_cons_eq] at hgreatest
    have hall := h.isGreatest hshorter hstart (fun _ _ hsummary => hsummary.highPrice) hgreatest
    show IsGreatest _ ((rest.map asCandle).foldl (fun high part => max high part.highPrice)
      first.highPrice)
    rw [List.foldl_map]
    exact hall
  · have hleast := isLeast_foldl_min AggregatedCandle.lowPrice first.lowPrice rest
    simp only [← exists_mem_cons_eq] at hleast
    have hall := @TiledBy.isGreatest _ _ _ _ _ h hshorter hstart ℚᵒᵈ _ _ _ _
      (fun _ _ hsummary => hsummary.lowPrice) hleast
    show IsLeast _ ((rest.map asCandle).foldl (fun low part => min low part.lowPrice) first.lowPrice)
    rw [List.foldl_map]
    exact hall
  · -- the last minute is in the last tile
    obtain ⟨htile, hlast⟩ := h.getElem (getElem?_length_getLastD first rest)
    obtain ⟨-, hclosing⟩ := bucketAggregate_eq_some_iff.mp hlast
    have hlength : (rest.length + 1) * timeframeMinutes shorter = timeframeMinutes longer := by
      rw [← List.length_cons (a := first), h.length]
      exact Nat.div_mul_cancel (timeframeMinutes_dvd hshorter)
    have hpos := timeframeMinutes_pos shorter
    rw [Nat.succ_mul] at hlength
    have hminute : candle.openTime = start + minutes (rest.length * timeframeMinutes shorter : Nat) +
        minutes (timeframeMinutes shorter - 1 : Nat) := by
      unfold intervalLength at htime
      rw [← hlength] at htime
      unfold minutes oneMinute at htime ⊢
      omega
    have hend : candle.openTime + oneMinute = start +
        minutes (rest.length * timeframeMinutes shorter : Nat) + intervalLength shorter := by
      rw [hminute]
      unfold intervalLength minutes oneMinute
      omega
    have hin : candle ∈ bucket candles shorter
        (start + minutes (rest.length * timeframeMinutes shorter : Nat)) := by
      refine mem_bucket.mpr ⟨(mem_bucket.mp hcandle).1, ?_⟩
      rw [hminute]
      exact intervalStart_add shorter (intervalStart_eq_self_iff.mpr
        (tile_aligned hshorter hstart htile)) (by omega)
    unfold combine aggregateOf
    rw [List.getLastD_map]
    exact hclosing.closePrice candle hin hend
  · rw [← hsums _ AggregatedCandle.volume fun _ _ hsummary => hsummary.volume]
    show ((asCandle first :: rest.map asCandle).map Candle1m.volume).sum = _
    rw [List.map_cons, List.map_map]
    rfl
  · rw [← hsums _ AggregatedCandle.turnover fun _ _ hsummary => hsummary.turnover]
    show ((asCandle first :: rest.map asCandle).map Candle1m.turnover).sum = _
    rw [List.map_cons, List.map_map]
    rfl

/-- The tiles' aggregates, combined by the same rule, are the aggregate of the interval. -/
theorem TiledBy.combine_eq (h : TiledBy candles shorter longer start (first :: rest))
    (hsymbols : ∀ part ∈ first :: rest, part.symbol = first.symbol)
    (hshorter : timeframeMinutes shorter < timeframeMinutes longer)
    (hstart : intervalLength longer ∣ start) :
    bucketAggregate candles longer start = some (combine longer first rest) := by
  refine bucketAggregate_eq_some_iff.mpr ⟨?_, h.summarizes hsymbols hshorter hstart⟩
  refine complete_of_tiles hshorter hstart first.symbol (fun tile htile => ?_)
    (fun tile htile candle hcandle => ?_)
  · obtain ⟨part, -, haggregate⟩ := h.exists_part htile
    exact (bucketAggregate_eq_some_iff.mp haggregate).1
  · obtain ⟨part, hpart, haggregate⟩ := h.exists_part htile
    rw [← (bucketAggregate_eq_some_iff.mp haggregate).2.symbol candle hcandle]
    exact hsymbols part hpart

/-- For the candles of one symbol, an interval can be aggregated exactly if its tiles can. -/
theorem aggregate_ne_none_iff_tiles {symbol : Symbol}
    (hsymbol : ∀ candle ∈ candles, candle.symbol = symbol)
    (hshorter : timeframeMinutes shorter < timeframeMinutes longer)
    (hstart : intervalLength longer ∣ start) :
    bucketAggregate candles longer start ≠ none ↔
      ∀ tile ∈ tileStarts shorter longer start, bucketAggregate candles shorter tile ≠ none := by
  have hown : ∀ timeframe time, bucketAggregate candles timeframe time ≠ none ↔
      ∃ aggregate, bucketAggregate candles timeframe time = some aggregate ∧
        aggregate.symbol = symbol := by
    intro timeframe time
    rw [Option.ne_none_iff_exists']
    refine exists_congr fun aggregate => (and_iff_left_of_imp fun haggregate => ?_).symm
    obtain ⟨hcomplete, hsummary⟩ := bucketAggregate_eq_some_iff.mp haggregate
    obtain ⟨candle, hcandle, -⟩ := hcomplete.exists_at (timeframeMinutes_pos timeframe)
    rw [hsummary.symbol candle hcandle]
    exact hsymbol candle (mem_bucket.mp hcandle).1
  rw [hown, exists_aggregate_iff_tiles hshorter hstart symbol]
  exact forall₂_congr fun tile _ => (hown shorter tile).symm

end Summary

section Result

/-- The aggregation accepts exactly the complete candles of the expected interval, summarizes
them in any order, and composes across timeframes. -/
theorem aggregation_exact_and_composes (candles : List Candle1m) (timeframe : Timeframe)
    (expected : Option Int) (hexpected : ∀ time ∈ expected, 0 ≤ time) :
    ((∃ aggregate, aggregateCandles candles timeframe expected = some aggregate) ↔
      ∃ start, CompleteInterval candles timeframe start ∧
        ∀ time ∈ expected, start ≤ time ∧ time < start + intervalLength timeframe) ∧
    (∀ aggregate, aggregateCandles candles timeframe expected = some aggregate →
      ∃ start, CompleteInterval candles timeframe start ∧
        (∀ time ∈ expected, start ≤ time ∧ time < start + intervalLength timeframe) ∧
        Summarizes candles timeframe start aggregate) ∧
    (∀ candles', candles'.Perm candles →
      aggregateCandles candles' timeframe expected = aggregateCandles candles timeframe expected) ∧
    (∀ shorter longer moment, timeframeMinutes shorter < timeframeMinutes longer →
      (∀ symbol, (∃ aggregate,
          bucketAggregate candles longer (intervalStart moment longer) = some aggregate ∧
            aggregate.symbol = symbol) ↔
        ∀ tile ∈ tileStarts shorter longer (intervalStart moment longer), ∃ aggregate,
          bucketAggregate candles shorter tile = some aggregate ∧ aggregate.symbol = symbol) ∧
      (∀ symbol, (∀ candle ∈ candles, candle.symbol = symbol) →
        (bucketAggregate candles longer (intervalStart moment longer) ≠ none ↔
          ∀ tile ∈ tileStarts shorter longer (intervalStart moment longer),
            bucketAggregate candles shorter tile ≠ none)) ∧
      (∀ first rest,
        TiledBy candles shorter longer (intervalStart moment longer) (first :: rest) →
        (∀ part ∈ first :: rest, part.symbol = first.symbol) →
        bucketAggregate candles longer (intervalStart moment longer) =
          some (combine longer first rest)) ∧
      intervalStart (intervalStart moment shorter) longer = intervalStart moment longer ∧
      intervalStart moment longer ≤ intervalStart moment shorter ∧
      intervalStart moment shorter + intervalLength shorter ≤
        intervalStart moment longer + intervalLength longer) ∧
    (∀ moment timeframe, intervalStart (intervalStart moment timeframe) timeframe =
      intervalStart moment timeframe) := by
  have hin : ∀ start, CompleteInterval candles timeframe start →
      ((∀ time ∈ expected, intervalStart time timeframe = start) ↔
        ∀ time ∈ expected, start ≤ time ∧ time < start + intervalLength timeframe) :=
    fun start hcomplete => forall₂_congr fun time htime =>
      intervalStart_eq_iff (hexpected time htime) hcomplete.aligned
  have hspec : ∀ aggregate, aggregateCandles candles timeframe expected = some aggregate →
      ∃ start, CompleteInterval candles timeframe start ∧
        (∀ time ∈ expected, start ≤ time ∧ time < start + intervalLength timeframe) ∧
        Summarizes candles timeframe start aggregate := by
    intro aggregate haggregate
    obtain ⟨start, hcomplete, htimes, hsummary⟩ := aggregateCandles_eq_some_iff.mp haggregate
    exact ⟨start, hcomplete, (hin start hcomplete).mp htimes, hsummary⟩
  refine ⟨⟨?_, ?_⟩, hspec, fun candles' hperm => aggregateCandles_perm hperm,
    fun shorter longer moment hshorter => ?_, intervalStart_idem⟩
  · rintro ⟨aggregate, haggregate⟩
    obtain ⟨start, hcomplete, htimes, -⟩ := hspec aggregate haggregate
    exact ⟨start, hcomplete, htimes⟩
  · rintro ⟨start, hcomplete, htimes⟩
    obtain ⟨aggregate, hsummary⟩ := hcomplete.exists_summary
    exact ⟨aggregate, aggregateCandles_eq_some_iff.mpr
      ⟨start, hcomplete, (hin start hcomplete).mpr htimes, hsummary⟩⟩
  · have hstart : intervalLength longer ∣ intervalStart moment longer :=
      intervalStart_eq_self_iff.mp (intervalStart_idem moment longer)
    exact ⟨exists_aggregate_iff_tiles hshorter hstart,
      fun symbol hsymbol => aggregate_ne_none_iff_tiles hsymbol hshorter hstart,
      fun first rest h hsymbols => h.combine_eq hsymbols hshorter hstart,
      intervalStart_nested hshorter moment⟩

/-- The minutes of a quarter of an hour, the last of them first. -/
def sampleMinutes : List Candle1m :=
  (List.range 15).reverse.map fun (index : Nat) => {
    symbol := "BTCUSDT"
    openTime := minutes index
    openPrice := 100 + index
    highPrice := 102 + index
    lowPrice := 99 + index
    closePrice := 101 + index
    volume := 1
    turnover := 100 }

theorem aggregation_exact_and_composes_sample :
    (∃ start, CompleteInterval sampleMinutes .m15 start ∧ ∀ time ∈ some (0 : Int),
        start ≤ time ∧ time < start + intervalLength .m15) ∧
      ∀ tile ∈ tileStarts .m5 .m15 (intervalStart 0 .m15), ∃ aggregate,
        bucketAggregate sampleMinutes .m5 tile = some aggregate ∧ aggregate.symbol = "BTCUSDT" := by
  have hexact := aggregation_exact_and_composes sampleMinutes .m15 (some 0)
    (fun time htime => by rw [← Option.some.inj htime])
  obtain ⟨haccepted, -, -, hcomposes, -⟩ := hexact
  have haggregate : (aggregateCandles sampleMinutes .m15 (some 0)).isSome = true := by
    decide +kernel
  have hsymbol : (bucketAggregate sampleMinutes .m15 (intervalStart 0 .m15)).map
      AggregatedCandle.symbol = some "BTCUSDT" := by
    decide +kernel
  exact ⟨haccepted.mp (Option.isSome_iff_exists.mp haggregate),
    (hcomposes .m5 .m15 0 (by decide)).1 "BTCUSDT" |>.mp (Option.map_eq_some_iff.mp hsymbol)⟩

end Result

end StructurePulse.Replay
