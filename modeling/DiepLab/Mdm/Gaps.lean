import DiepLab.Contracts.RoundTrip
import DiepLab.Library.Loops
import DiepLab.Library.Replace
import DiepLab.Library.Rounding
import DiepLab.Library.Runs
import DiepLab.Mdm.Pipeline
import Mathlib.Data.List.ReduceOption

/-!
Gaps in the stream of a device.

The detector keeps one time per measurement of a device: that of the envelope it has looked
at last, whatever its order. It is the newest time only while no straggler has come in
between, and a gap is counted in intervals, by a division. On a stream it is right exactly
while every gap since the last envelope is one since the newest, too, and the division has a
finite result (`check_right_iff`).

Intervals and tolerances are floats and are compared as such.
-/

namespace DiepLab.Mdm

open Contracts

/-! ### The detector -/

/-- The settings of a `GapDetector`. -/
structure GapDetector where
  expectedIntervals : Dict Double := []
  defaultIntervalS : Double := .finite 5
  toleranceMultiplier : Double := .finite 2

/-- What `check` raises. -/
inductive GapError where
  | typeError
  | zeroDivisionError
  | overflowError
  | valueError
  deriving DecidableEq, Repr

/-- All fields of a `GapEvent`; the times are instants. -/
structure DetectedGap extends GapEvent where
  tenantId : PyValue
  deviceId : PyValue
  lastSeenAt : ℚ
  currentAt : ℚ
  expectedIntervalS : Double

/-- The quotient of two floats, when the second is not zero. -/
def dividedBy (gap : Double) : Double → Double
  | .finite b => gap.divBy b
  | .inf _ => if gap.isFinite then .finite 0 else .nan
  | .nan => .nan

/-- `max(0, round(gap_seconds / expected) - 1)`. -/
def estimatedMissed (gap expected : Double) : Except GapError ℤ :=
  if expected = .finite 0 then .error .zeroDivisionError
  else
    match dividedBy gap expected with
    | .finite q => .ok (max 0 (Double.roundEven q - 1))
    | .inf _ => .error .overflowError
    | .nan => .error .valueError

variable {iso : String → Option IsoTime}

def instantOf (e : TelemetryEnvelope iso) : ℚ := (capturedTime e).instant

variable (iso) in
/-- The envelopes of one device, or of devices that cannot be hashed. -/
abbrev OfDevice (device : Option DeviceKey) :=
  {e : TelemetryEnvelope iso // deviceKey? e = device}

namespace GapDetector

variable (c : GapDetector)

/-- `_expected_interval`. -/
def expectedInterval (measurementType : PyValue) : Double :=
  (lookup? c.expectedIntervals measurementType).getD c.defaultIntervalS

/-- The time since `earlier` is more than the tolerance allows. -/
def Exceeds (measurementType : PyValue) (current earlier : ℚ) : Prop :=
  Double.lt ((c.expectedInterval measurementType).mul c.toleranceMultiplier)
    (Double.ofRat (current - earlier)) = true

instance (measurementType : PyValue) (current earlier : ℚ) :
    Decidable (c.Exceeds measurementType current earlier) :=
  inferInstanceAs (Decidable (_ = true))

/-- One measurement, when it has been seen at `lastSeen`. -/
def gapSince (e : TelemetryEnvelope iso) (m : Measurement) :
    Option ℚ → Except GapError (Option DetectedGap)
  | none => .ok none
  | some lastSeen =>
      if c.Exceeds m.measurementType (instantOf e) lastSeen then do
        let gap := Double.ofRat (instantOf e - lastSeen)
        let expected := c.expectedInterval m.measurementType
        let missed ← estimatedMissed gap expected
        pure (some {
          measurementType := m.measurementType
          gapSeconds := gap
          estimatedMissedSamples := missed
          tenantId := e.tenantId.1
          deviceId := e.deviceId.1
          lastSeenAt := lastSeen
          currentAt := instantOf e
          expectedIntervalS := expected })
      else pure none

/-- `key`, or none where a part of it cannot be hashed. -/
def readingKey? (e : TelemetryEnvelope iso) (m : Measurement) : Option (DeviceKey × Key) := do
  let device ← deviceKey? e
  let key ← m.key?
  pure (device, key)

/-- The gap before one measurement, with what has been seen. -/
def reading (e : TelemetryEnvelope iso) (lastSeen : LastSeen) (m : Measurement) :
    Except GapError (Option DetectedGap) :=
  match readingKey? e m with
  | none => .error .typeError
  | some key => c.gapSince e m (lastSeen key)

/-- Every measurement is seen now. -/
def seenNow (e : TelemetryEnvelope iso) (lastSeen : LastSeen) (m : Measurement) : LastSeen :=
  match readingKey? e m with
  | none => lastSeen
  | some key => Function.update lastSeen key (some (instantOf e))

/-- The loop of `check`. What has been seen before it raises stays seen. -/
def checkAll (e : TelemetryEnvelope iso) :
    List Measurement → LastSeen → Except GapError (List DetectedGap) × LastSeen
  | [], lastSeen => (.ok [], lastSeen)
  | m :: rest, lastSeen =>
      match c.reading e lastSeen m with
      | .error raised => (.error raised, lastSeen)
      | .ok event =>
          let (events, lastSeen) := checkAll e rest (seenNow e lastSeen m)
          (events.map fun events => event.toList ++ events, lastSeen)

/-- `GapDetector.check`. -/
def check (e : TelemetryEnvelope iso) (lastSeen : LastSeen) :
    Except GapError (List DetectedGap) × LastSeen :=
  c.checkAll e e.measurements.1 lastSeen

/-! ### One envelope -/

theorem estimatedMissed_isOk {gap expected : Double} :
    (∃ n, estimatedMissed gap expected = .ok n) ↔
      expected ≠ .finite 0 ∧ (dividedBy gap expected).isFinite = true := by
  unfold estimatedMissed
  split
  · rename_i hzero
    exact iff_of_false nofun fun h => h.1 hzero
  · rename_i hzero
    rw [and_iff_right hzero]
    cases dividedBy gap expected with
    | finite q => exact iff_of_true ⟨_, rfl⟩ rfl
    | inf s => exact iff_of_false nofun nofun
    | nan => exact iff_of_false nofun nofun

/-- The gap since `earlier` can be counted in intervals. -/
def Countable (measurementType : PyValue) (current earlier : ℚ) : Prop :=
  c.expectedInterval measurementType ≠ .finite 0 ∧
    (dividedBy (Double.ofRat (current - earlier))
      (c.expectedInterval measurementType)).isFinite = true

instance (measurementType : PyValue) (current earlier : ℚ) :
    Decidable (c.Countable measurementType current earlier) :=
  inferInstanceAs (Decidable (_ ∧ _))

variable {c} {e : TelemetryEnvelope iso} {m : Measurement}

theorem gapSince_isOk {last? : Option ℚ} :
    (∃ event, c.gapSince e m last? = .ok event) ↔
      ∀ last ∈ last?, c.Exceeds m.measurementType (instantOf e) last →
        c.Countable m.measurementType (instantOf e) last := by
  cases last? with
  | none => exact iff_of_true ⟨none, rfl⟩ nofun
  | some last =>
      simp only [Option.mem_def, Option.some.injEq, forall_eq']
      rw [gapSince]
      split
      · rename_i hexceeds
        rw [forall_prop_of_true hexceeds, Countable, ← estimatedMissed_isOk]
        refine (exists_bind fun missed _ => ?_).trans (and_iff_left trivial)
        exact iff_of_true ⟨_, rfl⟩ trivial
      · rename_i hexceeds
        exact iff_of_true ⟨none, rfl⟩ fun h => absurd h hexceeds

theorem gapSince_eq_some {last? : Option ℚ} :
    (∃ gap, c.gapSince e m last? = .ok (some gap)) ↔
      ∃ last ∈ last?, c.Exceeds m.measurementType (instantOf e) last ∧
        c.Countable m.measurementType (instantOf e) last := by
  cases last? with
  | none => exact iff_of_false nofun nofun
  | some last =>
      simp only [Option.mem_def, Option.some.injEq, exists_eq_left']
      rw [gapSince]
      split
      · rename_i hexceeds
        rw [and_iff_right hexceeds, Countable, ← estimatedMissed_isOk]
        constructor
        · rintro ⟨gap, h⟩
          obtain ⟨missed, hmissed, -⟩ := bind_eq_ok.mp h
          exact ⟨missed, hmissed⟩
        · rintro ⟨missed, hmissed⟩
          exact ⟨_, bind_eq_ok.mpr ⟨missed, hmissed, rfl⟩⟩
      · rename_i hexceeds
        exact iff_of_false nofun fun h => hexceeds h.1

theorem measurementType_of_reading {lastSeen : LastSeen} {gap : DetectedGap}
    (h : c.reading e lastSeen m = .ok (some gap)) :
    gap.measurementType = m.measurementType := by
  unfold reading at h
  cases hkey : readingKey? e m with
  | none =>
      rw [hkey] at h
      exact nomatch h
  | some key =>
      rw [hkey] at h
      dsimp only at h
      cases hlast : lastSeen key with
      | none =>
          rw [hlast] at h
          exact nomatch h
      | some last =>
          rw [hlast, gapSince] at h
          split at h
          · obtain ⟨missed, -, h⟩ := bind_eq_ok.mp h
            injection h with h
            injection h with h
            rw [← h]
          · exact nomatch h

theorem readingKey?_eq_some {key : DeviceKey × Key} :
    readingKey? e m = some key ↔ deviceKey? e = some key.1 ∧ m.key? = some key.2 := by
  unfold readingKey?
  cases deviceKey? e with
  | none => exact iff_of_false nofun fun h => nomatch h.1
  | some device =>
      cases m.key? with
      | none => exact iff_of_false nofun fun h => nomatch h.2
      | some k => simp [Prod.ext_iff]

/-- The measurements of an envelope do not see each other. -/
theorem reading_seenNow {m' : Measurement} (h : m.key? ≠ m'.key?) (lastSeen : LastSeen) :
    c.reading e (seenNow e lastSeen m) m' = c.reading e lastSeen m' := by
  unfold reading seenNow
  cases hkey : readingKey? e m with
  | none => rfl
  | some key =>
      cases hkey' : readingKey? e m' with
      | none => rfl
      | some key' =>
          have hne : key' ≠ key := by
            rintro rfl
            exact h ((readingKey?_eq_some.mp hkey).2.trans (readingKey?_eq_some.mp hkey').2.symm)
          dsimp only
          rw [Function.update_of_ne hne]

/-- Every measurement is judged by what has been seen before the envelope. -/
theorem checkAll_fst {ms : List Measurement} (hdistinct : (ms.map Measurement.key?).Nodup)
    (lastSeen : LastSeen) :
    (c.checkAll e ms lastSeen).1 =
      (ms.mapM (c.reading e lastSeen)).map List.reduceOption := by
  induction ms generalizing lastSeen with
  | nil => rfl
  | cons m rest ih =>
      obtain ⟨hfresh, hrest⟩ := List.nodup_cons.mp hdistinct
      rw [checkAll, List.mapM_cons]
      cases c.reading e lastSeen m with
      | error raised => rfl
      | ok event =>
          have hsame : rest.mapM (c.reading e (seenNow e lastSeen m)) =
              rest.mapM (c.reading e lastSeen) := by
            refine Loops.mapM_congr fun m' hm' => reading_seenNow (fun h => hfresh ?_) lastSeen
            exact List.mem_map.mpr ⟨m', hm', h.symm⟩
          dsimp only
          rw [ih hrest, hsame, ok_bind]
          cases rest.mapM (c.reading e lastSeen) with
          | error raised => rfl
          | ok events => cases event <;> rfl

theorem checkAll_snd {ms : List Measurement} {lastSeen : LastSeen} {events : List DetectedGap}
    (h : (c.checkAll e ms lastSeen).1 = .ok events) :
    (c.checkAll e ms lastSeen).2 = ms.foldl (seenNow e) lastSeen := by
  induction ms generalizing lastSeen events with
  | nil => rfl
  | cons m rest ih =>
      rw [checkAll] at h ⊢
      cases hreading : c.reading e lastSeen m with
      | error raised =>
          rw [hreading] at h
          exact nomatch h
      | ok event =>
          rw [hreading] at h
          dsimp only at h ⊢
          cases hrest : (c.checkAll e rest (seenNow e lastSeen m)).1 with
          | error raised =>
              rw [hrest] at h
              exact nomatch h
          | ok others => exact ih hrest

theorem foldl_seenNow_apply (ms : List Measurement) (lastSeen : LastSeen)
    (key : DeviceKey × Key) :
    ms.foldl (seenNow e) lastSeen key =
      if ∃ m ∈ ms, readingKey? e m = some key then some (instantOf e) else lastSeen key := by
  induction ms generalizing lastSeen with
  | nil => simp
  | cons m rest ih =>
      rw [List.foldl_cons, ih]
      by_cases hrest : ∃ m' ∈ rest, readingKey? e m' = some key
      · rw [if_pos hrest, if_pos (hrest.imp fun _ => And.imp_left (List.mem_cons_of_mem m))]
      · rw [if_neg hrest, seenNow]
        cases hkey : readingKey? e m with
        | none => simp [hkey, hrest]
        | some key' =>
            rcases eq_or_ne key key' with rfl | hne
            · simp [hkey]
            · simp [hkey, hrest, hne, hne.symm]

theorem check_isOk {lastSeen : LastSeen} :
    (∃ events, (c.check e lastSeen).1 = .ok events) ↔
      ∀ m ∈ e.measurements.1, ∃ event, c.reading e lastSeen m = .ok event := by
  rw [check, checkAll_fst e.measurements.2.2.2, ← mapM_isOk]
  cases e.measurements.1.mapM (c.reading e lastSeen) with
  | error raised => exact iff_of_false nofun nofun
  | ok events => exact iff_of_true ⟨_, rfl⟩ ⟨_, rfl⟩

/-- A gap names the one measurement it is about. -/
theorem check_names {lastSeen : LastSeen} {events : List DetectedGap}
    (h : (c.check e lastSeen).1 = .ok events) {m : Measurement} (hm : m ∈ e.measurements.1) :
    (∃ gap ∈ events, gap.measurementType = m.measurementType) ↔
      ∃ gap, c.reading e lastSeen m = .ok (some gap) := by
  have hdistinct : (e.measurements.1.map Measurement.key?).Nodup := e.measurements.2.2.2
  rw [check, checkAll_fst hdistinct] at h
  cases hmapM : e.measurements.1.mapM (c.reading e lastSeen) with
  | error raised =>
      rw [hmapM] at h
      exact nomatch h
  | ok made =>
      rw [hmapM] at h
      injection h with h
      rw [← h]
      refine exists_congr fun gap => ?_
      rw [List.reduceOption_mem_iff, mem_of_mapM hmapM]
      constructor
      · rintro ⟨⟨m', hm', hgap⟩, htype⟩
        rw [measurementType_of_reading hgap] at htype
        have hsame : m' = m :=
          List.inj_on_of_nodup_map hdistinct hm' hm (congrArg PyValue.key? htype)
        exact hsame ▸ hgap
      · intro hgap
        exact ⟨⟨m, hm, hgap⟩, measurementType_of_reading hgap⟩

/-! ### A stream -/

variable {device : Option DeviceKey}

variable (c) in
/-- `_last_seen`, after envelopes. -/
def lastSeenAfter (before : List (OfDevice iso device)) : LastSeen :=
  before.foldl (fun lastSeen e => (c.check e.1 lastSeen).2) fun _ => none

/-- The times at which a measurement has been seen. -/
def timesOf (key : Option Key) (before : List (OfDevice iso device)) : List ℚ :=
  (before.filter fun e => key ∈ e.1.measurements.1.map Measurement.key?).map fun e =>
    instantOf e.1

variable (c) in
/-- The envelope is more than the tolerance after the newest time of the measurement. -/
def ExceedsNewest (before : List (OfDevice iso device)) (e : OfDevice iso device)
    (m : Measurement) : Prop :=
  ∃ newest ∈ (timesOf m.key? before).max?, c.Exceeds m.measurementType (instantOf e.1) newest

variable (c) in
/-- `check` does not raise, and it reports a gap for exactly those measurements whose newest
time the envelope exceeds. -/
def ReportsGaps (before : List (OfDevice iso device)) (e : OfDevice iso device) : Prop :=
  ∃ events, (c.check e.1 (c.lastSeenAfter before)).1 = .ok events ∧
    ∀ m ∈ e.1.measurements.1,
      ((∃ gap ∈ events, gap.measurementType = m.measurementType) ↔ c.ExceedsNewest before e m)

variable (c) in
/-- The device can be hashed; and where the envelope exceeds the last time of a measurement,
it exceeds the newest, too, and the gap can be counted. -/
def Steady (before : List (OfDevice iso device)) (e : OfDevice iso device) : Prop :=
  ∀ m ∈ e.1.measurements.1, device.isSome ∧
    ∀ last ∈ (timesOf m.key? before).getLast?, c.Exceeds m.measurementType (instantOf e.1) last →
      c.ExceedsNewest before e m ∧ c.Countable m.measurementType (instantOf e.1) last

variable (c) in
/-- What has been recorded is the last time of every measurement. -/
def SeenLast (before : List (OfDevice iso device)) : Prop :=
  ∀ d k, device = some d →
    c.lastSeenAfter before (d, k) = (timesOf (some k) before).getLast?

theorem seenLast_append {before : List (OfDevice iso device)} {e : OfDevice iso device}
    (h : c.SeenLast before) {events : List DetectedGap}
    (he : (c.check e.1 (c.lastSeenAfter before)).1 = .ok events) :
    c.SeenLast (before ++ [e]) := by
  intro d k hdevice
  have hkey (m : Measurement) : readingKey? e.1 m = some (d, k) ↔ m.key? = some k := by
    rw [readingKey?_eq_some, e.2, hdevice, and_iff_right rfl]
  rw [lastSeenAfter, List.foldl_append, List.foldl_cons, List.foldl_nil]
  change (c.check e.1 (c.lastSeenAfter before)).2 (d, k) = _
  rw [check] at he ⊢
  rw [checkAll_snd he, foldl_seenNow_apply, timesOf, List.filter_append, List.map_append]
  simp only [hkey]
  split
  · rename_i hmem
    have hmem : some k ∈ e.1.measurements.1.map Measurement.key? := List.mem_map.mpr hmem
    rw [List.filter_cons_of_pos (by simpa using hmem), List.filter_nil, List.map_singleton,
      List.getLast?_concat]
  · rename_i hmem
    have hmem : some k ∉ e.1.measurements.1.map Measurement.key? := fun h =>
      hmem (List.mem_map.mp h)
    rw [List.filter_cons_of_neg (by simpa using hmem), List.filter_nil, List.map_nil,
      List.append_nil, h d k hdevice, timesOf]

/-- What exceeds a time exceeds every earlier one. -/
theorem Exceeds.of_le {measurementType : PyValue} {current earlier later : ℚ}
    (h : c.Exceeds measurementType current later) (hle : earlier ≤ later) :
    c.Exceeds measurementType current earlier :=
  Double.lt_of_lt_of_le h (Double.le_ofRat (by linarith))

theorem exists_last_of_exceedsNewest {before : List (OfDevice iso device)}
    {e : OfDevice iso device} {m : Measurement} (h : c.ExceedsNewest before e m) :
    ∃ last ∈ (timesOf m.key? before).getLast?,
      c.Exceeds m.measurementType (instantOf e.1) last := by
  obtain ⟨newest, hnewest, hexceeds⟩ := h
  have hne : timesOf m.key? before ≠ [] := by
    intro hnil
    rw [hnil] at hnewest
    exact nomatch hnewest
  refine ⟨_, List.getLast?_eq_some_getLast hne, hexceeds.of_le ?_⟩
  exact (List.max?_eq_some_iff.mp hnewest).2 _ (List.getLast_mem hne)

theorem reading_iff {before : List (OfDevice iso device)} {e : OfDevice iso device}
    (h : c.SeenLast before) {m : Measurement} (hm : m ∈ e.1.measurements.1) :
    ((∃ event, c.reading e.1 (c.lastSeenAfter before) m = .ok event) ∧
        ((∃ gap, c.reading e.1 (c.lastSeenAfter before) m = .ok (some gap)) ↔
          c.ExceedsNewest before e m)) ↔
      device.isSome ∧ ∀ last ∈ (timesOf m.key? before).getLast?,
        c.Exceeds m.measurementType (instantOf e.1) last →
          c.ExceedsNewest before e m ∧
            c.Countable m.measurementType (instantOf e.1) last := by
  obtain ⟨k, hk⟩ : ∃ k, m.key? = some k := by
    refine Option.ne_none_iff_exists'.mp fun hnone => ?_
    exact e.1.measurements.2.2.1 (List.mem_map.mpr ⟨m, hm, hnone⟩)
  rw [reading]
  cases device with
  | none =>
      have hkey : readingKey? e.1 m = none := by
        rw [readingKey?, e.2]
        rfl
      rw [hkey]
      exact iff_of_false (fun h => nomatch h.1) fun h => nomatch h.1
  | some d =>
      have hkey : readingKey? e.1 m = some (d, k) := readingKey?_eq_some.mpr ⟨e.2, hk⟩
      rw [hkey]
      dsimp only
      rw [h d k rfl, ← hk, gapSince_isOk, gapSince_eq_some, and_iff_right Option.isSome_some]
      constructor
      · rintro ⟨hcountable, hreports⟩ last hlast hexceeds
        have hlast' := hcountable last hlast hexceeds
        exact ⟨hreports.mp ⟨last, hlast, hexceeds, hlast'⟩, hlast'⟩
      · intro hsteady
        refine ⟨fun last hlast hexceeds => (hsteady last hlast hexceeds).2, ?_, fun hnewest => ?_⟩
        · rintro ⟨last, hlast, hexceeds, -⟩
          exact (hsteady last hlast hexceeds).1
        · obtain ⟨last, hlast, hexceeds⟩ := exists_last_of_exceedsNewest hnewest
          exact ⟨last, hlast, hexceeds, (hsteady last hlast hexceeds).2⟩

theorem reportsGaps_iff {before : List (OfDevice iso device)} (h : c.SeenLast before)
    (e : OfDevice iso device) : c.ReportsGaps before e ↔ c.Steady before e := by
  have hmeasurement : (∀ m ∈ e.1.measurements.1,
      (∃ event, c.reading e.1 (c.lastSeenAfter before) m = .ok event) ∧
        ((∃ gap, c.reading e.1 (c.lastSeenAfter before) m = .ok (some gap)) ↔
          c.ExceedsNewest before e m)) ↔ c.Steady before e :=
    forall₂_congr fun m hm => reading_iff h hm
  rw [← hmeasurement]
  constructor
  · rintro ⟨events, hevents, hnames⟩ m hm
    exact ⟨check_isOk.mp ⟨events, hevents⟩ m hm,
      (check_names hevents hm).symm.trans (hnames m hm)⟩
  · intro hall
    obtain ⟨events, hevents⟩ := check_isOk.mpr fun m hm => (hall m hm).1
    exact ⟨events, hevents, fun m hm => (check_names hevents hm).trans (hall m hm).2⟩

/-- **When the detector is right.** All along a stream the detector reports exactly the gaps
since the newest times, without an exception, if and only if all along it no envelope exceeds
a last time without exceeding the newest, and the gaps can be counted. -/
theorem check_right_iff (c : GapDetector) (stream : List (OfDevice iso device)) :
    (∀ before e after, stream = before ++ e :: after → c.ReportsGaps before e) ↔
      ∀ before e after, stream = before ++ e :: after → c.Steady before e := by
  have hstart : c.SeenLast ([] : List (OfDevice iso device)) := fun _ _ _ => rfl
  refine Runs.forall_split_iff (R := c.ReportsGaps) (C := c.Steady)
    (fun before e h => reportsGaps_iff h e) ?_ hstart stream
  rintro before e h ⟨events, hevents, -⟩
  exact seenLast_append h hevents

/-! ### The detector of the pipeline -/

/-- With the default settings one measurement is looked at as the pipeline does it. -/
theorem checkGap_eq {last? : Option ℚ} {event : Option DetectedGap}
    (h : ({} : GapDetector).gapSince e m last? = .ok event) :
    checkGap m.measurementType (instantOf e) last? = event.map DetectedGap.toGapEvent := by
  have hexpected : ({} : GapDetector).expectedInterval m.measurementType = .finite 5 := by
    unfold expectedInterval lookup?
    split <;> rfl
  have htolerance : (Double.finite 5).mul (.finite 2) = .finite 10 := by decide +kernel
  have hiff (last : ℚ) : ({} : GapDetector).Exceeds m.measurementType (instantOf e) last ↔
      Double.lt (.finite 10) (Double.ofRat (instantOf e - last)) = true := by
    rw [Exceeds, hexpected, ← htolerance]
  cases last? with
  | none =>
      injection h with h
      rw [← h]
      rfl
  | some last =>
      rw [gapSince, hexpected] at h
      rw [checkGap, Option.bind_eq_bind, Option.bind_some]
      dsimp only
      split at h
      · rename_i hexceeds
        rw [if_pos ((hiff last).mp hexceeds)]
        obtain ⟨missed, hmissed, h⟩ := bind_eq_ok.mp h
        injection h with h
        rw [← h, Option.map_some, missedSamples]
        rw [estimatedMissed, if_neg (by decide)] at hmissed
        change (match (Double.ofRat (instantOf e - last)).divBy 5 with
          | .finite q => Except.ok (max 0 (Double.roundEven q - 1))
          | .inf _ => Except.error GapError.overflowError
          | .nan => .error GapError.valueError) = .ok missed at hmissed
        split at hmissed
        · rename_i hquotient
          injection hmissed with hmissed
          rw [hquotient, ← hmissed]
        · exact nomatch hmissed
        · exact nomatch hmissed
      · rename_i hexceeds
        injection h with h
        rw [if_neg fun hlt => hexceeds ((hiff last).mpr hlt), ← h]
        rfl

/-- The stage of the pipeline is the detector with its defaults, wherever it does not
raise. -/
theorem checkGaps_eq {d : DeviceKey} (hdevice : deviceKey? e = some d) {ms : List Measurement}
    {lastSeen : LastSeen} {events : List DetectedGap}
    (h : (({} : GapDetector).checkAll e ms lastSeen).1 = .ok events) :
    checkGaps d (instantOf e) ms lastSeen =
      (.ok (events.map DetectedGap.toGapEvent),
        (({} : GapDetector).checkAll e ms lastSeen).2) := by
  induction ms generalizing lastSeen events with
  | nil =>
      injection h with h
      rw [← h]
      rfl
  | cons m rest ih =>
      rw [checkAll, reading] at h ⊢
      rw [checkGaps]
      cases hkey : readingKey? e m with
      | none =>
          rw [hkey] at h
          cases h
      | some key =>
          obtain ⟨hd, hk⟩ := readingKey?_eq_some.mp hkey
          have hpair : key = (d, key.2) :=
            Prod.ext (Option.some.inj (hd.symm.trans hdevice)) rfl
          rw [hkey] at h
          rw [hk]
          dsimp only at h ⊢
          cases hgap : ({} : GapDetector).gapSince e m (lastSeen key) with
          | error raised =>
              rw [hgap] at h
              cases h
          | ok event =>
              rw [hgap] at h
              dsimp only at h ⊢
              have hseen : seenNow e lastSeen m =
                  Function.update lastSeen (d, key.2) (some (instantOf e)) := by
                rw [seenNow, hkey, ← hpair]
              cases hrest : (({} : GapDetector).checkAll e rest (seenNow e lastSeen m)).1 with
              | error raised =>
                  rw [hrest] at h
                  cases h
              | ok others =>
                  rw [hrest] at h
                  injection h with h
                  rw [← hpair, checkGap_eq hgap, hpair, ← hseen, ih hrest, ← h]
                  cases event <;> rfl

end GapDetector

/-! ### A straggler -/

/-- What the texts of three times stand for. -/
def threeTimes (text : String) : Option IsoTime :=
  if text = "2026-06-25T12:01:00+00:00" then some ⟨1782388860, some 0⟩
  else if text = "2026-06-25T12:00:00+00:00" then some ⟨1782388800, some 0⟩
  else if text = "2026-06-25T12:01:05+00:00" then some ⟨1782388865, some 0⟩
  else none

theorem capturedAt_of_not_mem {text : String} (h : 'Z' ∉ text.toList) :
    capturedAt iso text = iso text :=
  congrArg iso (String.replace_singleton_of_not_mem h _)

theorem isUtc_of_not_mem {text : String} (hz : 'Z' ∉ text.toList) {instant : ℚ}
    (h : iso text = some ⟨instant, some 0⟩) (hne : text ≠ "") : IsUtc iso text :=
  ⟨hne, _, (capturedAt_of_not_mem hz).trans h, rfl⟩

/-- A voltage of the meter. -/
def voltageAt (time : UtcText threeTimes) : OfDevice threeTimes
    (some (.str "tenantA", .str "METER001")) where
  val := {
    tenantId := meterReading.tenantId
    siteId := meterReading.siteId
    deviceId := meterReading.deviceId
    meterId := meterReading.meterId
    timestampUtc := time
    measurements := ⟨[voltageReading], by decide, by decide⟩
    timestampSource := .GATEWAY
    sourceProtocol := "dlms"
    sourceSystem := "ami-ingest"
    sequenceNumber := 0
    schemaVersion := meterReading.schemaVersion
    ingestionTimestamp := none
    correlationId := "0e984725-c51c-4bf4-9960-e1c80e27aba0" }
  property := rfl

def firstReading := voltageAt ⟨"2026-06-25T12:01:00+00:00",
  isUtc_of_not_mem (by decide) rfl (by decide)⟩

/-- It comes second, and was read a minute before the first. -/
def straggler := voltageAt ⟨"2026-06-25T12:00:00+00:00",
  isUtc_of_not_mem (by decide) rfl (by decide)⟩

/-- The reading due five seconds after the first. -/
def nextReading := voltageAt ⟨"2026-06-25T12:01:05+00:00",
  isUtc_of_not_mem (by decide) rfl (by decide)⟩

theorem instantOf_eq {e : TelemetryEnvelope iso} {dt : IsoTime}
    (hz : 'Z' ∉ e.timestampUtc.1.toList) (h : iso e.timestampUtc.1 = some dt) :
    instantOf e = dt.instant := by
  have hsome : capturedAt iso e.timestampUtc.1 = some dt := (capturedAt_of_not_mem hz).trans h
  rw [instantOf, capturedTime]
  simp only [hsome, Option.get_some]

/-- After the straggler the reading that is due is reported late. -/
theorem straggler_makes_gap :
    ¬ ∀ before e after, [firstReading, straggler, nextReading] = before ++ e :: after →
      ({} : GapDetector).ReportsGaps before e := by
  intro h
  have hfirst : instantOf firstReading.1 = 1782388860 :=
    instantOf_eq (e := firstReading.1) (by decide) rfl
  have hstraggler : instantOf straggler.1 = 1782388800 :=
    instantOf_eq (e := straggler.1) (by decide) rfl
  have hnext : instantOf nextReading.1 = 1782388865 :=
    instantOf_eq (e := nextReading.1) (by decide) rfl
  obtain ⟨_, hone, -⟩ := h [] firstReading [straggler, nextReading] rfl
  obtain ⟨_, htwo, -⟩ := h [firstReading] straggler [nextReading] rfl
  have hseen : ({} : GapDetector).SeenLast [firstReading, straggler] :=
    GapDetector.seenLast_append (GapDetector.seenLast_append (fun _ _ _ => rfl) hone) htwo
  have hsteady := (GapDetector.reportsGaps_iff hseen nextReading).mp
    (h [firstReading, straggler] nextReading [] rfl) voltageReading (List.mem_singleton.mpr rfl)
  have htimes : GapDetector.timesOf voltageReading.key? [firstReading, straggler] =
      [1782388860, 1782388800] := by
    rw [← hfirst, ← hstraggler]
    rfl
  rw [htimes, hnext] at hsteady
  obtain ⟨⟨newest, hnewest, hexceeds⟩, -⟩ := hsteady.2 1782388800 rfl (by decide +kernel)
  rw [htimes] at hnewest
  rw [hnext, ← Option.some.inj hnewest] at hexceeds
  exact absurd hexceeds (by decide +kernel)

end DiepLab.Mdm
