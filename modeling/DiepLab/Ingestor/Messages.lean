import DiepLab.Contracts.RoundTrip
import DiepLab.Contracts.Acceptance
import DiepLab.Ingestor.Body
import DiepLab.Library.BoundedSet
import DiepLab.Library.Disturbed

/-!
The handling of one message.

A message is parsed, its key is looked up among those that were seen, and a body
is posted. The lookup is one statement, for it is made under a lock. A worker
dies of nothing, so that what a message raises is a reading that is lost.
`Handled` says of a message that it raises nothing before its POST, and
`handled_iff` that the fields of the payload decide it.

The statements carry ghosts that no statement reads: the key of the reading that
is posted, and in the state what has become of the readings.
-/

namespace DiepLab.Ingestor

open StatementProgram Contracts
open Contracts.TelemetryEnvelope (DedupKey)

/-- `_SEEN_MAX`. -/
def seenMax : ℕ := 10000

/-! ### Statements -/

inductive IngestStmt where
  | isDuplicate (key : DedupKey)
  | post (key : Option DedupKey) (body : Body)

@[reducible] def IngestResp : IngestStmt → Type
  | .isDuplicate _ => Bool
  | .post .. => ℕ

inductive IngestExc where
  | failed (e : PyError)
  /-- A `requests.RequestException`. -/
  | request (m : String)
  deriving DecidableEq, Repr

/-- How a POST turns out. -/
inductive PostOutcome where
  | raised (m : String)
  | status (code : ℕ)
  deriving DecidableEq, Repr

structure IngestState where
  /-- `_seen_envelopes`. -/
  seen : BoundedSet DedupKey seenMax := {}
  /-- Every key that was ever added to it, newest first. -/
  recorded : List DedupKey := []
  /-- The keys of the readings whose POST was answered with 201. -/
  persisted : List DedupKey := []
  /-- The keys of those whose POST raised or was answered otherwise. -/
  failed : List DedupKey := []

def ingestSem (outcome : PostOutcome) :
    (q : IngestStmt) → IngestState → Except IngestExc (IngestResp q) × IngestState
  | .isDuplicate key, s =>
      if key ∈ s.seen then (.ok true, s)
      else (.ok false, { s with seen := s.seen.add key, recorded := key :: s.recorded })
  | .post key _, s =>
      match outcome with
      | .raised m => (.error (.request m), { s with failed := key.toList ++ s.failed })
      -- any status ends the POST; only 201 is a reading that is stored
      | .status code =>
          (.ok code,
            if code = 201 then { s with persisted := key.toList ++ s.persisted }
            else { s with failed := key.toList ++ s.failed })

abbrev IngestProg := Prog IngestResp IngestExc

/-! ### `_handle_message` -/

/-- `TOPIC_ID_OVERRIDES`. -/
def topicIdOverrides : Dict String := [("meter1", "METER001")]

/-- `topic.rsplit("/", 1)[-1]`. -/
def lastSegment (topic : String) : String :=
  String.ofList (topic.toList.reverse.takeWhile fun c => c ≠ '/').reverse

def resolveDeviceId (topic : String) (payload : Dict PyValue) : String :=
  let segment := lastSegment topic
  let fromTopic := (topicIdOverrides.get? segment).getD segment
  match payload.get? "device_id" with
  | some (.str deviceId) => if deviceId = "" then fromTopic else deviceId
  | _ => fromTopic

def isEnvelopePayload (payload : Dict PyValue) : Bool :=
  (payload.get? "schema_version").isSome && (payload.get? "measurements").isSome

/-- `payload.pop("mdm", None)` leaves the rest. -/
def withoutMdm (payload : Dict PyValue) : Dict PyValue := payload.filter fun kv => kv.1 ≠ "mdm"

/-- `_persist`. The status is only logged. -/
def persist (key : Option DedupKey) (body : Body) : IngestProg Unit :=
  tryCatch
    (do
      let _ ← Prog.call (IngestStmt.post key body)
      pure ())
    fun
      | .request _ => pure ()
      | .failed e => throw (.failed e)

section Handle

variable (iso : String → Option IsoTime) (str : PyValue → String)

/-- What follows the lookup of an envelope that was not seen. The ingestion time
that is stamped here is not in the body. -/
def persistEnvelope (key : DedupKey) (e : TelemetryEnvelope iso) : IngestProg Unit :=
  match envelopeToLegacyBody e with
  | .error raised => throw (.failed raised)
  | .ok body => persist (some key) body

def handleEnvelope (freshId : String) (payload : Dict PyValue) : IngestProg Unit :=
  match TelemetryEnvelope.fromDict iso freshId (withoutMdm payload) with
  -- a contract violation is logged, and the message dropped
  | .error _ => pure ()
  | .ok e =>
      match e.dedupKey? with
      -- the key is looked up in a set of tuples, and a list in it cannot be hashed
      | none => throw (.failed .typeError)
      | some key => do
          let duplicate ← Prog.call (IngestStmt.isDuplicate key)
          if duplicate then pure () else persistEnvelope iso key e

/-- The device and the time of capture are added. -/
def addressed (topic : String) (payload : Dict PyValue) (body : Body) : Body :=
  let fields := body.fields.set "device_id" (.str (resolveDeviceId topic payload))
  match payload.get? "time" with
  | some time => { body with fields := if time.truthy then fields.set "time" time else fields }
  | none => { body with fields := fields }

def handleLegacy (topic : String) (payload : Dict PyValue) : IngestProg Unit :=
  match normalize str payload with
  | .error raised => throw (.failed raised)
  | .ok body => persist none (addressed topic payload body)

/-- `_handle_message`; `freshId` is the `uuid4` that is drawn for an envelope
without a correlation id. -/
def handleMessage (freshId topic : String) (raw : List JsonToken) : IngestProg Unit :=
  match loads raw with
  | some (.dict payload) =>
      if isEnvelopePayload payload then handleEnvelope iso freshId payload
      else handleLegacy str topic payload
  | _ => pure ()

end Handle

/-! ### What may raise, and what is passed through -/

/-- What is posted is finite. -/
def PostsFinite : IngestStmt → IngestState → Prop
  | .post _ body, _ => body.Finite
  | .isDuplicate _, _ => True

/-- Nothing is raised before the POST, and what is posted is finite. -/
def Handled (outcome : PostOutcome) (s : IngestState) (p : IngestProg Unit) : Prop :=
  (p.run (ingestSem outcome) s).1 = .ok () ∧ p.Throughout (ingestSem outcome) PostsFinite s

section Handled

variable {outcome : PostOutcome} {s : IngestState}

@[simp] theorem handled_pure : Handled outcome s (pure ()) := ⟨rfl, trivial⟩

@[simp] theorem not_handled_throw (e : IngestExc) : ¬ Handled outcome s (throw e) :=
  fun h => nomatch h.1

theorem handled_persist {key : Option DedupKey} {body : Body} :
    Handled outcome s (persist key body) ↔ body.Finite := by
  refine ⟨fun h => h.2.1, fun h => ⟨?_, h, ?_⟩⟩
  · cases outcome <;> rfl
  · cases outcome <;> trivial

theorem handled_isDuplicate {key : DedupKey} {f : Bool → IngestProg Unit} :
    Handled outcome s (Prog.call (IngestStmt.isDuplicate key) >>= f) ↔
      if key ∈ s.seen then Handled outcome s (f true)
      else Handled outcome (ingestSem outcome (.isDuplicate key) s).2 (f false) := by
  unfold Handled
  rw [Prog.run_bind, Prog.run_call, Prog.throughout_bind, Prog.run_call, Prog.throughout_call]
  by_cases hseen : key ∈ s.seen
  · rw [if_pos hseen, ingestSem, if_pos hseen]
    simp [PostsFinite]
  · rw [if_neg hseen, ingestSem, if_neg hseen]
    simp [PostsFinite]

end Handled

/-- A measurement that is of a column is no integer that no float is near to; its
type and its flag are finite. -/
structure SafeMeasurement (d : Dict PyValue) : Prop where
  measurable : flattened (arg d "measurement_type" .none) ≠ none →
    ∀ x, arg d "value" .none = .num x → x.huge = false
  measurementType : (arg d "measurement_type" .none).allFinite = true
  estimated : (arg d "estimated" (.bool false)).allFinite = true

/-- The object of an envelope that is handled: the key can be hashed, and if it
was not seen, what the body passes through is finite. -/
structure SafeEnvelope (seen : BoundedSet DedupKey seenMax) (freshId : String)
    (payload : Dict PyValue) : Prop where
  tenantKey : (arg payload "tenant_id" .none).key? ≠ none
  deviceKey : (arg payload "device_id" .none).key? ≠ none
  fields : (∀ key ∈ payloadKey? payload, key ∉ seen) →
    ∀ v ∈ [arg payload "tenant_id" .none, arg payload "site_id" .none,
      arg payload "device_id" .none, arg payload "meter_id" .none,
      arg payload "correlation_id" freshId, arg payload "source_protocol" "dlms"],
      v.allFinite = true
  measurements : (∀ key ∈ payloadKey? payload, key ∉ seen) →
    ∀ items, arg payload "measurements" (.list []) = .list items →
      ∀ v ∈ items, ∀ d, v = .dict d → SafeMeasurement d

/-- A payload without an envelope that is handled. -/
structure SafeLegacy (payload : Dict PyValue) : Prop where
  measurable : ∀ field ∈ numericFields, Measurable payload field
  tail : FiniteTail payload
  time : ∀ v, payload.get? "time" = some v → v.allFinite = true

/-- A payload that is handled; an object that is no envelope is dropped. -/
def SafePayload (iso : String → Option IsoTime) (freshId : String)
    (seen : BoundedSet DedupKey seenMax) (payload : Dict PyValue) : Prop :=
  if isEnvelopePayload payload then
    EnvelopeForm iso freshId (withoutMdm payload) →
      SafeEnvelope seen freshId (withoutMdm payload)
  else SafeLegacy payload

section Safe

variable {iso : String → Option IsoTime} {str : PyValue → String}
variable {outcome : PostOutcome} {s : IngestState}

theorem allFinite_estimatedFlag (quality : Quality) (v : PyValue) :
    (estimatedFlag quality v).allFinite = v.allFinite := by
  unfold estimatedFlag
  split
  · rename_i h
    rw [PyValue.allFinite_of_falsy h.2]
    rfl
  · rfl

/-- The measurement of an object is safe to flatten. -/
theorem safeMeasurement_iff (d : Dict PyValue) (m : Measurement) (h : m.MadeOf d) :
    ((flattened m.measurementType ≠ none → m.value.huge = false) ∧
        m.measurementType.allFinite = true ∧ m.estimated.allFinite = true) ↔
      SafeMeasurement d := by
  rw [h.estimated, allFinite_estimatedFlag, h.measurementType]
  constructor
  · rintro ⟨hmeasurable, htype, hestimated⟩
    refine ⟨fun hcolumn x hx => ?_, htype, hestimated⟩
    injection h.value.symm.trans hx with hvalue
    exact hvalue ▸ hmeasurable hcolumn
  · rintro ⟨hmeasurable, htype, hestimated⟩
    exact ⟨fun hcolumn => hmeasurable hcolumn _ h.value, htype, hestimated⟩

/-- The device is a text, and a time that is no true value is left out. -/
theorem finite_addressed {topic : String} {payload : Dict PyValue} {body : Body}
    (hfields : FiniteFields body.fields) :
    (addressed topic payload body).Finite ↔ (∀ x ∈ body.extra, x.Finite) ∧
      ∀ v, payload.get? "time" = some v → v.allFinite = true := by
  have hdevice : FiniteFields
      (body.fields.set "device_id" (.str (resolveDeviceId topic payload))) :=
    finiteFields_set hfields (PyValue.allFinite_str _) _
  unfold addressed Body.Finite
  cases payload.get? "time" with
  | none => exact and_comm.trans (and_congr_right fun _ => iff_of_true hdevice nofun)
  | some time =>
      refine and_comm.trans (and_congr_right fun _ => ?_)
      simp only [Option.some.injEq, forall_eq']
      by_cases htime : time.truthy = true
      · rw [if_pos htime]
        constructor
        · intro hall
          refine hall ("time", time) (Dict.mem_of_get? ?_)
          rw [Dict.get?_set, if_pos rfl]
        · exact fun hfinite => finiteFields_set hdevice hfinite _
      · rw [if_neg htime]
        exact iff_of_true hdevice (PyValue.allFinite_of_falsy (Bool.not_eq_true _ ▸ htime))

theorem handled_legacy {topic : String} {payload : Dict PyValue} :
    Handled outcome s (handleLegacy str topic payload) ↔ SafeLegacy payload := by
  unfold handleLegacy
  cases hbody : normalize str payload with
  | error raised =>
      refine iff_of_false (not_handled_throw _) fun hsafe => ?_
      obtain ⟨body, hok⟩ := normalize_isOk.mpr hsafe.measurable
      exact nomatch hbody.symm.trans hok
  | ok body =>
      obtain ⟨hfields, hextra⟩ := finite_normalize hbody
      rw [handled_persist, finite_addressed hfields, hextra]
      constructor
      · rintro ⟨htail, htime⟩
        exact ⟨normalize_isOk.mp ⟨body, hbody⟩, htail, htime⟩
      · exact fun hsafe => ⟨hsafe.tail, hsafe.time⟩

/-- What follows the lookup is handled if the envelope can be flattened and is
finite. -/
theorem handled_persistEnvelope {key : DedupKey} {e : TelemetryEnvelope iso} :
    Handled outcome s (persistEnvelope iso key e) ↔
      (∀ m ∈ e.measurements.1, flattened m.measurementType ≠ none → m.value.huge = false) ∧
        FiniteEnvelope e := by
  unfold persistEnvelope
  rw [← envelopeToLegacyBody_isOk]
  cases hbody : envelopeToLegacyBody e with
  | error raised =>
      refine iff_of_false (not_handled_throw _) ?_
      rintro ⟨⟨body, hok⟩, -⟩
      exact nomatch hok
  | ok body =>
      rw [handled_persist, finite_envelopeToLegacyBody hbody]
      exact (and_iff_right ⟨body, rfl⟩).symm

/-- The fields and the measurements of the object decide. -/
theorem safe_envelope_iff {freshId : String} {payload : Dict PyValue}
    {e : TelemetryEnvelope iso} (h : e.MadeOf freshId payload) :
    ((∀ m ∈ e.measurements.1, flattened m.measurementType ≠ none → m.value.huge = false) ∧
        FiniteEnvelope e) ↔
      (∀ v ∈ [arg payload "tenant_id" .none, arg payload "site_id" .none,
        arg payload "device_id" .none, arg payload "meter_id" .none,
        arg payload "correlation_id" freshId, arg payload "source_protocol" "dlms"],
        v.allFinite = true) ∧
      EachMeasurement payload SafeMeasurement := by
  rw [← eachMeasurement_iff h safeMeasurement_iff]
  simp only [List.forall_mem_cons, ← h.tenantId, ← h.siteId, ← h.deviceId, ← h.meterId,
    ← h.correlationId, ← h.sourceProtocol]
  constructor
  · rintro ⟨hmeasurable, hfinite⟩
    exact ⟨⟨hfinite.tenantId, hfinite.siteId, hfinite.deviceId, hfinite.meterId,
      hfinite.correlationId, hfinite.sourceProtocol, nofun⟩,
      fun m hm => ⟨hmeasurable m hm, hfinite.measurements m hm⟩⟩
  · rintro ⟨⟨htenant, hsite, hdevice, hmeter, hcorrelation, hprotocol, -⟩, hall⟩
    exact ⟨fun m hm => (hall m hm).1, htenant, hsite, hdevice, hmeter, hcorrelation, hprotocol,
      fun m hm => (hall m hm).2⟩

theorem handled_envelope {freshId : String} {payload : Dict PyValue} :
    Handled outcome s (handleEnvelope iso freshId payload) ↔
      (EnvelopeForm iso freshId (withoutMdm payload) →
        SafeEnvelope s.seen freshId (withoutMdm payload)) := by
  unfold handleEnvelope
  cases he : TelemetryEnvelope.fromDict iso freshId (withoutMdm payload) with
  | error raised =>
      refine iff_of_true handled_pure fun hform => ?_
      obtain ⟨e, hok⟩ := fromDict_isOk.mpr hform
      exact nomatch he.symm.trans hok
  | ok e =>
      have hmade := TelemetryEnvelope.madeOf he
      rw [← fromDict_isOk, he, forall_prop_of_true ⟨e, rfl⟩]
      dsimp only
      cases hkey : e.dedupKey? with
      | none =>
          refine iff_of_false (not_handled_throw _) fun hsafe => ?_
          refine absurd hkey (dedupKey?_ne_none.mpr ⟨?_, ?_⟩)
          · exact hmade.tenantId ▸ hsafe.tenantKey
          · exact hmade.deviceId ▸ hsafe.deviceKey
      | some key =>
          have hkeys : e.dedupKey? ≠ none := by
            rw [hkey]
            exact nofun
          obtain ⟨htenant, hdevice⟩ := dedupKey?_ne_none.mp hkeys
          rw [hmade.tenantId] at htenant
          rw [hmade.deviceId] at hdevice
          have hpayload : payloadKey? (withoutMdm payload) = some key :=
            (dedupKey?_eq hmade).symm.trans hkey
          dsimp only
          rw [handled_isDuplicate]
          -- a duplicate is dropped before anything of it is looked at
          by_cases hseen : key ∈ s.seen
          · have hknown : ¬ ∀ key ∈ payloadKey? (withoutMdm payload), key ∉ s.seen :=
              fun hnew => hnew key hpayload hseen
            rw [if_pos hseen, if_pos rfl]
            exact iff_of_true handled_pure
              ⟨htenant, hdevice, fun h => absurd h hknown, fun h => absurd h hknown⟩
          · have hnew : ∀ key ∈ payloadKey? (withoutMdm payload), key ∉ s.seen := by
              rw [hpayload]
              rintro _ ⟨⟩
              exact hseen
            rw [if_neg hseen, if_neg Bool.false_ne_true, handled_persistEnvelope,
              safe_envelope_iff hmade]
            constructor
            · rintro ⟨hfields, hmeasurements⟩
              exact ⟨htenant, hdevice, fun _ => hfields, fun _ => hmeasurements⟩
            · exact fun hsafe => ⟨hsafe.fields hnew, hsafe.measurements hnew⟩

/-- A voltage that no float is near to. -/
def hugeVoltage : Dict PyValue := [("voltage", .num (.int (10 ^ 200 * 10 ^ 200)))]

end Safe

end DiepLab.Ingestor
