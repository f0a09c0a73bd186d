import DiepLab.Ingestor.Messages
import DiepLab.Library.Protocol

/-!
Readings that are delivered again.

A key is recorded before anything is posted, under the same lock under which it
is looked up. So one message claims a key, and only it posts the reading. It is
the same order that loses readings: what becomes of the POST changes nothing in
the record, and a reading whose POST failed is a duplicate from then on.
-/

namespace DiepLab.Ingestor

open StatementProgram Contracts
open Contracts.TelemetryEnvelope (DedupKey)

/-! ### Phases of a message -/

inductive IngestPhase where
  | ready
  /-- The key was not seen, and now it is. -/
  | claimed (key : DedupKey)
  | done
  deriving DecidableEq

/-- A key is looked up once, and only a reading whose key was claimed is posted. -/
def ingestProtocol : Protocol IngestResp IngestExc IngestPhase where
  next
    | .ready, .isDuplicate key, .ok false => some (.claimed key)
    | .ready, .isDuplicate _, _ => some .done
    | .ready, .post none _, _ => some .done
    | .claimed key, .post (some key') _, _ => if key = key' then some .done else none
    | _, _, _ => none
  final _ := True

section Follows

variable {iso : String → Option IsoTime} {str : PyValue → String}

theorem persist_follows {φ : IngestPhase} {key : Option DedupKey} {body : Body}
    (h : ∀ r, ∃ φ', ingestProtocol.next φ (.post key body) r = some φ') :
    ingestProtocol.Follows φ (persist key body) := by
  unfold persist
  refine Protocol.followsTo_attempt.mpr (Protocol.followsTo_bind.mpr
    (Protocol.followsTo_call.mpr fun r => ?_))
  obtain ⟨φ', hnext⟩ := h r
  refine ⟨φ', hnext, ?_⟩
  cases r with
  | ok status => trivial
  | error e => cases e <;> trivial

theorem handleEnvelope_follows (freshId : String) (payload : Dict PyValue) :
    ingestProtocol.Follows .ready (handleEnvelope iso freshId payload) := by
  unfold handleEnvelope
  split
  · trivial
  · split
    · trivial
    · rename_i key _
      refine Protocol.followsTo_bind.mpr (Protocol.followsTo_call.mpr fun r => ?_)
      match r with
      | .error e => exact ⟨.done, rfl, trivial⟩
      | .ok true => exact ⟨.done, rfl, trivial⟩
      | .ok false =>
          refine ⟨.claimed key, rfl, ?_⟩
          unfold persistEnvelope
          dsimp only
          rw [if_neg Bool.false_ne_true]
          split
          · trivial
          · exact persist_follows fun r => ⟨.done, if_pos rfl⟩

theorem handleMessage_follows (freshId topic : String) (raw : List JsonToken) :
    ingestProtocol.Follows .ready (handleMessage iso str freshId topic raw) := by
  unfold handleMessage
  split
  · split
    · exact handleEnvelope_follows freshId _
    · unfold handleLegacy
      split
      · trivial
      · exact persist_follows fun r => ⟨.done, rfl⟩
  · trivial

end Follows

/-! ### The pool of workers -/

/-- A message of the queue. -/
structure Message where
  freshId : String
  topic : String
  raw : List JsonToken

abbrev IngestConfig := Config IngestResp IngestExc Unit IngestState

abbrev IngestSchedule := List (Event PostOutcome Message Empty)

/-- Nothing else changes the state. -/
def noEnv (e : Empty) (_ : IngestState) : IngestState := e.elim

/-- Fewer than `_SEEN_MAX` keys have been recorded since a key was that is looked
up again. -/
def InFlight : PostOutcome → IngestStmt → IngestState → Prop
  | _, .isDuplicate key, s => key ∈ s.recorded → s.recorded.idxOf key < seenMax
  | _, .post .., _ => True

/-- A reading whose POST failed is not taken for a duplicate. -/
def NotSuppressed : PostOutcome → IngestStmt → IngestState → Prop
  | outcome, .isDuplicate key, s =>
      key ∈ s.failed → (ingestSem outcome (.isDuplicate key) s).1 = .ok false
  | _, .post .., _ => True

/-- No reading is delivered again after its POST failed. -/
def NotRedelivered : PostOutcome → IngestStmt → IngestState → Prop
  | _, .isDuplicate key, s => key ∉ s.failed
  | _, .post .., _ => True

instance (outcome : PostOutcome) (q : IngestStmt) (s : IngestState) :
    Decidable (InFlight outcome q s) := by
  cases q <;> simp only [InFlight] <;> infer_instance

instance (outcome : PostOutcome) (q : IngestStmt) (s : IngestState) :
    Decidable (NotSuppressed outcome q s) := by
  cases q <;> simp only [NotSuppressed] <;> infer_instance

/-- The set has the newest keys, each of them was recorded once, and whatever has
come of a key has come of the one message that claimed it. -/
structure Claims (phases : List IngestPhase) (s : IngestState) : Prop where
  newest : s.seen.Newest s.recorded
  nodup : s.recorded.Nodup
  once : ∀ key, phases.count (.claimed key) + s.persisted.count key + s.failed.count key ≤
    s.recorded.count key

section Pool

variable (iso : String → Option IsoTime) (str : PyValue → String)

def serve (message : Message) : IngestProg Unit :=
  handleMessage iso str message.freshId message.topic message.raw

/-- A message that ends or fails where nothing is claimed leaves the claims. -/
theorem Claims.release {phases : List IngestPhase} {s : IngestState} (h : Claims phases s)
    {i : ℕ} (hi : phases[i]? = some .ready) : Claims (phases.set i .done) s := by
  refine ⟨h.newest, h.nodup, fun key => ?_⟩
  have hcount := count_phase_set hi .done (.claimed key)
  rw [if_neg nofun, if_neg nofun] at hcount
  have honce := h.once key
  omega

/-- A key that was not seen is claimed. -/
theorem Claims.claim {phases : List IngestPhase} {s : IngestState} (h : Claims phases s)
    {i : ℕ} (hi : phases[i]? = some .ready) {key : DedupKey} (hseen : key ∉ s.seen)
    (hflight : key ∈ s.recorded → s.recorded.idxOf key < seenMax) :
    Claims (phases.set i (.claimed key))
      { s with seen := s.seen.add key, recorded := key :: s.recorded } := by
  -- were it recorded, the set would still have it: the key is in flight
  have hnew : key ∉ s.recorded := fun hmem => hseen (h.newest.mem hmem (hflight hmem))
  refine ⟨h.newest.add hseen, List.nodup_cons.mpr ⟨hnew, h.nodup⟩, fun key' => ?_⟩
  have hcount := count_phase_set hi (.claimed key) (.claimed key')
  have honce := h.once key'
  rw [if_neg nofun] at hcount
  dsimp only
  rw [List.count_cons]
  by_cases hkey : key = key'
  · subst hkey
    rw [if_pos rfl] at hcount
    rw [beq_self_eq_true, if_pos rfl]
    omega
  · rw [if_neg fun heq => hkey (IngestPhase.claimed.inj heq)] at hcount
    omega

/-- The reading of a claimed key is posted, and something has come of the key. -/
theorem Claims.post {phases : List IngestPhase} {s : IngestState} (h : Claims phases s) {i : ℕ}
    {key : DedupKey} (hi : phases[i]? = some (.claimed key)) (outcome : PostOutcome)
    (body : Body) :
    Claims (phases.set i .done) (ingestSem outcome (.post (some key) body) s).2 := by
  have hcounts (key' : DedupKey) :
      (phases.set i .done).count (.claimed key') + (s.persisted.count key' +
        s.failed.count key' + if key = key' then 1 else 0) ≤ s.recorded.count key' := by
    have hcount := count_phase_set hi .done (.claimed key')
    have honce := h.once key'
    simp only [IngestPhase.claimed.injEq, reduceCtorEq, if_false] at hcount
    omega
  have hcons (key' : DedupKey) (keys : List DedupKey) :
      (key :: keys).count key' = keys.count key' + if key = key' then 1 else 0 := by
    rw [List.count_cons]
    simp only [beq_iff_eq]
  cases outcome with
  | raised m =>
      refine ⟨h.newest, h.nodup, fun key' => ?_⟩
      have hcounts := hcounts key'
      have hcons := hcons key' s.failed
      change _ + s.persisted.count key' + (key :: s.failed).count key' ≤ s.recorded.count key'
      omega
  | status code =>
      rw [ingestSem]
      dsimp only
      split
      · refine ⟨h.newest, h.nodup, fun key' => ?_⟩
        have hcounts := hcounts key'
        have hcons := hcons key' s.persisted
        change _ + (key :: s.persisted).count key' + s.failed.count key' ≤ s.recorded.count key'
        omega
      · refine ⟨h.newest, h.nodup, fun key' => ?_⟩
        have hcounts := hcounts key'
        have hcons := hcons key' s.failed
        change _ + s.persisted.count key' + (key :: s.failed).count key' ≤ s.recorded.count key'
        omega

theorem claims_keeps : ingestProtocol.Keeps ingestSem (serve iso str) noEnv InFlight
    (fun _ => .ready) Claims where
  follows message := handleMessage_follows message.freshId message.topic message.raw
  act := by
    intro phases s i φ outcome q φ' h hφ hflight hnext
    cases q with
    | isDuplicate key =>
        by_cases hseen : key ∈ s.seen
        · rw [ingestSem, if_pos hseen] at hnext ⊢
          cases φ with
          | ready =>
              injection hnext with hnext
              exact hnext ▸ h.release hφ
          | _ => cases hnext
        · rw [ingestSem, if_neg hseen] at hnext ⊢
          cases φ with
          | ready =>
              injection hnext with hnext
              exact hnext ▸ h.claim hφ hseen hflight
          | _ => cases hnext
    | post key body =>
        cases key with
        | none =>
            cases φ with
            | ready =>
                injection hnext with hnext
                have hstate : (ingestSem outcome (.post none body) s).2 = s := by
                  cases outcome with
                  | raised m => rfl
                  | status code =>
                      rw [ingestSem]
                      dsimp only
                      split <;> rfl
                rw [hstate, ← hnext]
                exact h.release hφ
            | _ => cases hnext
        | some key =>
            cases φ with
            | claimed claimed =>
                -- the protocol lets a message post the key that it has claimed, and no other
                have hsame : claimed = key := by
                  by_contra hne
                  cases (if_neg hne).symm.trans hnext
                injection (if_pos hsame).symm.trans hnext with hdone
                rw [← hdone]
                exact h.post (hsame ▸ hφ) outcome body
            | _ => cases hnext
  spawn message phases s h := by
    refine ⟨h.newest, h.nodup, fun key => ?_⟩
    rw [List.count_append, List.count_singleton]
    exact h.once key
  env e := e.elim

/-- Nothing has been delivered. -/
def idle : IngestConfig := ⟨{}, []⟩

theorem inPhases_idle : idle.InPhases ingestProtocol [] := List.Forall₂.nil

theorem claims_idle : Claims [] idle.state :=
  ⟨BoundedSet.newest_empty, List.nodup_nil, fun _ => Nat.le_refl 0⟩

theorem Claims.persisted_nodup {phases : List IngestPhase} {s : IngestState}
    (h : Claims phases s) : s.persisted.Nodup := by
  refine List.nodup_iff_count_le_one.mpr fun key => ?_
  have honce := h.once key
  have hrecorded := List.nodup_iff_count_le_one.mp h.nodup key
  omega

/-- A key whose reading failed was recorded. -/
theorem Claims.recorded_of_failed {phases : List IngestPhase} {s : IngestState}
    (h : Claims phases s) {key : DedupKey} (hfailed : key ∈ s.failed) : key ∈ s.recorded := by
  have honce := h.once key
  have hpos := List.count_pos_iff.mpr hfailed
  exact List.count_pos_iff.mp (by omega)

/-! Where only a few keys are delivered at all, fewer than the set holds, they are
all in flight. -/

/-- The key that is looked up is one of these. -/
def AmongKeys (keys : List DedupKey) : PostOutcome → IngestStmt → IngestState → Prop
  | _, .isDuplicate key, _ => key ∈ keys
  | _, .post .., _ => True

structure RecordedAmong (keys : List DedupKey) (s : IngestState) : Prop where
  newest : s.seen.Newest s.recorded
  nodup : s.recorded.Nodup
  among : s.recorded ⊆ keys

variable {keys : List DedupKey}

theorem RecordedAmong.length_le {s : IngestState} (h : RecordedAmong keys s) :
    s.recorded.length ≤ keys.length :=
  (List.subperm_of_subset h.nodup h.among).length_le

theorem recordedAmong_post {outcome : PostOutcome} {key : Option DedupKey} {body : Body}
    {s : IngestState} (h : RecordedAmong keys s) :
    RecordedAmong keys (ingestSem outcome (.post key body) s).2 := by
  cases outcome with
  | raised m => exact ⟨h.newest, h.nodup, h.among⟩
  | status code =>
      rw [ingestSem]
      dsimp only
      split <;> exact ⟨h.newest, h.nodup, h.among⟩

theorem recordedAmong_keeps (hfew : keys.length ≤ seenMax) :
    ingestProtocol.Keeps ingestSem (serve iso str) noEnv (AmongKeys keys) (fun _ => .ready)
      (fun _ => RecordedAmong keys) where
  follows message := handleMessage_follows message.freshId message.topic message.raw
  act := by
    intro _ s _ _ outcome q _ h _ hamong _
    cases q with
    | post key body => exact recordedAmong_post h
    | isDuplicate key =>
        by_cases hseen : key ∈ s.seen
        · rw [ingestSem, if_pos hseen]
          exact h
        · have hnew : key ∉ s.recorded := fun hmem =>
            hseen ((h.newest.mem_iff (h.length_le.trans hfew)).mpr hmem)
          rw [ingestSem, if_neg hseen]
          exact ⟨h.newest.add hseen, List.nodup_cons.mpr ⟨hnew, h.nodup⟩,
            List.cons_subset.mpr ⟨hamong, h.among⟩⟩
  spawn _ _ _ h := h
  env e := e.elim

theorem inFlight_of_few (hfew : keys.length ≤ seenMax) (schedule : IngestSchedule)
    (h : idle.AllSteps ingestSem (serve iso str) noEnv (AmongKeys keys) schedule) :
    idle.AllSteps ingestSem (serve iso str) noEnv InFlight schedule := by
  have hstart : RecordedAmong keys idle.state :=
    ⟨BoundedSet.newest_empty, List.nodup_nil, List.nil_subset _⟩
  refine ((recordedAmong_keeps iso str hfew).allSteps schedule inPhases_idle hstart h).mono _ _ _ ?_
  rintro outcome q s ⟨-, _, hrecorded⟩
  cases q with
  | post key body => trivial
  | isDuplicate key =>
      exact fun hmem => lt_of_lt_of_le (List.idxOf_lt_length_of_mem hmem)
        (hrecorded.length_le.trans hfew)

/-- **At most once.** However the deliveries, the workers and the failures are
interleaved, no reading is persisted twice. -/
theorem persisted_nodup (schedule : IngestSchedule)
    (hflight : idle.AllSteps ingestSem (serve iso str) noEnv InFlight schedule) :
    (idle.run ingestSem (serve iso str) noEnv schedule).state.persisted.Nodup := by
  obtain ⟨_, -, hclaims⟩ := (claims_keeps iso str).run schedule inPhases_idle claims_idle hflight
  exact hclaims.persisted_nodup

/-- **Lost readings.** Over any deliveries, workers and failed POSTs, every
reading is persisted at most once and none whose POST failed is suppressed,
exactly if none is delivered again after its POST failed. -/
theorem delivery_iff (schedule : IngestSchedule)
    (hflight : idle.AllSteps ingestSem (serve iso str) noEnv InFlight schedule) :
    ((∀ n, (idle.run ingestSem (serve iso str) noEnv (schedule.take n)).state.persisted.Nodup) ∧
        idle.AllSteps ingestSem (serve iso str) noEnv NotSuppressed schedule) ↔
      idle.AllSteps ingestSem (serve iso str) noEnv NotRedelivered schedule := by
  have honce (n : ℕ) :
      (idle.run ingestSem (serve iso str) noEnv (schedule.take n)).state.persisted.Nodup :=
    persisted_nodup iso str _ (hflight.take _ _ _ n)
  rw [and_iff_right honce]
  refine ((claims_keeps iso str).allSteps schedule inPhases_idle claims_idle hflight).congr _ _ _ ?_
  rintro outcome q s ⟨hflight, phases, hclaims⟩
  cases q with
  | post key body => exact Iff.rfl
  | isDuplicate key =>
      refine ⟨fun hkept hfailed => ?_, fun hnew hfailed => absurd hfailed hnew⟩
      have hrecorded := hclaims.recorded_of_failed hfailed
      -- a reading that failed was recorded before its POST, so it counts as seen
      have hseen : key ∈ s.seen := hclaims.newest.mem hrecorded (hflight hrecorded)
      have hanswer := hkept hfailed
      rw [ingestSem, if_pos hseen] at hanswer
      cases hanswer

/-- The reading of the meter, as a message. -/
def meterMessage : Message := ⟨"", "diep/meter/METER001", meterReading.toJson⟩

/-- The reading is delivered twice; the first POST turns out so. -/
def deliveredTwice (outcome : PostOutcome) : IngestSchedule :=
  [.spawn meterMessage, .act 0 outcome, .act 0 outcome, .spawn meterMessage, .act 1 outcome]

theorem delivery_iff_deliveredTwice :
    ((∀ n, (idle.run ingestSem (serve anyUtc fun _ => "") noEnv
          ((deliveredTwice (.status 201)).take n)).state.persisted.Nodup) ∧
        idle.AllSteps ingestSem (serve anyUtc fun _ => "") noEnv NotSuppressed
          (deliveredTwice (.status 201))) ↔
      idle.AllSteps ingestSem (serve anyUtc fun _ => "") noEnv NotRedelivered
        (deliveredTwice (.status 201)) :=
  delivery_iff anyUtc (fun _ => "") (deliveredTwice (.status 201)) (by decide +kernel)

/-- The API is down at the first delivery: the second one is a duplicate. -/
theorem failed_reading_suppressed :
    idle.AllSteps ingestSem (serve anyUtc fun _ => "") noEnv InFlight
        (deliveredTwice (.raised "timeout")) ∧
      ¬ idle.AllSteps ingestSem (serve anyUtc fun _ => "") noEnv NotSuppressed
        (deliveredTwice (.raised "timeout")) := by
  decide +kernel

end Pool

end DiepLab.Ingestor
