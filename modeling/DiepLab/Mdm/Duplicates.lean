import DiepLab.Contracts.RoundTrip
import DiepLab.Library.BoundedSet

/-!
Duplicates of an envelope.

An envelope is a duplicate if its key or its correlation id was seen, and both
are recorded whatever comes of it. So an envelope is told from all that came
before it, and not from those that were accepted: `verdicts_eq` says so while the
sets hold everything. A rejected envelope may reject others.
-/

namespace DiepLab.Mdm

open Contracts

inductive DedupPolicy where
  | any | keyOnly | correlationOnly
  deriving DecidableEq, Repr

structure DuplicateCheckResult where
  isDuplicate : Bool
  matchedOn : List String
  deriving DecidableEq, Repr

/-- Both signatures of an envelope that can be hashed. -/
structure Signature where
  key : TelemetryEnvelope.DedupKey
  correlationId : Key
  deriving DecidableEq, Repr

structure DuplicateDetector (size : ℕ) where
  keys : BoundedSet TelemetryEnvelope.DedupKey size := {}
  correlationIds : BoundedSet Key size := {}

section Detector

variable {iso : String → Option IsoTime} {size : ℕ}

def signature? (e : TelemetryEnvelope iso) : Option Signature := do
  let key ← e.dedupKey?
  let correlationId ← e.correlationId.key?
  pure ⟨key, correlationId⟩

def duplicateResult (policy : DedupPolicy) (keyDup corrDup : Bool) : DuplicateCheckResult where
  isDuplicate :=
    match policy with
    | .any => keyDup || corrDup
    | .keyOnly => keyDup
    | .correlationOnly => corrDup
  matchedOn :=
    (if keyDup then ["timestamp_sequence"] else []) ++ if corrDup then ["correlation_id"] else []

/-- `check_and_record`. A signature that cannot be hashed raises before anything
is recorded. -/
def checkAndRecord (policy : DedupPolicy) (d : DuplicateDetector size)
    (e : TelemetryEnvelope iso) : Except PyError DuplicateCheckResult × DuplicateDetector size :=
  match signature? e with
  -- the first lookup hashes, so that the sets are as before
  | none => (.error .typeError, d)
  | some σ =>
      (.ok (duplicateResult policy (σ.key ∈ d.keys) (σ.correlationId ∈ d.correlationIds)),
        { keys := d.keys.add σ.key, correlationIds := d.correlationIds.add σ.correlationId })

/-- What the detector makes of a stream. -/
def verdicts (policy : DedupPolicy) (d : DuplicateDetector size) :
    List (TelemetryEnvelope iso) → List (Except PyError DuplicateCheckResult)
  | [] => []
  | e :: rest => (checkAndRecord policy d e).1 :: verdicts policy (checkAndRecord policy d e).2 rest

/-! ### A detector that forgets nothing -/

def keysOf (es : List (TelemetryEnvelope iso)) : List TelemetryEnvelope.DedupKey :=
  (es.filterMap signature?).map Signature.key

def correlationIdsOf (es : List (TelemetryEnvelope iso)) : List Key :=
  (es.filterMap signature?).map Signature.correlationId

/-- What is said of an envelope after all of these. -/
def verdictAfter (policy : DedupPolicy) (before : List (TelemetryEnvelope iso))
    (e : TelemetryEnvelope iso) : Except PyError DuplicateCheckResult :=
  match signature? e with
  | none => .error .typeError
  | some σ =>
      .ok (duplicateResult policy (σ.key ∈ keysOf before)
        (σ.correlationId ∈ correlationIdsOf before))

/-- No more different signatures than the sets hold. -/
structure Few (size : ℕ) (es : List (TelemetryEnvelope iso)) : Prop where
  keys : (keysOf es).dedup.length < size
  correlationIds : (correlationIdsOf es).dedup.length < size

/-- The detector has recorded these. -/
structure Recorded (before : List (TelemetryEnvelope iso)) (d : DuplicateDetector size) : Prop
    where
  keys : d.keys.Seen (keysOf before)
  correlationIds : d.correlationIds.Seen (correlationIdsOf before)

theorem dedup_length_le {α : Type} [DecidableEq α] {xs ys : List α} (h : xs ⊆ ys) :
    xs.dedup.length ≤ ys.dedup.length :=
  (List.subperm_of_subset (List.nodup_dedup xs)
    fun _ hx => List.subset_dedup ys (h (List.dedup_subset xs hx))).length_le

theorem Few.before {before rest : List (TelemetryEnvelope iso)} (h : Few size (before ++ rest)) :
    (keysOf before).dedup.length ≤ size ∧ (correlationIdsOf before).dedup.length ≤ size := by
  have hsubset : before.filterMap signature? ⊆ (before ++ rest).filterMap signature? := by
    rw [List.filterMap_append]
    exact List.subset_append_left _ _
  exact ⟨(dedup_length_le (List.map_subset _ hsubset)).trans h.keys.le,
    (dedup_length_le (List.map_subset _ hsubset)).trans h.correlationIds.le⟩

/-- One check tells the envelope from all before it, and records it. -/
theorem checkAndRecord_eq {before rest : List (TelemetryEnvelope iso)}
    {d : DuplicateDetector size} (h : Recorded before d) (hfew : Few size (before ++ rest))
    (policy : DedupPolicy) (e : TelemetryEnvelope iso) :
    (checkAndRecord policy d e).1 = verdictAfter policy before e ∧
      Recorded (before ++ [e]) (checkAndRecord policy d e).2 := by
  obtain ⟨hkeys, hids⟩ := hfew.before
  unfold checkAndRecord verdictAfter
  cases hσ : signature? e with
  | none =>
      have hnothing : (before ++ [e]).filterMap signature? = before.filterMap signature? := by
        rw [List.filterMap_append, List.filterMap_cons_none hσ, List.filterMap_nil,
          List.append_nil]
      refine ⟨rfl, ?_, ?_⟩
      · rw [keysOf, hnothing]
        exact h.keys
      · rw [correlationIdsOf, hnothing]
        exact h.correlationIds
  | some σ =>
      have hadded : (before ++ [e]).filterMap signature? = before.filterMap signature? ++ [σ] := by
        rw [List.filterMap_append, List.filterMap_cons_some hσ, List.filterMap_nil]
      refine ⟨?_, ?_, ?_⟩
      · simp only [h.keys.mem_iff hkeys, h.correlationIds.mem_iff hids]
      · rw [keysOf, hadded, List.map_append]
        exact h.keys.add hkeys σ.key
      · rw [correlationIdsOf, hadded, List.map_append]
        exact h.correlationIds.add hids σ.correlationId

/-- **Verdicts.** Every envelope is told from all that came before it. -/
theorem verdicts_eq {policy : DedupPolicy} {before rest : List (TelemetryEnvelope iso)}
    {d : DuplicateDetector size} (h : Recorded before d) (hfew : Few size (before ++ rest))
    (i : ℕ) :
    (verdicts policy d rest)[i]? =
      rest[i]?.map (verdictAfter policy (before ++ rest.take i)) := by
  induction rest generalizing before d i with
  | nil => rfl
  -- the induction is over the stream, with all that came before as an argument
  | cons e rest ih =>
      obtain ⟨hverdict, hrecorded⟩ := checkAndRecord_eq h hfew policy e
      cases i with
      | zero =>
          rw [List.take_zero, List.append_nil, verdicts, hverdict]
          rfl
      | succ i =>
          rw [List.append_cons] at hfew
          have hrest := ih hrecorded hfew i
          rw [List.append_assoc] at hrest
          exact hrest

/-! ### Chains -/

/-- The envelopes have a signature in common. -/
def Linked (e e' : TelemetryEnvelope iso) : Prop :=
  ∃ σ ∈ signature? e, ∃ σ' ∈ signature? e',
    σ.key = σ'.key ∨ σ.correlationId = σ'.correlationId

def LinkedAt (es : List (TelemetryEnvelope iso)) (j i : ℕ) : Prop :=
  ∃ e ∈ es[j]?, ∃ e' ∈ es[i]?, Linked e e'

instance (es : List (TelemetryEnvelope iso)) (j i : ℕ) : Decidable (LinkedAt es j i) :=
  inferInstanceAs (Decidable (∃ e ∈ es[j]?, ∃ e' ∈ es[i]?, ∃ σ ∈ signature? e,
    ∃ σ' ∈ signature? e', _))

variable (size) in
/-- The `i`-th envelope is rejected as a duplicate. -/
def Rejected (es : List (TelemetryEnvelope iso)) (i : ℕ) : Prop :=
  ∃ result, (verdicts .any ({} : DuplicateDetector size) es)[i]? = some (.ok result) ∧
    result.isDuplicate = true

variable (size) in
def Accepted (es : List (TelemetryEnvelope iso)) (i : ℕ) : Prop :=
  ∃ result, (verdicts .any ({} : DuplicateDetector size) es)[i]? = some (.ok result) ∧
    result.isDuplicate = false

theorem mem_take_iff {α : Type} {xs : List α} {i : ℕ} {x : α} :
    x ∈ xs.take i ↔ ∃ j < i, xs[j]? = some x := by
  rw [List.mem_iff_getElem?]
  refine exists_congr fun j => ?_
  rw [List.getElem?_take]
  split
  · rename_i hj
    exact (and_iff_right hj).symm
  · rename_i hj
    exact iff_of_false nofun fun h => hj h.1

theorem mem_map_signature {α : Type} {f : Signature → α} {es : List (TelemetryEnvelope iso)}
    {x : α} : x ∈ (es.filterMap signature?).map f ↔ ∃ e ∈ es, ∃ σ ∈ signature? e, f σ = x := by
  simp only [List.mem_map, List.mem_filterMap]
  constructor
  · rintro ⟨σ, ⟨e, he, hσ⟩, hx⟩
    exact ⟨e, he, σ, hσ, hx⟩
  · rintro ⟨e, he, σ, hσ, hx⟩
    exact ⟨σ, ⟨e, he, hσ⟩, hx⟩

/-- An envelope has a signature in common with one before it. -/
theorem linked_before_iff {es : List (TelemetryEnvelope iso)} {i : ℕ} {e : TelemetryEnvelope iso}
    (he : es[i]? = some e) {σ : Signature} (hσ : signature? e = some σ) :
    (σ.key ∈ keysOf (es.take i) ∨ σ.correlationId ∈ correlationIdsOf (es.take i)) ↔
      ∃ j < i, LinkedAt es j i := by
  rw [keysOf, correlationIdsOf, mem_map_signature, mem_map_signature]
  constructor
  · rintro (⟨e', he', σ', hσ', hkey⟩ | ⟨e', he', σ', hσ', hid⟩)
    · obtain ⟨j, hj, hget⟩ := mem_take_iff.mp he'
      exact ⟨j, hj, e', hget, e, he, σ', hσ', σ, hσ, Or.inl hkey⟩
    · obtain ⟨j, hj, hget⟩ := mem_take_iff.mp he'
      exact ⟨j, hj, e', hget, e, he, σ', hσ', σ, hσ, Or.inr hid⟩
  · rintro ⟨j, hj, e', hget, e'', he'', σ', hσ', σ'', hσ'', hlinked⟩
    have hsame : e'' = e := Option.some.inj (he''.symm.trans he)
    subst hsame
    have hsame : σ'' = σ := Option.some.inj (hσ''.symm.trans hσ)
    subst hsame
    have hmem := mem_take_iff.mpr ⟨j, hj, hget⟩
    exact hlinked.imp (fun hkey => ⟨e', hmem, σ', hσ', hkey⟩) fun hid => ⟨e', hmem, σ', hσ', hid⟩

section Stream

variable {es : List (TelemetryEnvelope iso)} {i : ℕ}

theorem verdict_at (hfew : Few size es) (i : ℕ) :
    (verdicts .any ({} : DuplicateDetector size) es)[i]? =
      es[i]?.map (verdictAfter .any (es.take i)) := by
  have hstart : Recorded ([] : List (TelemetryEnvelope iso)) ({} : DuplicateDetector size) :=
    ⟨BoundedSet.seen_empty, BoundedSet.seen_empty⟩
  exact verdicts_eq hstart hfew i

/-- What is said of an envelope with signatures. -/
theorem verdict_of_signature (hfew : Few size es) {e : TelemetryEnvelope iso}
    (he : es[i]? = some e) {σ : Signature} (hσ : signature? e = some σ) :
    ∃ result, (verdicts .any ({} : DuplicateDetector size) es)[i]? = some (.ok result) ∧
      (result.isDuplicate = true ↔ ∃ j < i, LinkedAt es j i) := by
  rw [verdict_at hfew, he, Option.map_some, verdictAfter, hσ]
  refine ⟨_, rfl, ?_⟩
  rw [← linked_before_iff he hσ]
  simp [duplicateResult]

/-- An envelope that is answered has signatures. -/
theorem signature_of_verdict (hfew : Few size es) {result : DuplicateCheckResult}
    (hresult : (verdicts .any ({} : DuplicateDetector size) es)[i]? = some (.ok result)) :
    (∃ e ∈ es[i]?, signature? e ≠ none) ∧
      (result.isDuplicate = true ↔ ∃ j < i, LinkedAt es j i) := by
  have hverdict := (verdict_at hfew i).symm.trans hresult
  obtain ⟨e, he, hverdict⟩ := Option.map_eq_some_iff.mp hverdict
  cases hσ : signature? e with
  | none =>
      rw [verdictAfter, hσ] at hverdict
      cases hverdict
  | some σ =>
      obtain ⟨result', hresult', hiff⟩ := verdict_of_signature hfew he hσ
      injection hresult.symm.trans hresult' with hsame
      injection hsame with hsame
      refine ⟨⟨e, he, by simp [hσ]⟩, ?_⟩
      rw [hsame]
      exact hiff

theorem rejected_iff (hfew : Few size es) : Rejected size es i ↔ ∃ j < i, LinkedAt es j i := by
  constructor
  · rintro ⟨result, hresult, hdup⟩
    exact (signature_of_verdict hfew hresult).2.mp hdup
  · rintro ⟨j, hj, hlinked⟩
    obtain ⟨_, _, e, he, _, _, σ, hσ, _⟩ := id hlinked
    obtain ⟨result, hresult, hiff⟩ := verdict_of_signature hfew he hσ
    exact ⟨result, hresult, hiff.mpr ⟨j, hj, hlinked⟩⟩

theorem accepted_iff (hfew : Few size es) :
    Accepted size es i ↔
      (∃ e ∈ es[i]?, signature? e ≠ none) ∧ ¬ ∃ j < i, LinkedAt es j i := by
  constructor
  · rintro ⟨result, hresult, hdup⟩
    obtain ⟨hsigned, hiff⟩ := signature_of_verdict hfew hresult
    refine ⟨hsigned, fun hlinked => ?_⟩
    rw [hiff.mpr hlinked] at hdup
    exact nomatch hdup
  · rintro ⟨⟨e, he, hσ⟩, hnew⟩
    obtain ⟨σ, hσ⟩ := Option.ne_none_iff_exists'.mp hσ
    obtain ⟨result, hresult, hiff⟩ := verdict_of_signature hfew he hσ
    exact ⟨result, hresult, Bool.not_eq_true _ ▸ fun hdup => hnew (hiff.mp hdup)⟩

/-- **Chains.** Every rejected envelope has a signature in common with an earlier
one that was accepted, and every repetition of an accepted one is rejected,
exactly if every envelope that is linked to an earlier one is linked to an
earlier one that is linked to none before it. -/
theorem rejections_iff (es : List (TelemetryEnvelope iso)) (hfew : Few size es) :
    ((∀ i, Rejected size es i → ∃ j < i, Accepted size es j ∧ LinkedAt es j i) ∧
        ∀ i j, j < i → Accepted size es j → es[i]? = es[j]? → Rejected size es i) ↔
      ∀ i j, j < i → LinkedAt es j i →
        ∃ j' < i, LinkedAt es j' i ∧ ∀ k < j', ¬ LinkedAt es k j' := by
  have hrepeated (i j : ℕ) (hj : j < i) (haccepted : Accepted size es j)
      (hsame : es[i]? = es[j]?) : Rejected size es i := by
    obtain ⟨⟨e, he, hσ⟩, -⟩ := (accepted_iff hfew).mp haccepted
    obtain ⟨σ, hσ⟩ := Option.ne_none_iff_exists'.mp hσ
    exact (rejected_iff hfew).mpr ⟨j, hj, e, he, e, hsame.trans he, σ, hσ, σ, hσ, Or.inl rfl⟩
  rw [and_iff_left hrepeated]
  constructor
  -- accepted means linked to none before, and so it ends a chain
  · intro h i j hj hlinked
    obtain ⟨j', hj', haccepted, hlinked'⟩ := h i ((rejected_iff hfew).mpr ⟨j, hj, hlinked⟩)
    have hnew := ((accepted_iff hfew).mp haccepted).2
    exact ⟨j', hj', hlinked', fun k hk hlinked => hnew ⟨k, hk, hlinked⟩⟩
  · intro h i hrejected
    obtain ⟨j, hj, hlinked⟩ := (rejected_iff hfew).mp hrejected
    obtain ⟨j', hj', hlinked', hnew⟩ := h i j hj hlinked
    obtain ⟨e, he, _, _, σ, hσ, _⟩ := id hlinked'
    refine ⟨j', hj', (accepted_iff hfew).mpr ⟨⟨e, he, ?_⟩, ?_⟩, hlinked'⟩
    · rw [Option.mem_def.mp hσ]
      exact nofun
    · rintro ⟨k, hk, hlinked⟩
      exact hnew k hk hlinked

end Stream

end Detector

/-- `DEDUP_CACHE_SIZE`. -/
def cacheSize : ℕ := 50000

/-- The reading of the meter under another sequence number and correlation id. -/
def resent (sequenceNumber : ℕ) (correlationId : String) : TelemetryEnvelope anyUtc :=
  { meterReading with sequenceNumber := sequenceNumber, correlationId := correlationId }

theorem rejections_iff_twice :
    ((∀ i, Rejected cacheSize [meterReading, meterReading] i →
          ∃ j < i, Accepted cacheSize [meterReading, meterReading] j ∧
            LinkedAt [meterReading, meterReading] j i) ∧
        ∀ i j, j < i → Accepted cacheSize [meterReading, meterReading] j →
          [meterReading, meterReading][i]? = [meterReading, meterReading][j]? →
          Rejected cacheSize [meterReading, meterReading] i) ↔
      ∀ i j, j < i → LinkedAt [meterReading, meterReading] j i →
        ∃ j' < i, LinkedAt [meterReading, meterReading] j' i ∧
          ∀ k < j', ¬ LinkedAt [meterReading, meterReading] k j' :=
  rejections_iff [meterReading, meterReading] ⟨by decide +kernel, by decide +kernel⟩

/-- A reading, its retry under another correlation id, and the next reading under
the same one. -/
def chain : List (TelemetryEnvelope anyUtc) :=
  [resent 7 "11111111-1111-1111-1111-111111111111",
    resent 7 "22222222-2222-2222-2222-222222222222",
    resent 8 "22222222-2222-2222-2222-222222222222"]

/-- The last one has nothing in common with the only one that was accepted. -/
theorem chain_suppressed :
    Few cacheSize chain ∧ Rejected cacheSize chain 2 ∧
      ¬ ∃ j < 2, Accepted cacheSize chain j ∧ LinkedAt chain j 2 := by
  have hfew : Few cacheSize chain := ⟨by decide +kernel, by decide +kernel⟩
  refine ⟨hfew, (rejected_iff hfew).mpr ⟨1, by decide, by decide +kernel⟩, ?_⟩
  rintro ⟨j, hj, haccepted, hlinked⟩
  have hnew := ((accepted_iff hfew).mp haccepted).2
  obtain rfl | rfl : j = 0 ∨ j = 1 := by omega
  · exact absurd hlinked (by decide +kernel)
  · exact hnew ⟨0, by decide, by decide +kernel⟩

end DiepLab.Mdm
