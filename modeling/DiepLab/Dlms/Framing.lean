import DiepLab.Dlms.Protocol

/-!
The stream of PDUs.

What has been received is a beginning of the stream: the frames of the first
PDUs, and a beginning of the next one that `unframe` does not take. The loop of
the server keeps the second part, whatever the segments are.
-/

namespace DiepLab.Dlms

/-- The PDUs that a frame has room for. -/
def Fits (pdu : Pdu) : Prop := pdu.length ≤ 0xFFFF

instance (pdu : Pdu) : Decidable (Fits pdu) := inferInstanceAs (Decidable (_ ≤ _))

def stream (pdus : List Pdu) : List UInt8 := pdus.flatMap frameBytes

/-- Nothing of it is a complete frame, nor is anything wrong with it. -/
def Incomplete (buf : List UInt8) : Prop := unframe buf = .ok ([], 0)

@[simp] theorem stream_nil : stream [] = [] := rfl

@[simp] theorem stream_cons (pdu : Pdu) (pdus : List Pdu) :
    stream (pdu :: pdus) = frameBytes pdu ++ stream pdus := List.flatMap_cons

theorem frame_of_fits {pdu : Pdu} (h : Fits pdu) : frame pdu = .ok (frameBytes pdu) :=
  if_neg (not_lt.mpr h)

@[simp] theorem length_frameBytes (pdu : Pdu) : (frameBytes pdu).length = 3 + pdu.length := by
  simp only [frameBytes, List.length_append, List.length_cons, Bytes.length_beBytes]

theorem incomplete_nil : Incomplete [] := by
  rw [Incomplete, unframe]
  simp

/-- The version and the two bytes of the length. -/
theorem frameBytes_eq {pdu : Pdu} (h : Fits pdu) :
    ∃ hi lo, frameBytes pdu = frameVer :: hi :: lo :: pdu ∧ Bytes.beNat [hi, lo] = pdu.length := by
  have hlen := Bytes.length_beBytes 2 pdu.length
  have hnat : Bytes.beNat (Bytes.beBytes 2 pdu.length) = pdu.length :=
    Bytes.beNat_beBytes_of_lt (show pdu.length < 256 ^ 2 by unfold Fits at h; omega)
  rw [frameBytes]
  match Bytes.beBytes 2 pdu.length, hlen, hnat with
  | [hi, lo], _, hnat => exact ⟨hi, lo, rfl, hnat⟩

/-- A frame is taken off the front. -/
theorem unframe_frameBytes_append {pdu : Pdu} (h : Fits pdu) (rest : List UInt8) :
    unframe (frameBytes pdu ++ rest) =
      (unframe rest).map fun out => (pdu :: out.1, (frameBytes pdu).length + out.2) := by
  obtain ⟨hi, lo, hbytes, hnat⟩ := frameBytes_eq h
  have hlong : ¬(pdu ++ rest).length < pdu.length := by
    rw [List.length_append]
    omega
  rw [length_frameBytes, hbytes, List.cons_append, List.cons_append, List.cons_append, unframe,
    if_neg (not_not.mpr rfl), hnat, if_neg hlong, List.drop_left, List.take_left]
  cases unframe rest <;> rfl

theorem unframe_stream_append {pdus : List Pdu} (h : ∀ pdu ∈ pdus, Fits pdu) {tail : List UInt8}
    (htail : Incomplete tail) :
    unframe (stream pdus ++ tail) = .ok (pdus, (stream pdus).length) := by
  induction pdus with
  | nil => exact htail
  | cons pdu pdus ih =>
      rw [List.forall_mem_cons] at h
      rw [stream_cons, List.append_assoc, unframe_frameBytes_append h.1, ih h.2,
        List.length_append]
      rfl

/-- Less than a frame is not taken. -/
theorem incomplete_of_prefix {pdu : Pdu} (h : Fits pdu) {buf : List UInt8}
    (hbegins : buf <+: frameBytes pdu) (hshort : buf.length < (frameBytes pdu).length) :
    Incomplete buf := by
  obtain ⟨hi, lo, hbytes, hnat⟩ := frameBytes_eq h
  rw [hbytes] at hbegins hshort
  unfold Incomplete
  rcases buf with _ | ⟨ver, _ | ⟨hi', _ | ⟨lo', rest⟩⟩⟩
  · exact incomplete_nil
  · rw [unframe]
    simp
  · rw [unframe]
    simp
  · simp only [List.cons_prefix_cons] at hbegins
    obtain ⟨rfl, rfl, rfl, -⟩ := hbegins
    have hrest : rest.length < pdu.length := by simpa using hshort
    rw [unframe, if_neg (not_not.mpr rfl), hnat, if_pos hrest]

/-- A beginning of the stream is the frames of some PDUs and less than the frame
of the next one. -/
theorem exists_of_prefix {pdus : List Pdu} (h : ∀ pdu ∈ pdus, Fits pdu) {buf : List UInt8}
    (hbegins : buf <+: stream pdus) :
    ∃ k tail, buf = stream (pdus.take k) ++ tail ∧ Incomplete tail ∧
      (k < pdus.length → buf.length < (stream (pdus.take (k + 1))).length) := by
  induction pdus generalizing buf with
  | nil =>
      obtain rfl : buf = [] := List.prefix_nil.mp hbegins
      exact ⟨0, [], rfl, incomplete_nil, nofun⟩
  | cons pdu pdus ih =>
      rw [List.forall_mem_cons] at h
      rcases Nat.lt_or_ge buf.length (frameBytes pdu).length with hshort | hlong
      · refine ⟨0, buf, rfl, ?_, fun _ => by simpa using hshort⟩
        have hframe : buf <+: frameBytes pdu :=
          List.prefix_of_prefix_length_le hbegins (List.prefix_append _ _) hshort.le
        exact incomplete_of_prefix h.1 hframe hshort
      · have hframe : frameBytes pdu <+: buf :=
          List.prefix_of_prefix_length_le (List.prefix_append _ _) hbegins hlong
        obtain ⟨rest, rfl⟩ := hframe
        rw [stream_cons, List.prefix_append_right_inj] at hbegins
        obtain ⟨k, tail, rfl, htail, hnext⟩ := ih h.2 hbegins
        refine ⟨k + 1, tail, by simp, htail, fun hk => ?_⟩
        have := hnext (by simpa using hk)
        simp only [List.take_succ_cons, stream_cons, List.length_append] at this ⊢
        omega

/-! ### The server -/

/-- The replies of the handler fit into frames. -/
def Framable (handler : Pdu → Option Pdu) : Prop :=
  ∀ pdu answer, handler pdu = some answer → Fits answer

theorem replies_of_framable {handler : Pdu → Option Pdu} (h : Framable handler) (pdus : List Pdu) :
    (replies handler pdus).handed = pdus ∧ (replies handler pdus).raised = none := by
  induction pdus with
  | nil => exact ⟨rfl, rfl⟩
  | cons pdu pdus ih =>
      have hone : (reply handler pdu).handed = [pdu] ∧ (reply handler pdu).raised = none := by
        unfold reply
        split
        · exact ⟨rfl, rfl⟩
        · rename_i answer hanswer
          rw [frame_of_fits (h pdu answer hanswer)]
          exact ⟨rfl, rfl⟩
      change ((reply handler pdu).andThen (replies handler pdus)).handed = _ ∧
        ((reply handler pdu).andThen (replies handler pdus)).raised = _
      rw [Served.andThen, hone.2]
      exact ⟨by rw [hone.1, ih.1]; rfl, ih.2⟩

theorem handle_nil (handler : Pdu → Option Pdu) (buf : List UInt8) :
    handle handler buf [] = nothingServed := by
  rw [handle, dif_pos rfl]

theorem andThen_of_raised {served next : Served} (h : served.raised = none) :
    (served.andThen next).handed = served.handed ++ next.handed ∧
      (served.andThen next).raised = next.raised := by
  rw [Served.andThen, h]
  exact ⟨rfl, rfl⟩

/-- The loop takes up where it was left: what it has kept is less than a frame. -/
theorem handle_stream {handler : Pdu → Option Pdu} (hframable : Framable handler)
    {pdus : List Pdu} (h : ∀ pdu ∈ pdus, Fits pdu) {buf : List UInt8} {s : Segments UInt8}
    (hbuf : Incomplete buf) (hstream : buf ++ s.content = stream pdus) :
    (handle handler buf s).handed = pdus ∧ (handle handler buf s).raised = none := by
  induction hn : s.content.length using Nat.strongRecOn generalizing pdus buf s with
  | ind n ih =>
      by_cases hs : s = []
      · subst hs
        rw [Segments.content_nil, List.append_nil] at hstream
        have hall := unframe_stream_append h incomplete_nil
        rw [List.append_nil, ← hstream, hbuf] at hall
        obtain rfl : [] = pdus := (Prod.mk.inj (Except.ok.inj hall)).1
        rw [handle_nil]
        exact ⟨rfl, rfl⟩
      · have hrecv := s.recv_append 2048
        have hlt := Segments.length_recv_lt (n := 2048) (by decide) hs
        have hbegins : buf ++ (s.recv 2048).1 <+: stream pdus :=
          ⟨(s.recv 2048).2.content, by rw [List.append_assoc, hrecv, hstream]⟩
        obtain ⟨k, tail, hsplit, htail, -⟩ := exists_of_prefix h hbegins
        have htake : ∀ pdu ∈ pdus.take k, Fits pdu :=
          fun pdu hpdu => h pdu (List.mem_of_mem_take hpdu)
        have hdrop : ∀ pdu ∈ pdus.drop k, Fits pdu :=
          fun pdu hpdu => h pdu (List.mem_of_mem_drop hpdu)
        have hrest : tail ++ (s.recv 2048).2.content = stream (pdus.drop k) := by
          have hparts : stream (pdus.take k) ++ stream (pdus.drop k) = stream pdus := by
            rw [stream, stream, ← List.flatMap_append, List.take_append_drop, stream]
          rw [← hrecv, ← List.append_assoc, hsplit, List.append_assoc, ← hparts] at hstream
          exact List.append_cancel_left hstream
        obtain ⟨hhanded, hraised⟩ := ih _ (hn ▸ hlt) hdrop htail hrest rfl
        obtain ⟨hthese, hnone⟩ := replies_of_framable hframable (pdus.take k)
        rw [handle, dif_neg hs, hsplit, unframe_stream_append htake htail]
        simp only [List.drop_left]
        rw [(andThen_of_raised hnone).1, (andThen_of_raised hnone).2, hthese, hhanded, hraised,
          List.take_append_drop]
        exact ⟨rfl, rfl⟩

end DiepLab.Dlms
