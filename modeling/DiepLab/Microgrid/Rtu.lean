import DiepLab.Microgrid.Confirmation

/-!
The simulated station.

It answers an interrogation with a confirmation, its dataset and a termination,
and a command with a confirmation, after which a breaker command is followed by
the dataset. What it measures is drawn at random and left open here. It is such a
station as `Proper` describes (`Rtu.proper`).
-/

namespace DiepLab.Microgrid

structure Rtu where
  commonAddr : ℕ
  gridConnected : Bool := true
  setpointKw : Number := .float (.finite 0)
  deriving DecidableEq, Repr

/-- The ASDU of some objects, whose elements are encoded first. -/
def Rtu.asdu (rtu : Rtu) (typeId : UInt8) (cot : ℕ) (objects : List (ℕ × Number)) :
    Except PyExc (List UInt8) := do
  let encoded ← encodeObjects typeId objects
  pure (encodeAsdu typeId cot rtu.commonAddr encoded)

/-- `_send_dataset`. -/
def Rtu.dataset (rtu : Rtu) (measured : ℕ → Number) (cot : ℕ) :
    List (Except PyExc (List UInt8)) :=
  [rtu.asdu mMeNc1 cot (measKeys.map fun entry => (entry.1, measured entry.1)),
    rtu.asdu mSpNa1 cot [(ioaGridConnected, .int (if rtu.gridConnected then 1 else 0))]]

/-- `_on_asdu`: what is sent in order, and the station afterwards. -/
def Rtu.onAsdu (rtu : Rtu) (measured : ℕ → Number) (asdu : List UInt8) :
    List (Except PyExc (List UInt8)) × Rtu :=
  match decodeAsdu asdu with
  | .error _ => ([], rtu)
  | .ok d =>
      if d.typeId = cIcNa1 then
        (rtu.asdu cIcNa1 cotActcon [(0, qoiStation)] ::
            (rtu.dataset measured cotInterrogated ++
              [rtu.asdu cIcNa1 cotActterm [(0, qoiStation)]]),
          rtu)
      else if d.typeId = cScNa1 then
        match d.objects with
        | [] => ([.error .indexError], rtu)
        | (ioa, val) :: _ =>
            let rtu := if ioa = ioaBreaker then
              { rtu with gridConnected := (PyValue.num val).truthy } else rtu
            (rtu.asdu cScNa1 cotActcon [(ioa, val)] :: rtu.dataset measured cotSpontaneous, rtu)
      else if d.typeId = cSeNc1 then
        match d.objects with
        | [] => ([.error .indexError], rtu)
        | (ioa, val) :: _ =>
            let rtu := if ioa = ioaCmdSetpoint then { rtu with setpointKw := val } else rtu
            ([rtu.asdu cSeNc1 cotActcon [(ioa, val)]], rtu)
      else ([], rtu)

/-- An exception ends the thread, so that nothing is sent after it. -/
def sentBefore : List (Except PyExc (List UInt8)) → List (List UInt8)
  | .ok asdu :: rest => asdu :: sentBefore rest
  | _ => []

theorem forall_mem_sentBefore {P : List UInt8 → Prop} {asdus : List (Except PyExc (List UInt8))}
    (h : ∀ x ∈ asdus, ∀ asdu, x = .ok asdu → P asdu) : ∀ asdu ∈ sentBefore asdus, P asdu := by
  induction asdus with
  | nil => exact nofun
  | cons x rest ih =>
      rw [List.forall_mem_cons] at h
      cases x with
      | error e => exact nofun
      | ok asdu =>
          rw [sentBefore, List.forall_mem_cons]
          exact ⟨h.1 asdu rfl, ih h.2⟩

theorem readIoa_lt {b rest : List UInt8} {ioa : ℕ} (h : readIoa b = .ok (ioa, rest)) :
    ioa < 2 ^ 24 := by
  unfold readIoa at h
  split at h
  · rename_i low middle high _
    injection h with h
    have hlow := low.toNat_lt
    have hmiddle := middle.toNat_lt
    have hhigh := high.toNat_lt
    rw [← (Prod.mk.inj h).1]
    simp only [Bytes.leNat_cons, Bytes.leNat_nil]
    omega
  · cases h

/-- The address of the first object is read. -/
theorem ioa_lt_of_decodeAsdu {bytes : List UInt8} {d : Asdu} (h : decodeAsdu bytes = .ok d)
    {ioa : ℕ} {val : Number} {rest : List (ℕ × Number)}
    (hobjects : d.objects = (ioa, val) :: rest) : ioa < 2 ^ 24 := by
  unfold decodeAsdu at h
  split at h
  · rename_i typeId vsq tail
    obtain ⟨cot, -, h⟩ := bind_eq_ok.mp h
    obtain ⟨commonAddr, -, h⟩ := bind_eq_ok.mp h
    obtain ⟨objects, hdecoded, h⟩ := bind_eq_ok.mp h
    injection h with h
    subst h
    dsimp only at hobjects
    subst hobjects
    cases hcount : (vsq &&& 0x7F).toNat with
    | zero =>
        rw [hcount, decodeObjects] at hdecoded
        cases hdecoded
    | succ n =>
        rw [hcount, decodeObjects] at hdecoded
        obtain ⟨first, hfirst, hdecoded⟩ := bind_eq_ok.mp hdecoded
        obtain ⟨value, -, hdecoded⟩ := bind_eq_ok.mp hdecoded
        obtain ⟨others, -, hdecoded⟩ := bind_eq_ok.mp hdecoded
        injection hdecoded with hdecoded
        injection hdecoded with hhead
        obtain rfl : first.1 = ioa := (Prod.mk.inj hhead).1
        have hread : readIoa (tail.drop 4) = .ok (first.1, first.2) := hfirst
        exact readIoa_lt hread
  · cases h

theorem length_encodeObjects {typeId : UInt8} {objects : List (ℕ × Number)}
    {encoded : List (ℕ × List UInt8)} (h : encodeObjects typeId objects = .ok encoded) :
    encoded.length = objects.length := by
  induction objects generalizing encoded with
  | nil =>
      injection h with h
      rw [← h]
      rfl
  | cons object objects ih =>
      rw [encodeObjects, List.mapM_cons] at h
      obtain ⟨first, -, h⟩ := bind_eq_ok.mp h
      obtain ⟨others, hothers, h⟩ := bind_eq_ok.mp h
      injection h with h
      rw [← h, List.length_cons, List.length_cons, ih hothers]

/-- What the station sends is read with its type and its cause. -/
theorem Rtu.decode_asdu {rtu : Rtu} (haddr : rtu.commonAddr < 65536) {typeId : UInt8}
    (htype : typeId ∈ supportedTypes) {cot : ℕ} (hcot : cot < 256) {objects : List (ℕ × Number)}
    (hioa : ∀ object ∈ objects, object.1 < 2 ^ 24) (hcount : objects.length < 128)
    {bytes : List UInt8} (h : rtu.asdu typeId cot objects = .ok bytes) :
    ∃ a, decodeAsdu bytes = .ok a ∧ a.typeId = typeId ∧ a.cot = cot := by
  obtain ⟨encoded, hencoded, h⟩ := bind_eq_ok.mp h
  injection h with h
  obtain ⟨values, -, hdecoded⟩ := decodeAsdu_encode htype hcot haddr hioa hencoded
    (length_encodeObjects hencoded ▸ hcount)
  exact ⟨_, h ▸ hdecoded, rfl, rfl⟩

section Proper

variable {rtu : Rtu} {measured : ℕ → Number} {request : List UInt8} {d : Asdu}

theorem proper_report (hrequest : decodeAsdu request = .ok d) {a : Asdu} {asdu : List UInt8}
    (hasdu : decodeAsdu asdu = .ok a) (hmonitor : a.typeId ∈ monitorTypes) :
    Proper request asdu := by
  unfold Proper
  simp only [hrequest, hasdu]
  exact Or.inl hmonitor

theorem proper_answer (hrequest : decodeAsdu request = .ok d) {a : Asdu} {asdu : List UInt8}
    (hasdu : decodeAsdu asdu = .ok a) (htype : a.typeId = d.typeId)
    (hcot : a.cot = cotActcon ∨ a.cot = cotActterm ∧ d.typeId = cIcNa1) : Proper request asdu := by
  unfold Proper
  simp only [hrequest, hasdu]
  exact Or.inr ⟨htype, hcot⟩

theorem Rtu.proper_dataset (haddr : rtu.commonAddr < 65536) (hrequest : decodeAsdu request = .ok d)
    {cot : ℕ} (hcot : cot < 256) :
    ∀ x ∈ rtu.dataset measured cot, ∀ asdu, x = .ok asdu → Proper request asdu := by
  rw [dataset, List.forall_mem_cons, List.forall_mem_singleton]
  refine ⟨fun asdu h => ?_, fun asdu h => ?_⟩
  · have hioa : ∀ object ∈ measKeys.map fun entry => (entry.1, measured entry.1),
        object.1 < 2 ^ 24 := by
      simp [measKeys, ioaFreq, ioaPcc, ioaSolar, ioaLoad, ioaVoltage, ioaSetpoint]
    obtain ⟨a, ha, htype, -⟩ := decode_asdu haddr (by decide) hcot hioa (by simp [measKeys]) h
    exact proper_report hrequest ha (htype ▸ by decide)
  · obtain ⟨a, ha, htype, -⟩ := decode_asdu haddr (by decide) hcot
      (by simp [ioaGridConnected]) (by simp) h
    exact proper_report hrequest ha (htype ▸ by decide)

/-- An answer with one object. -/
theorem Rtu.proper_single (haddr : rtu.commonAddr < 65536) (hrequest : decodeAsdu request = .ok d)
    (htype : d.typeId ∈ supportedTypes) {cot ioa : ℕ} {val : Number} (hioa : ioa < 2 ^ 24)
    (hcot : cot = cotActcon ∨ cot = cotActterm ∧ d.typeId = cIcNa1) {asdu : List UInt8}
    (h : rtu.asdu d.typeId cot [(ioa, val)] = .ok asdu) : Proper request asdu := by
  have hlt : cot < 256 := by
    rcases hcot with rfl | ⟨rfl, -⟩ <;> decide
  obtain ⟨a, ha, hsame, rfl⟩ := decode_asdu haddr htype hlt
    (List.forall_mem_singleton.mpr hioa) (by simp) h
  exact proper_answer hrequest ha hsame hcot

/-- The answer to a command repeats its first object. -/
theorem Rtu.proper_echo (haddr : rtu.commonAddr < 65536) (hrequest : decodeAsdu request = .ok d)
    {typeId : UInt8} (htype : d.typeId = typeId) (hsupported : typeId ∈ supportedTypes)
    {ioa : ℕ} {val : Number} {rest : List (ℕ × Number)} (hobjects : d.objects = (ioa, val) :: rest)
    (asdu : List UInt8) (h : rtu.asdu typeId cotActcon [(ioa, val)] = .ok asdu) :
    Proper request asdu := by
  subst typeId
  exact proper_single haddr hrequest hsupported (ioa_lt_of_decodeAsdu hrequest hobjects)
    (Or.inl rfl) h

/-- The answer to an interrogation is the dataset between a confirmation and a
termination. -/
theorem Rtu.proper_interrogation (haddr : rtu.commonAddr < 65536)
    (hrequest : decodeAsdu request = .ok d) (htype : d.typeId = cIcNa1) :
    ∀ x ∈ rtu.asdu cIcNa1 cotActcon [(0, qoiStation)] ::
        (rtu.dataset measured cotInterrogated ++ [rtu.asdu cIcNa1 cotActterm [(0, qoiStation)]]),
      ∀ asdu, x = .ok asdu → Proper request asdu := by
  have hsingle {cot : ℕ} (hcot : cot = cotActcon ∨ cot = cotActterm ∧ d.typeId = cIcNa1)
      (asdu : List UInt8) (h : rtu.asdu cIcNa1 cot [(0, qoiStation)] = .ok asdu) :
      Proper request asdu :=
    proper_single haddr hrequest (htype ▸ by decide) (by decide) hcot (htype ▸ h)
  rw [List.forall_mem_cons, List.forall_mem_append, List.forall_mem_singleton]
  exact ⟨hsingle (Or.inl rfl), proper_dataset haddr hrequest (by decide),
    hsingle (Or.inr ⟨rfl, htype⟩)⟩

/-- The simulated station sends only what a station may send. -/
theorem Rtu.proper (haddr : rtu.commonAddr < 65536) (measured : ℕ → Number)
    (request : List UInt8) :
    ∀ asdu ∈ sentBefore (rtu.onAsdu measured request).1, Proper request asdu := by
  refine forall_mem_sentBefore ?_
  unfold Rtu.onAsdu
  split
  · exact nofun
  · rename_i d hrequest
    split
    · rename_i htype
      exact proper_interrogation haddr hrequest htype
    · split
      · rename_i htype
        split
        · exact List.forall_mem_singleton.mpr nofun
        · rename_i ioa val _ hobjects
          -- the address stays what it was, whether the breaker is moved or not
          have hnext (gridConnected : Bool) : (if ioa = ioaBreaker then
              { rtu with gridConnected := gridConnected } else rtu).commonAddr < 65536 := by
            split <;> exact haddr
          dsimp only
          rw [List.forall_mem_cons]
          exact ⟨proper_echo (hnext _) hrequest htype (by decide) hobjects,
            proper_dataset (hnext _) hrequest (by decide)⟩
      · split
        · rename_i htype
          split
          · exact List.forall_mem_singleton.mpr nofun
          · rename_i ioa val _ hobjects
            have hnext : (if ioa = ioaCmdSetpoint then
                { rtu with setpointKw := val } else rtu).commonAddr < 65536 := by
              split <;> exact haddr
            dsimp only
            rw [List.forall_mem_singleton]
            exact proper_echo hnext hrequest htype (by decide) hobjects
        · exact nofun

end Proper

end DiepLab.Microgrid
