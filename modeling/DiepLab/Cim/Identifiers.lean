import DiepLab.Common
import Mathlib.Data.List.Nodup

/-!
The identifiers of CIM objects.

An mRID is `uuid5` of a key, and the key is the kind of the object and its name,
joined by a slash. So with an injective `uuid5` the mRIDs of one kind are
distinct exactly if the names are (`nodup_mrids_iff`).
-/

namespace DiepLab.Cim

/-- `mrid_for`; `uuid5` is that of the one namespace of the platform, as a text. -/
def mridFor (uuid5 : String → String) (parts : List String) : String :=
  uuid5 ("/".intercalate parts)

/-- Two terminals per edge; the sequence number is 1 or 2. -/
def terminalId (edgeId : String) (sequenceNumber : ℕ) : String :=
  edgeId ++ "-T" ++ toString sequenceNumber

/-- One terminal for a node with no edges. -/
def leafTerminalId (nodeId : String) : String := nodeId ++ "-T1"

/-- `meter_device_id or node_id`. -/
def usageWord (nodeId meterDeviceId : Option String) : Option String :=
  (given meterDeviceId).or (given nodeId)

def usagePointId (nodeId meterDeviceId : Option String) : String :=
  "UP-" ++ (usageWord nodeId meterDeviceId).getD "unknown"

theorem mridFor_inj {uuid5 : String → String} (huuid : Function.Injective uuid5)
    {kind name name' : String} :
    mridFor uuid5 [kind, name] = mridFor uuid5 [kind, name'] ↔ name = name' := by
  refine ⟨fun h => ?_, fun h => h ▸ rfl⟩
  have hkey : kind ++ "/" ++ name = kind ++ "/" ++ name' := huuid h
  exact (String.append_right_inj _).mp hkey

theorem nodup_mrids_iff {uuid5 : String → String} (huuid : Function.Injective uuid5)
    (kind : String) (names : List String) :
    (names.map fun name => mridFor uuid5 [kind, name]).Nodup ↔ names.Nodup :=
  List.nodup_map_iff fun _ _ h => (mridFor_inj huuid).mp h

theorem terminalId_inj {edgeId edgeId' : String} {i j : ℕ}
    (hlength : (toString i).toList.length = (toString j).toList.length)
    (h : terminalId edgeId i = terminalId edgeId' j) :
    edgeId = edgeId' ∧ toString i = toString j := by
  have hlist := congrArg String.toList h
  rw [terminalId, terminalId, String.toList_append, String.toList_append, String.toList_append,
    String.toList_append] at hlist
  obtain ⟨hname, hnumber⟩ := List.append_inj' hlist hlength
  obtain ⟨hedge, -⟩ := List.append_inj' hname rfl
  exact ⟨String.toList_inj.mp hedge, String.toList_inj.mp hnumber⟩

theorem terminalId_first_inj {edgeId edgeId' : String} :
    terminalId edgeId 1 = terminalId edgeId' 1 ↔ edgeId = edgeId' :=
  ⟨fun h => (terminalId_inj rfl h).1, fun h => h ▸ rfl⟩

theorem terminalId_second_inj {edgeId edgeId' : String} :
    terminalId edgeId 2 = terminalId edgeId' 2 ↔ edgeId = edgeId' :=
  ⟨fun h => (terminalId_inj rfl h).1, fun h => h ▸ rfl⟩

theorem terminalId_ne {edgeId edgeId' : String} : terminalId edgeId 1 ≠ terminalId edgeId' 2 := by
  intro h
  have hone : toString 1 = toString 2 := (terminalId_inj (i := 1) (j := 2) rfl h).2
  exact absurd hone (by decide)

/-- The terminal of a node has the name that the first terminal of an edge of this
id would have. -/
theorem leafTerminalId_eq (nodeId : String) : leafTerminalId nodeId = terminalId nodeId 1 := by
  have hone : toString 1 = "1" := rfl
  rw [leafTerminalId, terminalId, hone, String.append_assoc]
  rfl

end DiepLab.Cim
