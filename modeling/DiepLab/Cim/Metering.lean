import DiepLab.Cim.Identifiers
import DiepLab.Library.Grouping
import DiepLab.Library.Table
import Mathlib.Data.List.Sort

/-!
Usage points.

The service points of a tenant are grouped by their node and meter, and a group
is one usage point; a service point with neither is a group of its own. A device
that no service point names as its meter is a usage point as well. The groups
are told apart by node and meter, the usage points by the meter alone where
there is one, so that two groups can come out under one name
(`nodup_names_iff`).
-/

namespace DiepLab.Cim

open Grouping

/-! ### The tables -/

structure ServicePoint where
  servicePointId : String
  customerId : Option String := none
  nodeId : Option String := none
  meterDeviceId : Option String := none
  tenantId : String := "default"
  deriving DecidableEq, Repr

structure Device where
  deviceId : String
  tenantId : String := "default"
  deriving DecidableEq, Repr

structure GridNode where
  nodeId : String
  tenantId : String := "default"
  deriving DecidableEq, Repr

structure GridEdge where
  edgeId : String
  fromNode : String
  toNode : String
  tenantId : String := "default"
  deriving DecidableEq, Repr

/-- The tables, with their primary keys and the references between them. -/
structure CimDb where
  servicePoints : Table ServicePoint.servicePointId := {}
  devices : Table Device.deviceId := {}
  gridNodes : Table GridNode.nodeId := {}
  gridEdges : Table GridEdge.edgeId := {}
  nodeExists : ∀ sp ∈ servicePoints.rows, ∀ node ∈ sp.nodeId,
    node ∈ gridNodes.rows.map GridNode.nodeId := by decide
  meterExists : ∀ sp ∈ servicePoints.rows, ∀ meter ∈ sp.meterDeviceId,
    meter ∈ devices.rows.map Device.deviceId := by decide
  endsExist : ∀ e ∈ gridEdges.rows, e.fromNode ∈ gridNodes.rows.map GridNode.nodeId ∧
    e.toNode ∈ gridNodes.rows.map GridNode.nodeId := by decide

/-- A condition of `build_filter`, which is left out for None. -/
def passes (filter : Option String) (value : String) : Bool :=
  filter.all fun wanted => value = wanted

/-- `ORDER BY`, in the order of the collation. -/
def orderBy {Row : Type} (collate : String → String → Bool) (column : Row → String)
    (rows : List Row) : List Row :=
  rows.insertionSort fun a b => collate (column a) (column b)

/-- `points[offset:offset + limit]`. -/
def page {α : Type} (limit offset : ℕ) (xs : List α) : List α := (xs.drop offset).take limit

/-! ### Groups -/

/-- The key of `_group_service_points`. -/
def ServicePoint.groupKey (sp : ServicePoint) : Option String × Option String :=
  match sp.nodeId, sp.meterDeviceId with
  | none, none => (some "sp", some sp.servicePointId)
  | node, meter => (node, meter)

structure UsageGroup where
  nodeId : Option String
  meterDeviceId : Option String
  tenantId : String
  customerIds : List String
  deriving DecidableEq, Repr

def beginGroup (sp : ServicePoint) : UsageGroup :=
  ⟨sp.nodeId, sp.meterDeviceId, sp.tenantId, []⟩

def addCustomer (g : UsageGroup) (sp : ServicePoint) : UsageGroup :=
  match given sp.customerId with
  | some customer => { g with customerIds := g.customerIds ++ [customer] }
  | none => g

section Queries

variable (uuid5 : String → String) (collate : String → String → Bool) (db : CimDb)
  (tenant : Option String)

def tenantServicePoints : List ServicePoint :=
  orderBy collate ServicePoint.servicePointId
    (db.servicePoints.rows.filter fun sp => passes tenant sp.tenantId)

/-- `_group_service_points`. -/
def groupServicePoints : List UsageGroup :=
  (group ServicePoint.groupKey beginGroup addCustomer
    (tenantServicePoints collate db tenant)).map Prod.snd

structure UsagePoint where
  mRID : String
  name : String
  nodeId : Option String := none
  meterDeviceId : Option String := none
  customerIds : List String := []
  tenantId : String
  synthesized : Bool
  deriving DecidableEq, Repr

/-- `_usage_point_from_group`. -/
def usagePointFromGroup (g : UsageGroup) : UsagePoint :=
  let upId := usagePointId g.nodeId g.meterDeviceId
  { mRID := mridFor uuid5 ["UsagePoint", upId]
    name := upId
    nodeId := g.nodeId
    meterDeviceId := g.meterDeviceId
    customerIds := g.customerIds.map fun customer => mridFor uuid5 ["Customer", customer]
    tenantId := g.tenantId
    synthesized := false }

/-- `_usage_point_fallback_devices`: the devices of the tenant that no service point
names as its meter. -/
def usagePointFallbackDevices : List Device :=
  orderBy collate Device.deviceId (db.devices.rows.filter fun d =>
    (db.servicePoints.rows.all fun sp => sp.meterDeviceId ≠ some d.deviceId) &&
      passes tenant d.tenantId)

/-- `_usage_point_from_fallback_device`. -/
def usagePointFromFallbackDevice (d : Device) : UsagePoint :=
  let upId := usagePointId none (some d.deviceId)
  { mRID := mridFor uuid5 ["UsagePoint", upId]
    name := upId
    meterDeviceId := some d.deviceId
    tenantId := d.tenantId
    synthesized := true }

/-- `points`, before the page is cut out. -/
def usagePoints : List UsagePoint :=
  (groupServicePoints collate db tenant).map (usagePointFromGroup uuid5) ++
    (usagePointFallbackDevices collate db tenant).map (usagePointFromFallbackDevice uuid5)

def listUsagePoints (limit offset : ℕ) : List UsagePoint :=
  page limit offset (usagePoints uuid5 collate db tenant)

end Queries

/-! ### Pages -/

theorem nodup_pages_iff {α : Type} (f : α → String) (xs : List α) :
    (∀ limit offset, ((page limit offset xs).map f).Nodup) ↔ (xs.map f).Nodup := by
  constructor
  · intro h
    have hall := h xs.length 0
    rwa [page, List.drop_zero, List.take_length] at hall
  · intro h limit offset
    have hsub := (List.take_sublist limit (xs.drop offset)).trans (List.drop_sublist offset xs)
    exact h.sublist (hsub.map f)

theorem mem_orderBy {Row : Type} {collate : String → String → Bool} {column : Row → String}
    {rows : List Row} {row : Row} : row ∈ orderBy collate column rows ↔ row ∈ rows :=
  List.mem_insertionSort _

theorem nodup_map_orderBy {Row : Type} {collate : String → String → Bool} {column : Row → String}
    {rows : List Row} (h : (rows.map column).Nodup) :
    ((orderBy collate column rows).map column).Nodup :=
  ((List.perm_insertionSort _ rows).map column).nodup_iff.mpr h

/-! ### What the groups are -/

section Groups

variable {collate : String → String → Bool} {db : CimDb} {tenant : Option String}

theorem nodup_tenantServicePoints : (tenantServicePoints collate db tenant).Nodup :=
  (nodup_map_orderBy (db.servicePoints.unique.sublist (List.filter_sublist.map _))).of_map _

/-- The service points that begin the groups. -/
def firstServicePoints (collate : String → String → Bool) (db : CimDb) (tenant : Option String) :
    List ServicePoint :=
  leaders ServicePoint.groupKey (tenantServicePoints collate db tenant)

theorem foldl_addCustomer (g : UsageGroup) (sps : List ServicePoint) :
    sps.foldl addCustomer g =
      { g with customerIds :=
          g.customerIds ++ sps.filterMap fun sp => given sp.customerId } := by
  induction sps generalizing g with
  | nil => rw [List.foldl_nil, List.filterMap_nil, List.append_nil]
  | cons sp sps ih =>
      rw [List.foldl_cons, ih, addCustomer, List.filterMap_cons]
      cases given sp.customerId with
      | none => rfl
      | some customer => simp

/-- The service points of the group that one begins. -/
def members (collate : String → String → Bool) (db : CimDb) (tenant : Option String)
    (first : ServicePoint) : List ServicePoint :=
  (tenantServicePoints collate db tenant).filter fun sp => sp.groupKey = first.groupKey

theorem groupServicePoints_eq :
    groupServicePoints collate db tenant = (firstServicePoints collate db tenant).map fun first =>
      { beginGroup first with customerIds :=
          (members collate db tenant first).filterMap fun sp => given sp.customerId } := by
  rw [groupServicePoints, group_eq, List.map_map]
  refine List.map_congr_left fun first _ => ?_
  rw [Function.comp_apply, foldl_addCustomer]
  rfl

theorem mem_members_self {first : ServicePoint} (h : first ∈ firstServicePoints collate db tenant) :
    first ∈ members collate db tenant first :=
  List.mem_filter.mpr ⟨mem_of_mem_leaders h, decide_eq_true rfl⟩

theorem nodup_firstServicePoints : (firstServicePoints collate db tenant).Nodup :=
  (nodup_map_leaders _).of_map _

/-- The groups share out the service points. -/
theorem flatten_members :
    ((firstServicePoints collate db tenant).map (members collate db tenant)).flatten.Perm
      (tenantServicePoints collate db tenant) := by
  refine (List.perm_ext_iff_of_nodup ?_ nodup_tenantServicePoints).mpr fun sp => ?_
  · refine List.nodup_flatten.mpr ⟨fun part hpart => ?_, ?_⟩
    · obtain ⟨first, -, rfl⟩ := List.mem_map.mp hpart
      exact nodup_tenantServicePoints.filter _
    · refine List.pairwise_map.mpr (List.Pairwise.imp_of_mem (fun {l l'} hl hl' hne => ?_)
        nodup_firstServicePoints)
      intro sp hsp hsp'
      have hkey : l.groupKey = l'.groupKey :=
        (of_decide_eq_true (List.mem_filter.mp hsp).2).symm.trans
          (of_decide_eq_true (List.mem_filter.mp hsp').2)
      exact hne (leader_eq hl hl' hkey)
  · rw [List.mem_flatten]
    constructor
    · rintro ⟨part, hpart, hsp⟩
      obtain ⟨first, -, rfl⟩ := List.mem_map.mp hpart
      exact List.mem_of_mem_filter hsp
    · intro hsp
      obtain ⟨first, hfirst, hkey⟩ := exists_leader ServicePoint.groupKey hsp
      refine ⟨_, List.mem_map_of_mem hfirst, List.mem_filter.mpr ⟨hsp, ?_⟩⟩
      exact decide_eq_true hkey.symm

end Groups

/-! ### Names -/

/-- A default that stands for the missing words. -/
theorem nodup_getD_iff {words : List (Option String)} {default : String} :
    (words.map fun word => word.getD default).Nodup ↔
      words.Nodup ∧ (none ∈ words → some default ∉ words) := by
  constructor
  · intro h
    refine ⟨h.of_map _, fun hnone hsome => ?_⟩
    exact nomatch List.inj_on_of_nodup_map h hnone hsome rfl
  · rintro ⟨hnodup, hdefault⟩
    refine (List.nodup_map_iff_inj_on hnodup).mpr fun word hword word' hword' heq => ?_
    cases word with
    | none =>
        cases word' with
        | none => rfl
        | some w =>
            have hw : w = default := heq.symm
            exact absurd (hw ▸ hword') (hdefault hword)
    | some w =>
        cases word' with
        | none =>
            have hw : w = default := heq
            exact absurd (hw ▸ hword) (hdefault hword')
        | some w' => exact congrArg some heq

theorem given_some_inj {s s' : String} (h : given (some s) = given (some s')) : s = s' := by
  have hgiven : (if s = "" then none else some s) = if s' = "" then none else some s' := h
  split at hgiven <;> rename_i hs <;> split at hgiven <;> rename_i hs'
  · exact hs.trans hs'.symm
  · exact nomatch hgiven
  · exact nomatch hgiven
  · exact Option.some.inj hgiven

def ServicePoint.word (sp : ServicePoint) : Option String := usageWord sp.nodeId sp.meterDeviceId

def Device.word (d : Device) : Option String := usageWord none (some d.deviceId)

/-- No two groups or devices come to the same name: the first service points of the
groups have different words, none is that of a device without a service point,
and none is the one that stands for no word if there is one with none. -/
structure TellsApart (collate : String → String → Bool) (db : CimDb) (tenant : Option String) :
    Prop where
  groups : ∀ sp ∈ firstServicePoints collate db tenant,
    ∀ sp' ∈ firstServicePoints collate db tenant, sp.word = sp'.word → sp = sp'
  devices : ∀ sp ∈ firstServicePoints collate db tenant,
    ∀ d ∈ usagePointFallbackDevices collate db tenant, sp.word ≠ d.word
  unknown : (∃ sp ∈ firstServicePoints collate db tenant, sp.word = none) ∨
      (∃ d ∈ usagePointFallbackDevices collate db tenant, d.word = none) →
    (∀ sp ∈ firstServicePoints collate db tenant, sp.word ≠ some "unknown") ∧
      ∀ d ∈ usagePointFallbackDevices collate db tenant, d.word ≠ some "unknown"

section Names

variable {uuid5 : String → String} {collate : String → String → Bool} {db : CimDb}
  {tenant : Option String}

/-- The words of the usage points. -/
def words (collate : String → String → Bool) (db : CimDb) (tenant : Option String) :
    List (Option String) :=
  (firstServicePoints collate db tenant).map ServicePoint.word ++
    (usagePointFallbackDevices collate db tenant).map Device.word

theorem mem_words {word : Option String} :
    word ∈ words collate db tenant ↔
      (∃ sp ∈ firstServicePoints collate db tenant, sp.word = word) ∨
        ∃ d ∈ usagePointFallbackDevices collate db tenant, d.word = word := by
  rw [words, List.mem_append, List.mem_map, List.mem_map]

theorem map_mRID_usagePoints :
    (usagePoints uuid5 collate db tenant).map UsagePoint.mRID =
      (((words collate db tenant).map fun word => word.getD "unknown").map ("UP-" ++ ·)).map
        fun name => mridFor uuid5 ["UsagePoint", name] := by
  rw [usagePoints, groupServicePoints_eq, words]
  simp only [List.map_append, List.map_map]
  rfl

theorem nodup_words_iff :
    (words collate db tenant).Nodup ↔
      (∀ sp ∈ firstServicePoints collate db tenant,
        ∀ sp' ∈ firstServicePoints collate db tenant, sp.word = sp'.word → sp = sp') ∧
      ∀ sp ∈ firstServicePoints collate db tenant,
        ∀ d ∈ usagePointFallbackDevices collate db tenant, sp.word ≠ d.word := by
  have hdevices : ((usagePointFallbackDevices collate db tenant).map Device.word).Nodup := by
    have hids : ((usagePointFallbackDevices collate db tenant).map Device.deviceId).Nodup :=
      nodup_map_orderBy (db.devices.unique.sublist (List.filter_sublist.map _))
    refine (List.nodup_map_iff_inj_on (hids.of_map _)).mpr fun d hd d' hd' heq => ?_
    refine List.inj_on_of_nodup_map hids hd hd' (given_some_inj ?_)
    simpa [Device.word, usageWord, given] using heq
  rw [words, List.nodup_append, List.nodup_map_iff_inj_on nodup_firstServicePoints]
  constructor
  · rintro ⟨hgroups, -, happart⟩
    exact ⟨hgroups, fun sp hsp d hd =>
      happart _ (List.mem_map_of_mem hsp) _ (List.mem_map_of_mem hd)⟩
  · rintro ⟨hgroups, happart⟩
    refine ⟨hgroups, hdevices, fun word hword word' hword' => ?_⟩
    obtain ⟨sp, hsp, rfl⟩ := List.mem_map.mp hword
    obtain ⟨d, hd, rfl⟩ := List.mem_map.mp hword'
    exact happart sp hsp d hd

/-- The usage points of a tenant have different mRIDs exactly if their groups and
devices are told apart. -/
theorem nodup_usagePoints_iff (huuid : Function.Injective uuid5) :
    ((usagePoints uuid5 collate db tenant).map UsagePoint.mRID).Nodup ↔
      TellsApart collate db tenant := by
  have hup : Function.Injective fun word : String => "UP-" ++ word :=
    fun _ _ h => (String.append_right_inj _).mp h
  rw [map_mRID_usagePoints, nodup_mrids_iff huuid, List.nodup_map_iff hup, nodup_getD_iff,
    nodup_words_iff, mem_words, mem_words, not_or]
  simp only [not_exists, not_and]
  constructor
  · rintro ⟨⟨hgroups, hdevices⟩, hunknown⟩
    exact ⟨hgroups, hdevices, hunknown⟩
  · rintro ⟨hgroups, hdevices, hunknown⟩
    exact ⟨⟨hgroups, hdevices⟩, hunknown⟩

end Names

end DiepLab.Cim
