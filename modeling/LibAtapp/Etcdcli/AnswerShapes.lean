import LibAtapp.Etcdcli.Cluster

set_option autoImplicit false

/-! # Answers of the wrong shape

Every body that parses to an object is read by the callbacks. Some of the accessors are guarded by a
test of the type and others are not. This file has the callbacks that read a value, a list of
members and a lease, and says for all five kinds of answers exactly which shapes are read without
applying an accessor to a value of another type. -/

namespace LibAtapp

/-! ## Reading the answers -/

namespace Json

/-- `GetString` with `GetStringLength`. They assert a string. -/
def getString : Json → Option Bytes
  | string s => some s
  | _ => none

/-- `GetArray`. It asserts an array. -/
def getArray : Json → Option (List Json)
  | array items => some items
  | _ => none

end Json

namespace EtcdKeepalive

/-- The part of `libcurl_callback_on_get_data` that reads the value of the key. `none` inside is an
    answer that says it has keys, but has no array of them. -/
def unpackValueContent (codec : TextCodec) (root : Json) : Option (Option Bytes) := do
  let count ← EtcdPacker.unpackInt64 codec root (ascii "count") 0
  if count > 0 then
    match ← root.findMember (ascii "kvs") with
    | some (.array allKvs) =>
      match allKvs with
      | [] => return some []
      | first :: _ => return some (← EtcdPacker.unpackKeyValue codec {} first).value
    | _ => return none
  else return some []

/-- `libcurl_callback_on_get_data` for an answer that parses, up to the next request. The flag says
    that the keepalive is queued for a retry instead. -/
def onGetData (codec : TextCodec) (check : Bytes → Bool) (self : EtcdKeepalive) (root : Json) :
    Option (EtcdKeepalive × Bool) := do
  match ← unpackValueContent codec root with
  | none => return (self, true)
  | some valueContent =>
    let isCheckPassed := !self.checker || check valueContent
    return ({ self with isCheckRun := true, isCheckPassed }, false)

end EtcdKeepalive

namespace EtcdCluster

/-- The urls of one member. -/
def unpackClientUrls (member : Json) : Option (List Bytes) := do
  match ← member.findMember (ascii "clientURLs") with
  | none => return []
  | some clientUrls =>
    let urls ← (← clientUrls.getArray).mapM Json.getString
    return (urls.filter (· ≠ [])).map cString

/-- `libcurl_callback_on_member_update` for an answer that parses, up to the next `tick`. Without
    an array of members nothing changes. -/
def onMemberUpdate (self : EtcdCluster) (now : Int) (draw : Nat) (doc : Json) :
    Option EtcdCluster := do
  match ← doc.findMember (ascii "members") with
  | some (.array allMembers) =>
    let hosts := (← allMembers.mapM unpackClientUrls).flatten
    let self := { self with conf := { self.conf with hosts } }
    let self := if self.conf.pathNode ∈ hosts then self else self.selectClusterMember draw
    let interval :=
      if self.conf.etcdMembersUpdateInterval ≤ 0 then 60000 else self.conf.etcdMembersUpdateInterval
    return { self with conf := { self.conf with etcdMembersNextUpdateTime := now + interval } }
  | _ => return self

/-- What `libcurl_callback_on_lease_keepalive` finds in an answer. -/
inductive LeaseAnswer where
  | grantFailed
  /-- The lease is gone, and another is asked for. -/
  | notFound
  | withoutId
  | lease (newLease : Int) (isGrant : Bool)
  deriving DecidableEq, Repr

/-- The part of `libcurl_callback_on_lease_keepalive` that reads an answer. -/
def unpackLease (codec : TextCodec) (doc : Json) : Option LeaseAnswer := do
  let result ← doc.findMember (ascii "result")
  let isGrant := result.isNone
  let root := result.getD doc
  match ← root.findMember (ascii "TTL") with
  | none => return if isGrant then .grantFailed else .notFound
  | some _ =>
    let newLease ← EtcdPacker.unpackInt64 codec root (ascii "ID") 0
    return if newLease = 0 then .withoutId else .lease newLease isGrant

end EtcdCluster

/-! ## Shapes -/

namespace Json

def IsObject : Json → Prop
  | object _ => True
  | _ => False

/-- A member of an object. -/
def member? (json : Json) (name : Bytes) : Option Json :=
  match json with
  | object members => members.lookup name
  | _ => none

/-- A member is an object, if there is one. -/
def ObjectMember (json : Json) (name : Bytes) : Prop :=
  ∀ value, json.member? name = some value → value.IsObject

/-- The elements of a member, if it is an array. -/
def ElementsAre (shape : Json → Prop) (json : Json) (name : Bytes) : Prop :=
  ∀ items, json.member? name = some (array items) → ∀ item ∈ items, shape item

/-- The number that a member is read as: a number, or a text of one. -/
def intMember (codec : TextCodec) (json : Json) (name : Bytes) : Int :=
  match json.member? name with
  | none => 0
  | some value =>
    match value.int64?, value.string? with
    | some n, _ => n
    | none, some text => codec.str2int64 0 text
    | none, none => 0

theorem findMember_eq_none_iff {json : Json} {name : Bytes} :
    json.findMember name = none ↔ ¬ json.IsObject := by
  cases json <;> simp [findMember, IsObject]

theorem findMember_of_isObject {json : Json} (h : json.IsObject) (name : Bytes) :
    json.findMember name = some (json.member? name) := by
  cases json with
  | object members => rfl
  | _ => exact h.elim

end Json

/-! ## The reading functions -/

namespace EtcdPacker

theorem isObject_of_parseObject {codec : TextCodec} {content : Bytes} {doc : Json}
    (h : parseObject codec content = some doc) : doc.IsObject := by
  unfold parseObject at h
  split at h
  · cases h
    trivial
  · cases h

variable (codec : TextCodec)

/-- A function of a member is not defined only where there are no members. -/
theorem bind_findMember_isSome {α : Type} {json : Json} {name : Bytes} {f : Option Json → Option α}
    (hf : ∀ value, (f value).isSome) :
    ((json.findMember name).bind f).isSome ↔ json.IsObject := by
  cases json <;> simp [Json.findMember, Json.IsObject, hf]

theorem unpackInt64Field_isSome (json : Json) (name : Bytes) (out : Int) :
    (unpackInt64Field codec json name out).isSome ↔ json.IsObject :=
  bind_findMember_isSome fun value => by
    cases value with
    | none => rfl
    | some value => dsimp only; split <;> rfl

theorem unpackUint64Field_isSome (json : Json) (name : Bytes) (out : Nat) :
    (unpackUint64Field codec json name out).isSome ↔ json.IsObject :=
  bind_findMember_isSome fun value => by
    cases value with
    | none => rfl
    | some value => dsimp only; split <;> rfl

theorem unpackInt64_isSome (json : Json) (name : Bytes) (out : Int) :
    (unpackInt64 codec json name out).isSome ↔ json.IsObject :=
  bind_findMember_isSome fun value => by
    cases value with
    | none => rfl
    | some value => dsimp only; split <;> rfl

theorem unpackUint64_isSome (json : Json) (name : Bytes) (out : Nat) :
    (unpackUint64 codec json name out).isSome ↔ json.IsObject :=
  bind_findMember_isSome fun value => by
    cases value with
    | none => rfl
    | some value => dsimp only; split <;> rfl

theorem unpackBool_isSome (json : Json) (name : Bytes) (out : Bool) :
    (unpackBool codec json name out).isSome ↔ json.IsObject :=
  bind_findMember_isSome fun value => by
    cases value with
    | none => rfl
    | some value => dsimp only; split <;> rfl

theorem unpackBase64_isSome (json : Json) (name out : Bytes) :
    (unpackBase64 codec json name out).isSome ↔ json.IsObject :=
  bind_findMember_isSome fun value => by
    cases value with
    | none => rfl
    | some value => dsimp only; split <;> rfl

/-- Where a function is defined for the objects only, a sequence that begins with it is. -/
theorem bind_isSome_of_isObject {α β : Type} {json : Json} {o : Option α} {f : α → Option β}
    (ho : o.isSome ↔ json.IsObject) (hf : json.IsObject → ∀ a, (f a).isSome) :
    (o.bind f).isSome ↔ json.IsObject := by
  cases o with
  | none => exact ho
  | some a => exact ⟨fun _ => ho.1 rfl, fun h => hf h a⟩

theorem unpackKeyValue_isSome (kv : EtcdKeyValue) (json : Json) :
    (unpackKeyValue codec kv json).isSome ↔ json.IsObject := by
  refine bind_isSome_of_isObject (unpackInt64Field_isSome codec _ _ _) fun h _ => ?_
  refine (bind_isSome_of_isObject (unpackInt64Field_isSome codec _ _ _) fun h _ => ?_).2 h
  refine (bind_isSome_of_isObject (unpackInt64Field_isSome codec _ _ _) fun h _ => ?_).2 h
  refine (bind_isSome_of_isObject (unpackInt64Field_isSome codec _ _ _) fun h _ => ?_).2 h
  refine (bind_isSome_of_isObject (unpackBase64_isSome codec _ _ _) fun h _ => ?_).2 h
  exact (bind_isSome_of_isObject (unpackBase64_isSome codec _ _ _) fun _ _ => rfl).2 h

theorem unpackHeader_isSome (header : EtcdResponseHeader) (json : Json) :
    (unpackHeader codec header json).isSome ↔ json.IsObject := by
  refine bind_isSome_of_isObject (unpackUint64Field_isSome codec _ _ _) fun h _ => ?_
  refine (bind_isSome_of_isObject (unpackUint64Field_isSome codec _ _ _) fun h _ => ?_).2 h
  refine (bind_isSome_of_isObject (unpackInt64Field_isSome codec _ _ _) fun h _ => ?_).2 h
  exact (bind_isSome_of_isObject (unpackUint64Field_isSome codec _ _ _) fun _ _ => rfl).2 h

theorem unpackKeyValueMember_isSome {json : Json} (h : json.IsObject) (name : Bytes) :
    (unpackKeyValueMember codec json name).isSome ↔ json.ObjectMember name := by
  unfold unpackKeyValueMember Json.ObjectMember
  rw [Json.findMember_of_isObject h]
  cases hvalue : json.member? name with
  | none => simp
  | some value => simpa using unpackKeyValue_isSome codec {} value

theorem unpackHeaderMember_isSome {json : Json} (h : json.IsObject) :
    (unpackHeaderMember codec json).isSome ↔ json.ObjectMember (ascii "header") := by
  unfold unpackHeaderMember Json.ObjectMember
  rw [Json.findMember_of_isObject h]
  cases hvalue : json.member? (ascii "header") with
  | none => simp
  | some value => simpa [Option.isSome_bind] using unpackHeader_isSome codec {} value

theorem unpackEvtType_isSome (json : Json) :
    (unpackEvtType codec json).isSome ↔ json.IsObject := by
  unfold unpackEvtType
  refine ⟨fun hsome => ?_, fun h => ?_⟩
  · by_contra hnot
    rw [Json.findMember_eq_none_iff.2 hnot] at hsome
    cases hsome
  · obtain ⟨n, hn⟩ := Option.isSome_iff_exists.1
      ((unpackUint64_isSome codec json (ascii "type") 0).2 h)
    rw [Json.findMember_of_isObject h]
    cases json.member? (ascii "type") with
    | none => rfl
    | some value =>
      cases htext : value.string? with
      | some text => simp [htext]
      | none => by_cases hnumber : value.isNumber <;> simp [htext, hnumber, hn]

/-- The shape of an event. -/
def EventShaped (event : Json) : Prop :=
  event.IsObject ∧ event.ObjectMember (ascii "kv") ∧ event.ObjectMember (ascii "prev_kv")

theorem unpackWatchEvent_isSome (event : Json) :
    (unpackWatchEvent codec event).isSome ↔ EventShaped event := by
  by_cases h : event.IsObject
  · obtain ⟨evtType, htype⟩ := Option.isSome_iff_exists.1 ((unpackEvtType_isSome codec event).2 h)
    have hkv := unpackKeyValueMember_isSome codec h (ascii "kv")
    have hprev := unpackKeyValueMember_isSome codec h (ascii "prev_kv")
    unfold unpackWatchEvent EventShaped
    rw [htype, ← hkv, ← hprev]
    cases unpackKeyValueMember codec event (ascii "kv") <;>
      cases unpackKeyValueMember codec event (ascii "prev_kv") <;> simp [h]
  · refine ⟨fun hsome => ?_, fun hshaped => absurd hshaped.1 h⟩
    have hnone := Option.not_isSome_iff_eq_none.1 (mt (unpackEvtType_isSome codec event).1 h)
    unfold unpackWatchEvent at hsome
    rw [hnone] at hsome
    cases hsome

/-- A list is read where each of its elements is. -/
theorem mapM_isSome {α β : Type} (f : α → Option β) (l : List α) :
    (l.mapM f).isSome ↔ ∀ a ∈ l, (f a).isSome := by
  induction l with
  | nil => simp
  | cons a l ih =>
    rw [List.mapM_cons, List.forall_mem_cons, ← ih]
    cases f a with
    | none => simp
    | some b => cases l.mapM f <;> simp

theorem unpackArray_mapM_isSome {α : Type} {json : Json} (h : json.IsObject) (name : Bytes)
    {f : Json → Option α} {shape : Json → Prop} (hf : ∀ item, (f item).isSome ↔ shape item) :
    ((unpackArray json name).bind fun items => items.mapM f).isSome ↔
      json.ElementsAre shape name := by
  unfold unpackArray Json.ElementsAre
  rw [Json.findMember_of_isObject h]
  cases hvalue : json.member? name with
  | none => simp
  | some value =>
    cases value with
    | array items => simp [mapM_isSome, hf]
    | _ => simp

theorem unpackInt64Field_zero {json : Json} (h : json.IsObject) (name : Bytes) :
    unpackInt64Field codec json name 0 = some (json.intMember codec name) := by
  unfold unpackInt64Field Json.intMember
  rw [Json.findMember_of_isObject h]
  cases json.member? name with
  | none => rfl
  | some value =>
    dsimp only [Option.bind_eq_bind, Option.bind_some]
    cases value.int64? <;> cases value.string? <;> rfl

theorem unpackInt64_zero {json : Json} (h : json.IsObject) (name : Bytes) :
    unpackInt64 codec json name 0 = some (json.intMember codec name) := by
  unfold unpackInt64 Json.intMember
  rw [Json.findMember_of_isObject h]
  cases json.member? name with
  | none => rfl
  | some value =>
    dsimp only [Option.bind_eq_bind, Option.bind_some]
    cases value.int64? <;> cases value.string? <;> rfl

/-! ## The callbacks -/

/-- The shape of a range answer: what it has for a header is an object, and with a revision its
    keys are objects. -/
def RangeShaped (doc : Json) : Prop :=
  doc.ObjectMember (ascii "header") ∧
    ((∃ header, doc.member? (ascii "header") = some header ∧
        header.intMember codec (ascii "revision") ≠ 0) →
      doc.ElementsAre Json.IsObject (ascii "kvs"))

theorem unpackHeader_revision {json : Json} (h : json.IsObject) :
    ∃ header, unpackHeader codec {} json = some header ∧
      header.revision = json.intMember codec (ascii "revision") := by
  obtain ⟨clusterId, hcluster⟩ := Option.isSome_iff_exists.1
    ((unpackUint64Field_isSome codec json (ascii "cluster_id") 0).2 h)
  obtain ⟨memberId, hmember⟩ := Option.isSome_iff_exists.1
    ((unpackUint64Field_isSome codec json (ascii "member_id") 0).2 h)
  obtain ⟨raftTerm, hterm⟩ := Option.isSome_iff_exists.1
    ((unpackUint64Field_isSome codec json (ascii "raft_term") 0).2 h)
  have hrevision := unpackInt64Field_zero codec h (ascii "revision")
  refine ⟨{ clusterId, memberId, revision := json.intMember codec (ascii "revision"), raftTerm },
    ?_, rfl⟩
  unfold unpackHeader
  dsimp only
  rw [hcluster, hmember, hrevision, hterm]
  rfl

theorem unpackRangeAnswer_isSome {doc : Json} (h : doc.IsObject) :
    (unpackRangeAnswer codec doc).isSome ↔ RangeShaped codec doc := by
  unfold unpackRangeAnswer RangeShaped
  by_cases hheader : doc.ObjectMember (ascii "header")
  · have hkvs := unpackArray_mapM_isSome h (ascii "kvs") (unpackKeyValue_isSome codec {})
    rw [← hkvs]
    unfold unpackHeaderMember
    rw [Json.findMember_of_isObject h]
    cases hvalue : doc.member? (ascii "header") with
    | none => simp [hheader]
    | some value =>
      obtain ⟨header, hunpack, hrevision⟩ := unpackHeader_revision codec (hheader value hvalue)
      by_cases hzero : header.revision = 0
      · simp [hunpack, hzero, ← hrevision, hheader]
      · simp only [hheader, Option.bind_eq_bind, Option.bind_some, hunpack, Option.pure_def,
          Option.getD_some, hzero, if_false, true_and, Option.some.injEq, exists_eq_left', ← hrevision,
          ne_eq, not_false_eq_true, forall_const]
        cases unpackArray doc (ascii "kvs") with
        | none => rfl
        | some items => cases hmap : items.mapM (unpackKeyValue codec {}) <;> simp [hmap]
  · refine ⟨fun hsome => ?_, fun hshaped => absurd hshaped.1 hheader⟩
    have hnone := Option.not_isSome_iff_eq_none.1 (mt (unpackHeaderMember_isSome codec h).1 hheader)
    rw [hnone] at hsome
    cases hsome

/-- The shape of a watch answer: the result is an object, what it has for a header is one, and so
    are its events and their keys. -/
def WatchShaped (doc : Json) : Prop :=
  let result := (doc.member? (ascii "result")).getD doc
  result.IsObject ∧ result.ObjectMember (ascii "header") ∧
    result.ElementsAre EventShaped (ascii "events")

theorem unpackTrunk_isSome (fresh : WatchResponse) {doc : Json} (h : doc.IsObject) :
    (unpackTrunk codec fresh doc).isSome ↔ WatchShaped doc := by
  unfold unpackTrunk WatchShaped
  rw [Json.findMember_of_isObject h]
  dsimp only [Option.bind_eq_bind, Option.bind_some]
  generalize (doc.member? (ascii "result")).getD doc = result
  by_cases hresult : result.IsObject
  · obtain ⟨watchId, hwatch⟩ := Option.isSome_iff_exists.1
      ((unpackInt64_isSome codec result (ascii "watch_id") fresh.watchId).2 hresult)
    obtain ⟨compactRevision, hcompact⟩ := Option.isSome_iff_exists.1
      ((unpackInt64_isSome codec result (ascii "compact_revision") fresh.compactRevision).2 hresult)
    obtain ⟨created, hcreated⟩ := Option.isSome_iff_exists.1
      ((unpackBool_isSome codec result (ascii "created") fresh.created).2 hresult)
    obtain ⟨canceled, hcanceled⟩ := Option.isSome_iff_exists.1
      ((unpackBool_isSome codec result (ascii "canceled") fresh.canceled).2 hresult)
    have hevents := unpackArray_mapM_isSome hresult (ascii "events") (unpackWatchEvent_isSome codec)
    rw [← unpackHeaderMember_isSome codec hresult, ← hevents, hwatch, hcompact, hcreated, hcanceled]
    cases unpackHeaderMember codec result with
    | none => simp
    | some header =>
      cases unpackArray result (ascii "events") with
      | none => simp
      | some items => cases hmap : items.mapM (unpackWatchEvent codec) <;> simp [hresult, hmap]
  · have hnone : unpackHeaderMember codec result = none := by
      unfold unpackHeaderMember
      rw [Json.findMember_eq_none_iff.2 hresult]
      rfl
    rw [hnone]
    simp [hresult]

end EtcdPacker

namespace EtcdKeepalive

/-- The shape of an answer with the value of a key: the first of its keys is an object, where it
    says that it has some. -/
def GetDataShaped (codec : TextCodec) (root : Json) : Prop :=
  root.intMember codec (ascii "count") > 0 →
    ∀ first rest, root.member? (ascii "kvs") = some (.array (first :: rest)) → first.IsObject

theorem unpackValueContent_isSome (codec : TextCodec) {root : Json} (h : root.IsObject) :
    (unpackValueContent codec root).isSome ↔ GetDataShaped codec root := by
  unfold unpackValueContent GetDataShaped
  rw [EtcdPacker.unpackInt64_zero codec h, Json.findMember_of_isObject h]
  dsimp only [Option.bind_eq_bind, Option.bind_some]
  by_cases hcount : root.intMember codec (ascii "count") > 0
  · rw [if_pos hcount]
    cases hkvs : root.member? (ascii "kvs") with
    | none => simp
    | some value =>
      cases value with
      | array allKvs =>
        cases allKvs with
        | nil => simp
        | cons first rest =>
          have hfirst := EtcdPacker.unpackKeyValue_isSome codec {} first
          have hshape : (∀ first' rest', some (Json.array (first :: rest)) =
              some (Json.array (first' :: rest')) → first'.IsObject) ↔ first.IsObject := by
            constructor
            · exact fun hall => hall first rest rfl
            · rintro hfirst _ _ ⟨⟩
              exact hfirst
          rw [hshape, ← hfirst]
          cases hkv : EtcdPacker.unpackKeyValue codec {} first <;> simp [hkv, hcount]
      | _ => simp
  · rw [if_neg hcount]
    exact ⟨fun _ hpos => absurd hpos hcount, fun _ => rfl⟩

theorem onGetData_isSome (codec : TextCodec) (check : Bytes → Bool) (self : EtcdKeepalive)
    {root : Json} (h : root.IsObject) :
    (self.onGetData codec check root).isSome ↔ GetDataShaped codec root := by
  rw [← unpackValueContent_isSome codec h]
  unfold onGetData
  cases unpackValueContent codec root with
  | none => rfl
  | some content => cases content <;> rfl

end EtcdKeepalive

namespace EtcdCluster

/-- The shape of a member: an object, and what it has for urls is an array of texts. -/
def MemberShaped (member : Json) : Prop :=
  member.IsObject ∧ ∀ clientUrls, member.member? (ascii "clientURLs") = some clientUrls →
    ∃ urls, clientUrls = .array urls ∧ ∀ url ∈ urls, ∃ text, url = .string text

theorem unpackClientUrls_isSome (member : Json) :
    (unpackClientUrls member).isSome ↔ MemberShaped member := by
  unfold unpackClientUrls MemberShaped
  by_cases h : member.IsObject
  · rw [Json.findMember_of_isObject h]
    cases hurls : member.member? (ascii "clientURLs") with
    | none => simp [h]
    | some clientUrls =>
      cases clientUrls with
      | array urls =>
        have htext : ∀ url : Json, url.getString.isSome ↔ ∃ text, url = .string text := by
          intro url
          cases url <;> simp [Json.getString]
        have hmap := EtcdPacker.mapM_isSome Json.getString urls
        simp only [htext] at hmap
        cases hread : urls.mapM Json.getString <;> rw [hread] at hmap <;>
          simpa [h, Json.getArray, hread] using hmap
      | _ => simp [Json.getArray]
  · rw [Json.findMember_eq_none_iff.2 h]
    simp [h]

theorem onMemberUpdate_isSome (self : EtcdCluster) (now : Int) (draw : Nat) {doc : Json}
    (h : doc.IsObject) :
    (self.onMemberUpdate now draw doc).isSome ↔ doc.ElementsAre MemberShaped (ascii "members") := by
  unfold onMemberUpdate Json.ElementsAre
  rw [Json.findMember_of_isObject h]
  cases doc.member? (ascii "members") with
  | none => simp
  | some value =>
    cases value with
    | array allMembers =>
      have hmap := EtcdPacker.mapM_isSome unpackClientUrls allMembers
      simp only [unpackClientUrls_isSome] at hmap
      cases hread : allMembers.mapM unpackClientUrls <;> rw [hread] at hmap <;>
        simpa [hread] using hmap
    | _ => simp

theorem unpackLease_isSome (codec : TextCodec) {doc : Json} (h : doc.IsObject) :
    (unpackLease codec doc).isSome ↔ doc.ObjectMember (ascii "result") := by
  unfold unpackLease Json.ObjectMember
  rw [Json.findMember_of_isObject h]
  dsimp only [Option.bind_eq_bind, Option.bind_some]
  have hroot : (∀ value, doc.member? (ascii "result") = some value → value.IsObject) ↔
      ((doc.member? (ascii "result")).getD doc).IsObject := by
    cases doc.member? (ascii "result") with
    | none => simp [h]
    | some value => simp
  rw [hroot]
  generalize (doc.member? (ascii "result")).getD doc = root
  by_cases hobject : root.IsObject
  · rw [Json.findMember_of_isObject hobject, EtcdPacker.unpackInt64_zero codec hobject]
    cases root.member? (ascii "TTL") <;> simp [hobject]
  · rw [Json.findMember_eq_none_iff.2 hobject]
    simp [hobject]

end EtcdCluster

/-! ## All answers -/

/-- The answers that are read. -/
inductive EtcdAnswer where
  | range
  | watch
  | getData
  | memberList
  | lease
  deriving DecidableEq, Repr

/-- What reads the answers. -/
structure AnswerReaders where
  codec : TextCodec
  /-- The indeterminate content of the variable that a watch response is unpacked into. -/
  fresh : WatchResponse := {}
  check : Bytes → Bool := fun _ => true
  keepalive : EtcdKeepalive
  cluster : EtcdCluster := {}
  now : Int := 0
  draw : Nat := 0

namespace EtcdAnswer

/-- An answer is read without a failed assertion. -/
def reads (readers : AnswerReaders) (doc : Json) : EtcdAnswer → Bool
  | range => (EtcdPacker.unpackRangeAnswer readers.codec doc).isSome
  | watch => (EtcdPacker.unpackTrunk readers.codec readers.fresh doc).isSome
  | getData => (readers.keepalive.onGetData readers.codec readers.check doc).isSome
  | memberList => (readers.cluster.onMemberUpdate readers.now readers.draw doc).isSome
  | lease => (EtcdCluster.unpackLease readers.codec doc).isSome

/-- The shapes of answers that have the type everywhere that is not tested. -/
def Shaped (codec : TextCodec) (doc : Json) : EtcdAnswer → Prop
  | range => EtcdPacker.RangeShaped codec doc
  | watch => EtcdPacker.WatchShaped doc
  | getData => EtcdKeepalive.GetDataShaped codec doc
  | memberList => doc.ElementsAre EtcdCluster.MemberShaped (ascii "members")
  | lease => doc.ObjectMember (ascii "result")

/-- **An answer is read without a failed assertion** exactly if it has one of these shapes, for
    every body that parses to an object and every kind of answer. -/
theorem reads_iff (readers : AnswerReaders) {body : Bytes} {doc : Json}
    (h : EtcdPacker.parseObject readers.codec body = some doc) (answer : EtcdAnswer) :
    answer.reads readers doc = true ↔ answer.Shaped readers.codec doc := by
  have hobject := EtcdPacker.isObject_of_parseObject h
  cases answer with
  | range => exact EtcdPacker.unpackRangeAnswer_isSome readers.codec hobject
  | watch => exact EtcdPacker.unpackTrunk_isSome readers.codec readers.fresh hobject
  | getData =>
    exact readers.keepalive.onGetData_isSome readers.codec readers.check hobject
  | memberList => exact readers.cluster.onMemberUpdate_isSome readers.now readers.draw hobject
  | lease => exact EtcdCluster.unpackLease_isSome readers.codec hobject

/-- A body whose members are null, or arrays of null. -/
def nullsBody : Bytes :=
  ascii "\x7b\"result\":null,\"header\":null,\"count\":1,\"kvs\":[null],\"members\":[null]\x7d"

/-- The value of `nullsBody`. -/
def nullsDoc : Json :=
  .object [(ascii "result", .null), (ascii "header", .null), (ascii "count", .int 1),
    (ascii "kvs", .array [.null]), (ascii "members", .array [.null])]

/-- A body that has every level of the five answers. -/
def shapedBody : Bytes :=
  ascii "\x7b\"result\":\x7b\"header\":\x7b\"revision\":7\x7d,\"events\":[\x7b\"type\":\"PUT\"," ++
    ascii "\"kv\":\x7b\"key\":\"aw==\",\"value\":\"dg==\"\x7d\x7d],\"TTL\":16,\"ID\":5\x7d," ++
    ascii "\"header\":\x7b\"revision\":7\x7d,\"count\":1,\"kvs\":[\x7b\"key\":\"aw==\"," ++
    ascii "\"value\":\"dg==\"\x7d],\"members\":[\x7b\"clientURLs\":[\"http://h:1\"]\x7d]\x7d"

/-- The key and the value of `shapedBody`. -/
def shapedKv : Json :=
  .object [(ascii "key", .string (ascii "aw==")), (ascii "value", .string (ascii "dg=="))]

/-- The header of `shapedBody`. -/
def shapedHeader : Json := .object [(ascii "revision", .int 7)]

/-- The value of `shapedBody`. -/
def shapedDoc : Json :=
  .object [
    (ascii "result", .object [
      (ascii "header", shapedHeader),
      (ascii "events", .array [.object [
        (ascii "type", .string (ascii "PUT")), (ascii "kv", shapedKv)]]),
      (ascii "TTL", .int 16), (ascii "ID", .int 5)]),
    (ascii "header", shapedHeader), (ascii "count", .int 1), (ascii "kvs", .array [shapedKv]),
    (ascii "members", .array [.object [
      (ascii "clientURLs", .array [.string (ascii "http://h:1")])]])]

/-- Readers of these two bodies. -/
def sampleReaders : AnswerReaders where
  codec :=
    { parse body := if body = shapedBody then shapedDoc else if body = nullsBody then nullsDoc
        else .null
      str2int64 n _ := n
      str2uint64 n _ := n
      str2int32 n _ := n
      base64Decode out text :=
        if text = ascii "aw==" then (ascii "k", true)
        else if text = ascii "dg==" then (ascii "v", true)
        else (out, false) }
  keepalive := { addr := 1, path := ascii "/" }

/-- Every callback reads the body with all levels, and it has the shapes. -/
theorem reads_iff_shapedBody :
    EtcdPacker.parseObject sampleReaders.codec shapedBody = some shapedDoc ∧
      ∀ answer : EtcdAnswer, answer.reads sampleReaders shapedDoc = true ∧
        answer.Shaped sampleReaders.codec shapedDoc := by
  have hbody : cString shapedBody = shapedBody := by decide +kernel
  have hparse : EtcdPacker.parseObject sampleReaders.codec shapedBody = some shapedDoc := by
    simp only [EtcdPacker.parseObject, hbody, sampleReaders, if_true, shapedDoc]
  refine ⟨hparse, fun answer => ?_⟩
  have hreads : answer.reads sampleReaders shapedDoc = true := by
    cases answer <;> rfl
  exact ⟨hreads, (reads_iff sampleReaders hparse answer).1 hreads⟩

/-- One body on which every callback applies an accessor to a value of another type. -/
theorem not_reads_nullsBody :
    EtcdPacker.parseObject sampleReaders.codec nullsBody = some nullsDoc ∧
      ∀ answer : EtcdAnswer, answer.reads sampleReaders nullsDoc = false := by
  have hbody : cString nullsBody = nullsBody := by decide +kernel
  have hother : nullsBody ≠ shapedBody := by decide +kernel
  refine ⟨?_, fun answer => ?_⟩
  · simp only [EtcdPacker.parseObject, hbody, sampleReaders, if_neg hother, if_true, nullsDoc]
  · cases answer <;> rfl

end EtcdAnswer

end LibAtapp
