import LibAtapp.Conf.RapidjsonMaps

set_option autoImplicit false

/-! # Messages that come back from their documents

What `rapidjson_loader_load_from` writes and `rapidjson_loader_dump_to` reads back is the message it
started from, whatever the nesting, except for two things. An enum number that its enum does not know
is written but not read. A key of a map that is a bool is written as the empty text, and that is read
as false, so `true` is lost and overwrites the entry of `false`. -/

namespace LibAtapp.Rapidjson

open ProtobufEqual (CppType mapKeyTypes)

/-! ## Any field -/

theorem depth_le_depthOfItems {items : List Json} {item : Json} (hmem : item ∈ items) :
    depth item ≤ depthOfItems items := by
  induction items with
  | nil => simp at hmem
  | cons item' items ih =>
    rw [depthOfItems]
    rcases List.mem_cons.1 hmem with rfl | hmem
    · exact le_max_left _ _
    · exact (ih hmem).trans (le_max_right _ _)

theorem depth_le_depthOfMembers {members : List (Bytes × Json)} {member : Bytes × Json}
    (hmem : member ∈ members) : depth member.2 ≤ depthOfMembers members := by
  induction members with
  | nil => simp at hmem
  | cons member' members ih =>
    rw [depthOfMembers]
    rcases List.mem_cons.1 hmem with rfl | hmem
    · exact le_max_left _ _
    · exact (ih hmem).trans (le_max_right _ _)

section AnyField

variable {f : TextFunctions} {load : LoadOptions} {dump : DumpOptions} {pool : DescriptorPool}
variable {n : Nat} {fdss : List FieldDescriptor} {fds : FieldDescriptor} {dst : Message} {i : Nat}

theorem representableData_map_iff {keyFds valueFds : FieldDescriptor} (hmap : fds.isMap = true)
    (hfields : pool.fields fds.messageType = [keyFds, valueFds]) {entries : List Message} :
    representableData pool fds (.messages entries) = true ↔
      ∀ e ∈ entries, entryKey e ≠ [.bool true] ∧
        representableFields pool [keyFds, valueFds] e = true := by
  simp only [representableData, hmap, hfields, Bool.not_true, Bool.false_or, Bool.and_eq_true,
    List.all_eq_true, decide_eq_true_eq, representableAll_iff]
  exact ⟨fun h e he => ⟨h.1 e he, h.2 e he⟩, fun h => ⟨fun e he => (h e he).1, fun e he => (h e he).2⟩⟩

/-- A map comes back exactly if its values do and none of its keys is `true`. -/
theorem dumpFieldItemMap_loadMap (h : Matching f load dump) (ih : ReadsBack f load dump pool n)
    {keyFds valueFds : FieldDescriptor} (hentry : EntryFields keyFds valueFds)
    (htype : fds.cppType = .message) (hmap : fds.isMap = true)
    (hfields : pool.fields fds.messageType = [keyFds, valueFds]) {entries : List Message}
    (hwf : ∀ e ∈ entries, WellFormedEntry pool keyFds valueFds e)
    (hnodup : (entries.map entryKey).Nodup)
    (hdepth : depth (.object (loadMap f keyFds entries
      (loadItemsOfAll f load pool [keyFds, valueFds] entries))) ≤ n)
    (hdst : dst[i]? = some (.messages [])) :
    ∃ d', dumpFieldItemMap f dump pool (dumpTo f dump pool n) (loadMap f keyFds entries
        (loadItemsOfAll f load pool [keyFds, valueFds] entries)) dst fds i = dst.set i d' ∧
      (d' = .messages entries ↔ representableData pool fds (.messages entries) = true) := by
  rw [loadMap_eq hentry hwf] at hdepth ⊢
  simp only [dumpFieldItemMap, htype, hmap, and_self, if_true, hfields, hdst, addMessage]
  refine ⟨_, rfl, ?_⟩
  rw [FieldData.messages.injEq, representableData_map_iff hmap hfields]
  by_cases htrue : ∀ e ∈ entries, entryKey e ≠ [.bool true]
  · have hkeys : ∀ e ∈ entries, keyOf keyFds e ≠ .bool true :=
      fun e he => (hwf e he).keyOf_ne_true (htrue e he)
    have hmembers := mutableSetMember_foldl
      (fun e => (entryMember f load pool keyFds valueFds e).1)
      (fun e => (entryMember f load pool keyFds valueFds e).2) entries []
      (by simpa using nodup_memberName h hentry hwf hkeys hnodup)
    rw [List.nil_append] at hmembers
    rw [hmembers] at hdepth ⊢
    have hitem : ∀ e ∈ entries, depth (entryMember f load pool keyFds valueFds e).2 ≤ n := by
      intro e he
      have hmem : entryMember f load pool keyFds valueFds e ∈ entries.map fun e =>
          ((entryMember f load pool keyFds valueFds e).1,
            (entryMember f load pool keyFds valueFds e).2) := List.mem_map_of_mem he
      have hle := depth_le_depthOfMembers hmem
      rw [depth] at hdepth
      omega
    have hback := fun e he =>
      dumpEntry_entryMember h ih hentry (hwf e he) (htrue e he) (hitem e he)
    rw [List.foldl_map]
    have hentries := insertEntry_foldl (fun e => dumpEntry f dump pool (dumpTo f dump pool n) keyFds
      valueFds (entryMember f load pool keyFds valueFds e)) entries []
    rw [List.nil_append, List.map_nil, List.nil_append] at hentries
    rw [hentries, map_eq_self_iff]
    · constructor
      · exact fun heq e he => ⟨htrue e he, (hback e he).2.1 (heq e he)⟩
      · exact fun hrep e he => (hback e he).2.2 (hrep e he).2
    · rwa [List.map_congr_left fun e he => (hback e he).1]
  · -- no key that is read is `true`
    push Not at htrue
    obtain ⟨e, he, hkey⟩ := htrue
    have htypeKey : keyFds.cppType = .bool := by
      have hfits := (hwf e he).key
      rw [keyOf, hkey] at hfits
      cases htypeKey : keyFds.cppType <;> simp_all [fits]
    have hread : ∀ entries', entries' = entries → ¬∀ e' ∈ entries', entryKey e' = [] := by
      rintro entries' rfl hkeys
      simp [hkeys e he] at hkey
    constructor
    · intro heq
      refine absurd (insertEntry_foldl_keys (p := fun key => key = []) ?_ (by simp)) (hread _ heq)
      intro member _
      rw [dumpEntry_eq hentry (dumpScalar_bool_name htypeKey member.1), entryKey_dumpPickField hentry]
      simp [FieldDescriptor.stored, FieldDescriptor.defaultValue, htypeKey, hentry.keyPresence]
    · exact fun hrep => absurd hkey (hrep e he).1

theorem loadScalar_ne_array (type : CppType) (v : Scalar) (items : List Json) :
    loadScalar f load type v ≠ .array items := by
  cases v with
  | int n => cases type <;> simp only [loadScalar] <;> (try split) <;> simp
  | bool b => simp [loadScalar]
  | string s => simp only [loadScalar, loadFieldStringFilter]; split <;> simp

theorem loadFieldItem_ne_array (hrep : fds.isRepeated = false) (hmap : fds.isMap = false)
    {d : FieldData} (hwf : wellFormedData pool fds d = true) (items : List Json) :
    loadFieldItem f load pool fds d ≠ .array items := by
  cases d with
  | scalars values =>
    simp only [loadFieldItem, hrep, Bool.false_eq_true, if_false]
    exact loadScalar_ne_array _ _ _
  | messages values =>
    simp only [wellFormedData, Bool.and_eq_true, decide_eq_true_eq, hrep, Bool.false_or] at hwf
    obtain rfl | ⟨m, rfl⟩ := eq_nil_or_singleton hwf.1.1.2
    · simp [loadFieldItem, loadMessages, hmap, hrep]
    · rw [loadFieldItem_message hrep hmap, rapidjsonLoaderLoadFrom_eq]
      simp

/-- The fields of the entries of a map of the pool. -/
theorem entryFields {t : Nat} (hfds : fds ∈ pool.fields t) (hmap : fds.isMap = true) :
    ∃ keyFds valueFds, pool.fields fds.messageType = [keyFds, valueFds] ∧
      EntryFields keyFds valueFds := by
  obtain ⟨-, -, keyFds, valueFds, hfields, hkey⟩ := pool.entry t fds hfds hmap
  obtain ⟨hkeyType, hkeyRep, hkeyOneof, hkeyPresence, hrep, hmap', honeof, hpresence⟩ := hkey
  exact ⟨keyFds, valueFds, hfields, hkeyType, hkeyRep, hkeyOneof, hkeyPresence, hrep, hmap', honeof,
    hpresence⟩

/-- The field that `dump_field_item` reads from the member of its name. -/
theorem dumpFieldItem_repeated {dumpTo : Nat → Json → Message → Message} {item : Json}
    {members : List (Bytes × Json)} (hlookup : members.lookup fds.name = some item)
    (hrep : fds.isRepeated = true) {items : List Json} (hitem : item = .array items) :
    dumpFieldItem f dump pool dumpTo fdss (.object members) dst fds i
      = items.foldl (fun dst item => dumpPickField f dump pool dumpTo fdss item dst fds i) dst := by
  subst hitem
  simp only [dumpFieldItem, hlookup, hrep, if_true]

theorem dumpFieldItem_scalars (h : Matching f load dump) (hrep : fds.isRepeated = true)
    {dumpTo : Nat → Json → Message → Message} {values : List Scalar}
    (hwf : wellFormedData pool fds (.scalars values) = true) {members : List (Bytes × Json)}
    (hlookup : members.lookup fds.name = some (loadFieldItem f load pool fds (.scalars values)))
    (hdst : dst[i]? = some fds.emptyData) :
    dumpFieldItem f dump pool dumpTo fdss (.object members) dst fds i
      = dst.set i (.scalars (values.filter (known fds))) := by
  simp only [wellFormedData, Bool.and_eq_true, decide_eq_true_eq, List.all_eq_true] at hwf
  obtain ⟨⟨htype, hfits⟩, -⟩ := hwf
  rw [FieldDescriptor.emptyData, if_neg htype] at hdst
  have hitem : loadFieldItem f load pool fds (.scalars values)
      = .array (values.map (loadScalar f load fds.cppType)) := by simp [loadFieldItem, hrep]
  have hkept : (values.map (loadScalar f load fds.cppType)).filterMap (dumpScalar f dump fds)
      = values.filter (known fds) := by
    rw [List.filterMap_map, ← List.filterMap_eq_filter]
    refine List.filterMap_congr fun v hv => ?_
    simp only [Function.comp_apply, dumpScalar_loadScalar h (hfits v hv), Option.guard]
  rw [dumpFieldItem_repeated hlookup hrep hitem, dumpPickField_foldl_scalars hrep _ hdst,
    List.nil_append, hkept]

theorem dumpFieldItem_messages (ih : ReadsBack f load dump pool n) (hrep : fds.isRepeated = true)
    (hmap : fds.isMap = false) {values : List Message}
    (hwf : wellFormedData pool fds (.messages values) = true)
    (hdepth : depth (loadFieldItem f load pool fds (.messages values)) ≤ n)
    {members : List (Bytes × Json)}
    (hlookup : members.lookup fds.name = some (loadFieldItem f load pool fds (.messages values)))
    (hdst : dst[i]? = some fds.emptyData) :
    ∃ d', dumpFieldItem f dump pool (dumpTo f dump pool n) fdss (.object members) dst fds i
        = dst.set i d' ∧
      (d' = .messages values ↔ representableData pool fds (.messages values) = true) := by
  simp only [wellFormedData, Bool.and_eq_true, decide_eq_true_eq] at hwf
  obtain ⟨⟨⟨htype, -⟩, -⟩, hall⟩ := hwf
  rw [FieldDescriptor.emptyData, if_pos htype] at hdst
  have hload : rapidjsonLoaderLoadFrom f load pool fds.messageType = fun m =>
      .object (writtenMembers (pool.fields fds.messageType) m
        (loadItems f load pool (pool.fields fds.messageType) m)) :=
    funext (rapidjsonLoaderLoadFrom_eq fds.messageType)
  have hitem : loadFieldItem f load pool fds (.messages values)
      = .array (values.map (rapidjsonLoaderLoadFrom f load pool fds.messageType)) :=
    loadFieldItem_repeated_messages hrep hmap values
  refine ⟨.messages (values.map fun m => dumpTo f dump pool n fds.messageType
    (rapidjsonLoaderLoadFrom f load pool fds.messageType m)
    (emptyMessage (pool.fields fds.messageType))), ?_, ?_⟩
  · rw [dumpFieldItem_repeated hlookup hrep hitem, hload,
      dumpPickField_foldl_messages hrep hmap _ _ hdst, List.nil_append]
  · rw [FieldData.messages.injEq, map_eq_self_iff]
    simp only [representableData, hmap, Bool.not_false, Bool.true_or, Bool.true_and,
      representableAll_iff]
    refine forall₂_congr fun m hm => ih fds.messageType m ?_ ?_
    · simp [wellFormed, wellFormedAll_iff.1 hall m hm]
    · have hmem : rapidjsonLoaderLoadFrom f load pool fds.messageType m
          ∈ values.map (rapidjsonLoaderLoadFrom f load pool fds.messageType) :=
        List.mem_map_of_mem hm
      have hle := depth_le_depthOfItems hmem
      rw [hitem, depth] at hdepth
      omega

/-- A field that is set, read where nothing is set. -/
theorem dumpFieldItem_loadFieldItem (h : Matching f load dump) (ih : ReadsBack f load dump pool n)
    {t : Nat} (hfds : fds ∈ pool.fields t) {d : FieldData}
    (hwf : wellFormedData pool fds d = true) (hset : d.isSet = true)
    (hdepth : depth (loadFieldItem f load pool fds d) ≤ n) {members : List (Bytes × Json)}
    (hlookup : members.lookup fds.name = some (loadFieldItem f load pool fds d))
    (hdst : dst[i]? = some fds.emptyData)
    (hsetField : ∀ d', setField fdss dst fds i d' = dst.set i d') :
    ∃ d', dumpFieldItem f dump pool (dumpTo f dump pool n) fdss (.object members) dst fds i
        = dst.set i d' ∧ (d' = d ↔ representableData pool fds d = true) := by
  cases hrep : fds.isRepeated with
  | false =>
    have hmap : fds.isMap = false := by
      cases hmap : fds.isMap with
      | false => rfl
      | true => simp [(pool.entry t fds hfds hmap).1] at hrep
    have hitem : dumpFieldItem f dump pool (dumpTo f dump pool n) fdss (.object members) dst fds i
        = dumpPickField f dump pool (dumpTo f dump pool n) fdss (loadFieldItem f load pool fds d)
            dst fds i := by
      simp only [dumpFieldItem, hlookup, hrep, Bool.false_eq_true, if_false]
      split
      · rename_i items heq
        exact absurd heq (loadFieldItem_ne_array hrep hmap hwf items)
      · rfl
    rw [hitem]
    exact dumpPickField_loadFieldItem h ih hrep hmap hwf (.inl hset) hdepth hdst hsetField
  | true =>
    cases d with
    | scalars values =>
      refine ⟨_, dumpFieldItem_scalars h hrep hwf hlookup hdst, ?_⟩
      simp [representableData, List.filter_eq_self]
    | messages values =>
      cases hmap : fds.isMap with
      | false => exact dumpFieldItem_messages ih hrep hmap hwf hdepth hlookup hdst
      | true =>
        simp only [wellFormedData, Bool.and_eq_true, decide_eq_true_eq, hmap, Bool.not_true,
          Bool.false_or, List.all_eq_true] at hwf
        obtain ⟨⟨⟨htype, -⟩, hkeys, hvalues⟩, hall⟩ := hwf
        rw [FieldDescriptor.emptyData, if_pos htype] at hdst
        obtain ⟨keyFds, valueFds, hfields, hentry⟩ := entryFields hfds hmap
        rw [hfields, wellFormedAll_iff] at hall
        have hentries := fun e he =>
          wellFormedEntry_of_fields hentry (hall e he).1 (hvalues e he)
        have hitem : loadFieldItem f load pool fds (.messages values)
            = .object (loadMap f keyFds values
                (loadItemsOfAll f load pool [keyFds, valueFds] values)) := by
          simp [loadFieldItem, loadMessages, hmap, hfields]
        rw [hitem] at hdepth hlookup
        simp only [dumpFieldItem, hlookup, hrep, if_true]
        exact dumpFieldItemMap_loadMap h ih hentry htype hmap hfields hentries hkeys hdepth hdst

end AnyField

/-! ## The loop over the fields -/

/-- The index of a loop carries an invariant along. -/
theorem foldl_zipIdx_induction {α β : Type} {motive : Nat → β → Prop} {step : β → α × Nat → β}
    (xs : List α) {k : Nat} {b : β} (hinit : motive k b)
    (hstep : ∀ (j : Nat) (x : α) (b : β), xs[j]? = some x → motive (k + j) b →
      motive (k + j + 1) (step b (x, k + j))) :
    motive (k + xs.length) ((xs.zipIdx k).foldl step b) := by
  induction xs generalizing k b with
  | nil => exact hinit
  | cons x xs ih =>
    have htail := ih (k := k + 1) (hstep 0 x b rfl hinit) (fun j y b' hy hb' => by
      have hnext := hstep (j + 1) y b' hy
      rw [show k + (j + 1) = k + 1 + j by omega] at hnext
      exact hnext hb')
    rw [List.length_cons, show k + (xs.length + 1) = k + 1 + xs.length by omega]
    exact htail

section Loop

variable {f : TextFunctions} {load : LoadOptions} {dump : DumpOptions} {pool : DescriptorPool}
variable {n t : Nat} {m : Message}

/-- The message in the middle of the loop: the fields from the index on are still as they were in a
    new message, and so are those that are not set; the others came back if they are
    representable. -/
structure ReadUpTo (pool : DescriptorPool) (t : Nat) (m : Message) (k : Nat) (dst : Message) :
    Prop where
  length : dst.length = (pool.fields t).length
  empty : ∀ (j : Nat) (fds : FieldDescriptor) (d : FieldData), (pool.fields t)[j]? = some fds →
    m[j]? = some d → k ≤ j ∨ d.isSet = false → dst[j]? = some fds.emptyData
  back : ∀ (j : Nat) (fds : FieldDescriptor) (d : FieldData), (pool.fields t)[j]? = some fds →
    m[j]? = some d → j < k → (dst[j]? = some d ↔ representableData pool fds d = true)

/-- A field in which nothing is set is the field of a new message. -/
theorem eq_emptyData_of_unset {fds : FieldDescriptor} {d : FieldData}
    (hwf : wellFormedData pool fds d = true) (hset : d.isSet = false) :
    d = fds.emptyData ∧ representableData pool fds d = true := by
  cases d with
  | scalars values =>
    have hnil : values = [] := by simpa [FieldData.isSet] using hset
    have htype : fds.cppType ≠ .message := by
      intro heq
      simp [wellFormedData, heq] at hwf
    subst hnil
    exact ⟨(if_neg htype).symm, rfl⟩
  | messages values =>
    have hnil : values = [] := by simpa [FieldData.isSet] using hset
    have htype : fds.cppType = .message := by
      by_contra hne
      simp [wellFormedData, hne] at hwf
    subst hnil
    refine ⟨(if_pos htype).symm, ?_⟩
    simp [representableData, representableAll]

/-- Of a oneof only one member is set, so that the others are still unset when it is read. -/
theorem setField_of_readUpTo (hwf : wellFormed pool t m = true) {k : Nat} {dst : Message}
    (hdst : ReadUpTo pool t m k dst) {fds : FieldDescriptor} {d : FieldData}
    (hfds : (pool.fields t)[k]? = some fds) (hd : m[k]? = some d) (hset : d.isSet = true)
    (d' : FieldData) : setField (pool.fields t) dst fds k d' = dst.set k d' := by
  refine setField_eq_set hdst.length ?_
  intro j other hj hother honeof hsame
  simp only [wellFormed, Bool.and_eq_true] at hwf
  have hlen := wellFormedFields_length hwf.1
  obtain ⟨o, ho⟩ : ∃ o, m[j]? = some o := by
    have hlt := (List.getElem?_eq_some_iff.1 hother).1
    exact ⟨_, List.getElem?_eq_getElem (by omega)⟩
  refine hdst.empty j other o hother ho (.inr ?_)
  by_contra hoset
  have hexclusive := hwf.2
  simp only [oneofsExclusive, decide_eq_true_eq, List.pairwise_iff_getElem] at hexclusive
  have hjk : ∀ a b : Nat, a < b → ∀ fa fb da db, (pool.fields t)[a]? = some fa →
      (pool.fields t)[b]? = some fb → m[a]? = some da → m[b]? = some db → da.isSet = true →
      db.isSet = true → fa.containingOneof = none ∨ fa.containingOneof ≠ fb.containingOneof := by
    intro a b hab fa fb da db hfa hfb hda hdb
    have hzip : ((pool.fields t).zip m)[a]? = some (fa, da) := by
      exact List.getElem?_zip_eq_some.2 ⟨hfa, hda⟩
    have hzip' : ((pool.fields t).zip m)[b]? = some (fb, db) := by
      exact List.getElem?_zip_eq_some.2 ⟨hfb, hdb⟩
    obtain ⟨ha, hea⟩ := List.getElem?_eq_some_iff.1 hzip
    obtain ⟨hb, heb⟩ := List.getElem?_eq_some_iff.1 hzip'
    have hpair := hexclusive a b ha hb hab
    rw [hea, heb] at hpair
    exact hpair
  have hoset' : o.isSet = true := by simpa using hoset
  rcases Nat.lt_or_gt_of_ne hj with hlt | hgt
  · rcases hjk j k hlt other fds o d hother hfds ho hd hoset' hset with hnone | hne
    · exact honeof (hsame ▸ hnone)
    · exact hne hsame
  · rcases hjk k j hgt fds other d o hfds hother hd ho hset hoset' with hnone | hne
    · exact honeof hnone
    · exact hne hsame.symm

/-- One round of the loop. -/
theorem readUpTo_succ (h : Matching f load dump) (ih : ReadsBack f load dump pool n)
    (hwf : wellFormed pool t m = true) (hdepth : depth (rapidjsonLoaderLoadFrom f load pool t m) ≤ n + 1)
    {k : Nat} {dst : Message} (hdst : ReadUpTo pool t m k dst) {fds : FieldDescriptor}
    (hfds : (pool.fields t)[k]? = some fds) :
    ReadUpTo pool t m (k + 1) (dumpFieldItem f dump pool (dumpTo f dump pool n) (pool.fields t)
      (rapidjsonLoaderLoadFrom f load pool t m) dst fds k) := by
  have hfields : wellFormedFields pool (pool.fields t) m = true := by
    simp only [wellFormed, Bool.and_eq_true] at hwf
    exact hwf.1
  have hlen := wellFormedFields_length hfields
  obtain ⟨d, hd⟩ : ∃ d, m[k]? = some d := by
    have hlt := (List.getElem?_eq_some_iff.1 hfds).1
    exact ⟨_, List.getElem?_eq_getElem (by omega)⟩
  have hwfd := wellFormedData_of_getElem? hfields hfds hd
  have hitem : (loadItems f load pool (pool.fields t) m)[k]?
      = some (loadFieldItem f load pool fds d) := by
    rw [loadItems_eq, List.getElem?_zipWith]
    simp [hfds, hd]
  have hlookup := lookup_writtenMembers (pool.names t) hfds hd hitem
  rw [rapidjsonLoaderLoadFrom_eq] at hdepth ⊢
  have hempty : dst[k]? = some fds.emptyData := hdst.empty k fds d hfds hd (.inl le_rfl)
  -- in each case the field with the index is set to something
  obtain ⟨d', hread, hback, hunset⟩ : ∃ d', dumpFieldItem f dump pool (dumpTo f dump pool n)
      (pool.fields t) (.object (writtenMembers (pool.fields t) m
        (loadItems f load pool (pool.fields t) m))) dst fds k = dst.set k d' ∧
      (d' = d ↔ representableData pool fds d = true) ∧ (d.isSet = false → d' = fds.emptyData) := by
    cases hset : d.isSet with
    | false =>
      rw [hset] at hlookup
      obtain ⟨heq, hrep⟩ := eq_emptyData_of_unset hwfd hset
      refine ⟨fds.emptyData, ?_, iff_of_true heq.symm hrep, fun _ => rfl⟩
      rw [set_of_getElem?_eq hempty]
      simp [dumpFieldItem, hlookup]
    | true =>
      rw [hset, if_pos rfl] at hlookup
      have hle : depth (loadFieldItem f load pool fds d) ≤ n := by
        obtain ⟨before, after, heq, -⟩ := List.lookup_eq_some_iff.1 hlookup
        have hmem : (fds.name, loadFieldItem f load pool fds d)
            ∈ writtenMembers (pool.fields t) m (loadItems f load pool (pool.fields t) m) := by
          rw [heq]
          simp
        have hmember := depth_le_depthOfMembers hmem
        rw [depth] at hdepth
        exact hmember.trans (by omega)
      obtain ⟨d', hread, hback⟩ := dumpFieldItem_loadFieldItem h ih (List.mem_of_getElem? hfds) hwfd
        hset hle hlookup hempty (setField_of_readUpTo hwf hdst hfds hd hset)
      exact ⟨d', hread, hback, by simp⟩
  have hk : k < dst.length := (List.getElem?_eq_some_iff.1 hempty).1
  rw [hread]
  constructor
  · simpa using hdst.length
  · intro j other o hother ho hj
    by_cases hjk : k = j
    · subst hjk
      obtain rfl := Option.some.inj (hfds.symm.trans hother)
      obtain rfl := Option.some.inj (hd.symm.trans ho)
      rw [List.getElem?_set_self hk, hunset (by rcases hj with hj | hj; omega; exact hj)]
    · rw [List.getElem?_set_ne hjk]
      refine hdst.empty j other o hother ho ?_
      rcases hj with hj | hj
      · exact .inl (by omega)
      · exact .inr hj
  · intro j other o hother ho hj
    by_cases hjk : k = j
    · subst hjk
      obtain rfl := Option.some.inj (hfds.symm.trans hother)
      obtain rfl := Option.some.inj (hd.symm.trans ho)
      rw [List.getElem?_set_self hk, Option.some.injEq]
      exact hback
    · rw [List.getElem?_set_ne hjk]
      exact hdst.back j other o hother ho (by omega)

/-- Whatever the nesting, a message comes back exactly if it is representable. -/
theorem readsBack (h : Matching f load dump) (n : Nat) : ReadsBack f load dump pool n := by
  induction n with
  | zero =>
    intro t m _ hdepth
    rw [rapidjsonLoaderLoadFrom_eq, depth] at hdepth
    omega
  | succ n ih =>
    intro t m hwf hdepth
    have hfields : wellFormedFields pool (pool.fields t) m = true := by
      simp only [wellFormed, Bool.and_eq_true] at hwf
      exact hwf.1
    have hlen := wellFormedFields_length hfields
    have hinit : ReadUpTo pool t m 0 (emptyMessage (pool.fields t)) := by
      constructor
      · simp [emptyMessage]
      · intro j fds d hfds _ _
        simp [emptyMessage, hfds]
      · intro j fds d _ _ hj
        omega
    have hloop : ReadUpTo pool t m (0 + (pool.fields t).length) (dumpTo f dump pool (n + 1) t
        (rapidjsonLoaderLoadFrom f load pool t m) (emptyMessage (pool.fields t))) := by
      rw [dumpTo]
      refine foldl_zipIdx_induction (pool.fields t) hinit ?_
      intro j fds dst hfds hdst
      exact readUpTo_succ h ih hwf hdepth hdst (by simpa using hfds)
    rw [Nat.zero_add] at hloop
    rw [representable, representableFields_iff hlen]
    constructor
    · intro heq j fds d hfds hd
      have hj : j < (pool.fields t).length := (List.getElem?_eq_some_iff.1 hfds).1
      refine (hloop.back j fds d hfds hd hj).1 ?_
      rw [← hd]
      exact congrArg (fun l : Message => l[j]?) heq
    · intro hrep
      refine List.ext_getElem? fun j => ?_
      cases hd : m[j]? with
      | none =>
        rw [List.getElem?_eq_none_iff] at hd ⊢
        have hlength := hloop.length
        omega
      | some d =>
        have hj : j < (pool.fields t).length := by
          have hlt := (List.getElem?_eq_some_iff.1 hd).1
          omega
        have hfds := List.getElem?_eq_getElem hj
        exact (hloop.back j _ d hfds hd hj).2 (hrep j _ d hfds hd)

end Loop

/-- What is written for a message without floating point numbers and read into a new one is the
    message, exactly if its enums know their numbers and none of its maps has the key `true`, on any
    level. -/
theorem rapidjsonLoaderDumpTo_loadFrom {f : TextFunctions} {load : LoadOptions} {dump : DumpOptions}
    (h : Matching f load dump) (pool : DescriptorPool) (t : Nat) (m : Message)
    (hwf : wellFormed pool t m = true) :
    rapidjsonLoaderDumpTo f dump pool t (rapidjsonLoaderLoadFrom f load pool t m)
        (emptyMessage (pool.fields t)) = m ↔ representable pool t m = true :=
  readsBack h _ t m hwf le_rfl

/-! ## Decimal numbers -/

/-- The number that a text denotes in decimal. -/
def decimalNumber : Bytes → Int
  | [] => 0
  | c :: cs =>
    if c = 0x2d then -(Nat.ofDigitChars 10 (cs.map fun c => Char.ofNat c.val) 0 : Nat)
    else (Nat.ofDigitChars 10 ((c :: cs).map fun c => Char.ofNat c.val) 0 : Nat)

/-- Texts as they are, and numbers in decimal. -/
def plainText : TextFunctions where
  encodeUri := id
  decodeUri := id
  encodeUriComponent := id
  decodeUriComponent := id
  int2str n := if n < 0 then 0x2d :: decimal n.natAbs else decimal n.natAbs
  str2int _ := decimalNumber

theorem plainText_lawful : plainText.Lawful where
  uri _ := rfl
  uriComponent _ := rfl
  int _ n _ := by
    by_cases hn : n < 0
    · simp only [plainText, hn, if_true, decimalNumber, map_ofNat_decimal,
        Nat.ofDigitChars_ten_toDigits]
      omega
    · simp only [plainText, hn, if_false]
      cases hdecimal : decimal n.natAbs with
      | nil =>
        have hmap := map_ofNat_decimal n.natAbs
        rw [hdecimal, List.map_nil] at hmap
        exact absurd hmap.symm Nat.toDigits_ne_nil
      | cons c cs =>
        have hdigit := digit_of_mem_decimal (n := n.natAbs) (c := c) (by simp [hdecimal])
        have hne : c ≠ 0x2d := by
          rintro rfl
          exact absurd hdigit.1 (by decide)
        rw [decimalNumber, if_neg hne, ← hdecimal, map_ofNat_decimal, Nat.ofDigitChars_ten_toDigits]
        omega

/-- A type with a number, an enum and a map of messages of a type with a number. -/
def exampleFields : Nat → List FieldDescriptor
  | 0 => [{ name := ascii "id", number := 1, cppType := .uint64, isRepeated := false },
    { name := ascii "mode", number := 2, cppType := .enum, enumNumbers := [0, 1] },
    { name := ascii "peers", number := 3, cppType := .message, isRepeated := true, isMap := true,
      messageType := 1 }]
  | 1 => [{ name := ascii "key", number := 1, cppType := .string },
    { name := ascii "value", number := 2, cppType := .message, hasPresence := true,
      messageType := 2 }]
  | 2 => [{ name := ascii "weights", number := 1, cppType := .int32, isRepeated := true }]
  | _ => []

theorem exampleFields_names (t : Nat) : ((exampleFields t).map FieldDescriptor.name).Nodup := by
  rcases t with _ | _ | _ | t
  · decide +kernel
  · decide +kernel
  · decide +kernel
  · exact List.nodup_nil

theorem exampleFields_entry (t : Nat) (fds : FieldDescriptor) (hfds : fds ∈ exampleFields t)
    (hmap : fds.isMap = true) : fds.isRepeated = true ∧ fds.cppType = .message ∧
      ∃ key value, exampleFields fds.messageType = [key, value] ∧ key.cppType ∈ mapKeyTypes ∧
        key.isRepeated = false ∧ key.containingOneof = none ∧ key.hasPresence = false ∧
        value.isRepeated = false ∧ value.isMap = false ∧ value.containingOneof = none ∧
        (value.cppType ≠ .message → value.hasPresence = false) := by
  rcases t with _ | _ | _ | t
  · simp only [exampleFields, List.mem_cons, List.not_mem_nil, or_false] at hfds
    rcases hfds with rfl | rfl | rfl
    · simp at hmap
    · simp at hmap
    · exact ⟨rfl, rfl, _, _, rfl, by simp [mapKeyTypes]⟩
  · simp only [exampleFields, List.mem_cons, List.not_mem_nil, or_false] at hfds
    rcases hfds with rfl | rfl <;> simp at hmap
  · simp only [exampleFields, List.mem_cons, List.not_mem_nil, or_false] at hfds
    subst hfds
    simp at hmap
  · simp [exampleFields] at hfds

def examplePool : DescriptorPool where
  fields := exampleFields
  names := exampleFields_names
  entry := exampleFields_entry

/-- A message with a large number and two peers comes back; with an unknown mode it does not. -/
theorem rapidjsonLoaderDumpTo_loadFrom_example :
    let load : LoadOptions := { convertLargeNumberToString := true }
    let back := fun m => rapidjsonLoaderDumpTo plainText {} examplePool 0
      (rapidjsonLoaderLoadFrom plainText load examplePool 0 m) (emptyMessage (exampleFields 0))
    let peers := FieldData.messages
      [[.scalars [.string (ascii "a")], .messages [[.scalars [.int 3, .int (-4)]]]],
        [.scalars [], .messages [[.scalars []]]]]
    let m := fun mode => [FieldData.scalars [.int 5000000000], .scalars [.int mode], peers]
    back (m 1) = m 1 ∧ back (m 7) ≠ m 7 := by
  have h : Matching plainText { convertLargeNumberToString := true } {} :=
    ⟨plainText_lawful, rfl, rfl⟩
  constructor
  · exact (rapidjsonLoaderDumpTo_loadFrom h examplePool 0 _ (by decide +kernel)).2 (by decide +kernel)
  · intro heq
    exact absurd ((rapidjsonLoaderDumpTo_loadFrom h examplePool 0 _ (by decide +kernel)).1 heq)
      (by decide +kernel)

end LibAtapp.Rapidjson
