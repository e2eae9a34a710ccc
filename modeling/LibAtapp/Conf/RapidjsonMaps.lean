import LibAtapp.Conf.RapidjsonFields

set_option autoImplicit false

/-! # Maps that come back from their documents

A map is written as an object, so its keys become texts. A key of a bool becomes the empty text, and
what is read from that is false. -/

namespace LibAtapp.Rapidjson

open ProtobufEqual (CppType mapKeyTypes)

/-! ## Maps -/

theorem map_eq_self_iff {α : Type} {g : α → α} {xs : List α} :
    xs.map g = xs ↔ ∀ x ∈ xs, g x = x := by
  simpa using List.map_inj_left (l := xs) (f := g) (g := id)

/-- With keys of their own the entries are appended in turn. -/
theorem insertEntry_foldl {α : Type} (entry : α → Message) (xs : List α) (entries : List Message)
    (hnodup : (entries.map entryKey ++ xs.map fun x => entryKey (entry x)).Nodup) :
    xs.foldl (fun entries x => insertEntry entries (entry x)) entries
      = entries ++ xs.map entry := by
  induction xs generalizing entries with
  | nil => simp
  | cons x xs ih =>
    have hnew : ¬∃ e ∈ entries, entryKey e = entryKey (entry x) := by
      rintro ⟨e, he, heq⟩
      exact (List.nodup_append.1 hnodup).2.2 _ (List.mem_map_of_mem he) _ (List.mem_cons_self ..) heq
    have hinsert : insertEntry entries (entry x) = entries ++ [entry x] := if_neg hnew
    rw [List.foldl_cons, hinsert, ih]
    · simp
    · simpa using hnodup

/-- What holds of every key that is put into a map holds of every key in it. -/
theorem insertEntry_foldl_keys {α : Type} {p : List Scalar → Prop} {entry : α → Message}
    {xs : List α} (hxs : ∀ x ∈ xs, p (entryKey (entry x))) {entries : List Message}
    (hentries : ∀ e ∈ entries, p (entryKey e)) :
    ∀ e ∈ xs.foldl (fun entries x => insertEntry entries (entry x)) entries, p (entryKey e) := by
  induction xs generalizing entries with
  | nil => exact hentries
  | cons x xs ih =>
    have hx := hxs x (List.mem_cons_self ..)
    have hinsert : ∀ e ∈ insertEntry entries (entry x), p (entryKey e) := by
      intro e he
      unfold insertEntry at he
      split at he
      · obtain ⟨e', he', heq⟩ := List.mem_map.1 he
        split at heq
        · exact heq ▸ hx
        · exact heq ▸ hentries e' he'
      · rcases List.mem_append.1 he with he | he
        · exact hentries e he
        · exact List.mem_singleton.1 he ▸ hx
    exact ih (fun y hy => hxs y (List.mem_cons_of_mem _ hy)) hinsert

section Map

variable (f : TextFunctions) (load : LoadOptions) (dump : DumpOptions) (pool : DescriptorPool)
variable (keyFds valueFds : FieldDescriptor)

/-- The name of the member that is written for a key. -/
def memberName (key : Scalar) : Bytes :=
  match loadScalar f load keyFds.cppType key with
  | .string name => name
  | _ => loadFieldItemToMapString f keyFds.cppType key

/-- The key of an entry. -/
def keyOf (e : Message) : Scalar := (entryKey e).headD keyFds.defaultValue

/-- The value of an entry. -/
def valueOf (e : Message) : FieldData := e.getD 1 (.scalars [])

/-- The member that is written for an entry. -/
def entryMember (e : Message) : Bytes × Json :=
  (memberName f load keyFds (keyOf keyFds e), loadFieldItem f load pool valueFds (valueOf e))

/-- The fields of the entries of a map. -/
structure EntryFields : Prop where
  keyType : keyFds.cppType ∈ mapKeyTypes
  keyRepeated : keyFds.isRepeated = false
  keyOneof : keyFds.containingOneof = none
  keyPresence : keyFds.hasPresence = false
  valueRepeated : valueFds.isRepeated = false
  valueMap : valueFds.isMap = false
  valueOneof : valueFds.containingOneof = none
  valuePresence : valueFds.cppType ≠ .message → valueFds.hasPresence = false

/-- An entry of a map in memory. -/
structure WellFormedEntry (e : Message) : Prop where
  eq : e = [.scalars (entryKey e), valueOf e]
  key : fits keyFds.cppType (keyOf keyFds e) = true
  stored : keyFds.stored (keyOf keyFds e) = entryKey e
  value : wellFormedData pool valueFds (valueOf e) = true
  isSet : (valueOf e).isSet = true ∨ valueFds.hasPresence = false ∧ valueFds.cppType ≠ .message

variable {f load dump pool keyFds valueFds}

theorem EntryFields.key_ne_message (hentry : EntryFields keyFds valueFds) :
    keyFds.cppType ≠ .message := by
  intro heq
  have hmem := hentry.keyType
  simp [heq, mapKeyTypes] at hmem

theorem EntryFields.key_ne_enum (hentry : EntryFields keyFds valueFds) :
    keyFds.cppType ≠ .enum := by
  intro heq
  have hmem := hentry.keyType
  simp [heq, mapKeyTypes] at hmem

theorem wellFormedEntry_of_fields (hentry : EntryFields keyFds valueFds) {e : Message}
    (hwf : wellFormedFields pool [keyFds, valueFds] e = true) (hvalue : valuePresent e = true) :
    WellFormedEntry pool keyFds valueFds e := by
  have hlen := wellFormedFields_length hwf
  obtain ⟨k, v, rfl⟩ := List.length_eq_two.1 hlen
  simp only [wellFormedFields, Bool.and_true, Bool.and_eq_true] at hwf
  obtain ⟨hk, hv⟩ := hwf
  cases k with
  | messages ms => simp [wellFormedData, hentry.key_ne_message] at hk
  | scalars key =>
    simp only [wellFormedData, Bool.and_eq_true, decide_eq_true_eq, hentry.keyRepeated,
      Bool.false_or, hentry.keyPresence, Bool.not_eq_true'] at hk
    obtain ⟨⟨-, hfits⟩, hone, hdefault⟩ := hk
    refine ⟨rfl, ?_, ?_, hv, ?_⟩
    · obtain rfl | ⟨k, rfl⟩ := eq_nil_or_singleton hone
      · exact fits_defaultValue hentry.key_ne_message
      · simpa [keyOf, entryKey] using hfits
    · obtain rfl | ⟨k, rfl⟩ := eq_nil_or_singleton hone
      · simp [FieldDescriptor.stored, keyOf, entryKey, hentry.keyPresence]
      · refine if_neg ?_
        rintro ⟨-, hk⟩
        simp only [keyOf, entryKey, List.headD_cons] at hk
        simp [hk] at hdefault
    · cases v with
      | scalars values =>
        have htype : valueFds.cppType ≠ .message := by
          intro heq
          simp [wellFormedData, heq] at hv
        exact .inr ⟨hentry.valuePresence htype, htype⟩
      | messages values =>
        left
        cases values with
        | nil => simp [valuePresent] at hvalue
        | cons m ms => rfl

/-! ### Writing -/

theorem loadScalar_ne_null (type : CppType) (v : Scalar) : loadScalar f load type v ≠ .null := by
  cases v with
  | int n => cases type <;> simp only [loadScalar] <;> (try split) <;> simp
  | bool b => simp [loadScalar]
  | string s => simp only [loadScalar, loadFieldStringFilter]; split <;> simp

theorem loadFieldItem_ne_null {fds : FieldDescriptor} (hrep : fds.isRepeated = false)
    (hmap : fds.isMap = false) {d : FieldData} (hwf : wellFormedData pool fds d = true) :
    loadFieldItem f load pool fds d ≠ .null := by
  cases d with
  | scalars values =>
    simp only [loadFieldItem, hrep, Bool.false_eq_true, if_false]
    exact loadScalar_ne_null _ _
  | messages values =>
    simp only [wellFormedData, Bool.and_eq_true, decide_eq_true_eq, hrep, Bool.false_or] at hwf
    obtain rfl | ⟨m, rfl⟩ := eq_nil_or_singleton hwf.1.1.2
    · simp [loadFieldItem, loadMessages, hmap, hrep]
    · rw [loadFieldItem_message hrep hmap, rapidjsonLoaderLoadFrom_eq]
      simp

/-- The map is written entry by entry. -/
theorem loadMap_eq (hentry : EntryFields keyFds valueFds) {entries : List Message}
    (hwf : ∀ e ∈ entries, WellFormedEntry pool keyFds valueFds e) :
    loadMap f keyFds entries (loadItemsOfAll f load pool [keyFds, valueFds] entries)
      = entries.foldl (fun members e => mutableSetMember members
          (entryMember f load pool keyFds valueFds e).1 (entryMember f load pool keyFds valueFds e).2)
          [] := by
  unfold loadMap
  rw [loadItemsOfAll_eq]
  generalize ([] : List (Bytes × Json)) = members
  induction entries generalizing members with
  | nil => rfl
  | cons e entries ih =>
    have he := hwf e (List.mem_cons_self ..)
    have hitem : loadItems f load pool [keyFds, valueFds] e
        = [loadScalar f load keyFds.cppType (keyOf keyFds e),
          loadFieldItem f load pool valueFds (valueOf e)] := by
      rw [he.eq]
      simp [loadItems, loadFieldItem, hentry.keyRepeated, keyOf, entryKey, valueOf]
    have hround : loadMapEntry f keyFds members (keyOf keyFds e)
        (loadScalar f load keyFds.cppType (keyOf keyFds e))
        (loadFieldItem f load pool valueFds (valueOf e))
        = mutableSetMember members (entryMember f load pool keyFds valueFds e).1
            (entryMember f load pool keyFds valueFds e).2 := by
      have hkey : loadScalar f load keyFds.cppType (keyOf keyFds e) ≠ .null :=
        loadScalar_ne_null _ _
      have hvalue : loadFieldItem f load pool valueFds (valueOf e) ≠ .null :=
        loadFieldItem_ne_null hentry.valueRepeated hentry.valueMap he.value
      unfold entryMember memberName loadMapEntry
      grind
    rw [List.map_cons, List.zip_cons_cons, List.foldl_cons, List.foldl_cons, hitem]
    simp only []
    rw [show (entryKey e).headD keyFds.defaultValue = keyOf keyFds e from rfl, hround]
    exact ih (fun e' he' => hwf e' (List.mem_cons_of_mem _ he')) _

/-! ### Reading -/

/-- The key that is read from the name that is written for a key. -/
theorem dumpScalar_memberName (h : Matching f load dump) (hentry : EntryFields keyFds valueFds)
    {key : Scalar} (hfits : fits keyFds.cppType key = true) (htrue : key ≠ .bool true) :
    dumpScalar f dump keyFds (.string (memberName f load keyFds key)) = some key := by
  have hmem := hentry.keyType
  cases key with
  | int n =>
    have hrange : inRange keyFds.cppType n = true := by
      cases htype : keyFds.cppType <;> simpa [htype, fits] using hfits
    have hname : memberName f load keyFds (.int n) = f.int2str n := by
      unfold memberName loadScalar loadFieldItemToMapString
      cases htype : keyFds.cppType with
      | int64 | uint32 | uint64 => simp only []; split <;> (rename_i heq; split at heq) <;> simp_all
      | int32 => simp
      | enum => exact absurd htype hentry.key_ne_enum
      | bool | string | message => simp [htype, inRange] at hrange
    have hread := dumpInt_text h hrange
    rw [hname]
    cases htype : keyFds.cppType with
    | int32 | int64 | uint32 | uint64 => rw [htype] at hread; simp [dumpScalar, htype, hread]
    | enum => exact absurd htype hentry.key_ne_enum
    | bool | string | message => simp [htype, inRange] at hrange
  | bool b =>
    have htype : keyFds.cppType = .bool := by
      cases htype : keyFds.cppType <;> simp_all [fits]
    have hb : b = false := by simpa using htrue
    simp [dumpScalar, htype, hb, Json.bool?]
  | string s =>
    have htype : keyFds.cppType = .string := by
      cases htype : keyFds.cppType <;> simp_all [fits]
    have hname : .string (memberName f load keyFds (.string s)) = loadFieldStringFilter f load s := by
      simp only [memberName, loadScalar, loadFieldStringFilter]
      cases load.stringMode <;> rfl
    rw [hname]
    simp [dumpScalar, htype, dumpPickFieldStringFilter_load h]

/-- A key of a bool is read as false, whatever the name of the member is. -/
theorem dumpScalar_bool_name (htype : keyFds.cppType = .bool) (name : Bytes) :
    dumpScalar f dump keyFds (.string name) = some (.bool false) := by
  simp [dumpScalar, htype, Json.bool?]

/-- The entry that is read from a member, key first. -/
theorem dumpEntry_eq (hentry : EntryFields keyFds valueFds)
    {dumpTo : Nat → Json → Message → Message} {member : Bytes × Json} {key : Scalar}
    (hkey : dumpScalar f dump keyFds (.string member.1) = some key) :
    dumpEntry f dump pool dumpTo keyFds valueFds member
      = dumpPickField f dump pool dumpTo [keyFds, valueFds] member.2
          [.scalars (keyFds.stored key), valueFds.emptyData] valueFds 1 := by
  have hempty : keyFds.emptyData = .scalars [] := if_neg hentry.key_ne_message
  have hstep : dumpPickField f dump pool dumpTo [keyFds, valueFds] (.string member.1)
      (emptyMessage [keyFds, valueFds]) keyFds 0
      = [.scalars (keyFds.stored key), valueFds.emptyData] := by
    simp [dumpPickField, emptyMessage, hempty, hkey, hentry.keyRepeated, setField, hentry.keyOneof]
  simp only [dumpEntry, hstep]

/-- Reading the value of an entry leaves its key alone. -/
theorem entryKey_dumpPickField (hentry : EntryFields keyFds valueFds)
    {dumpTo : Nat → Json → Message → Message} (val : Json) (key : List Scalar) (d : FieldData) :
    entryKey (dumpPickField f dump pool dumpTo [keyFds, valueFds] val [.scalars key, d] valueFds 1)
      = key := by
  unfold dumpPickField
  cases d with
  | scalars values =>
    simp only [List.getElem?_cons_succ, List.getElem?_cons_zero, hentry.valueRepeated]
    split
    · rfl
    · simp [setField, hentry.valueOneof, entryKey]
  | messages values =>
    simp only [List.getElem?_cons_succ, List.getElem?_cons_zero, hentry.valueRepeated]
    split
    · simp [setField, hentry.valueOneof, entryKey]
    · rfl

/-- `true` is no default, so it is kept. -/
theorem WellFormedEntry.keyOf_ne_true {e : Message} (he : WellFormedEntry pool keyFds valueFds e)
    (htrue : entryKey e ≠ [.bool true]) : keyOf keyFds e ≠ .bool true := by
  intro heq
  have hstored := he.stored
  have hdefault : Scalar.bool true ≠ keyFds.defaultValue := by
    unfold FieldDescriptor.defaultValue
    cases keyFds.cppType <;> simp
  rw [heq, FieldDescriptor.stored, if_neg fun hboth => hdefault hboth.2] at hstored
  exact htrue hstored.symm

variable {n : Nat}

/-- An entry whose key is not `true` comes back exactly if its value does. -/
theorem dumpEntry_entryMember (h : Matching f load dump) (ih : ReadsBack f load dump pool n)
    (hentry : EntryFields keyFds valueFds) {e : Message}
    (he : WellFormedEntry pool keyFds valueFds e) (htrue : entryKey e ≠ [.bool true])
    (hdepth : depth (entryMember f load pool keyFds valueFds e).2 ≤ n) :
    entryKey (dumpEntry f dump pool (dumpTo f dump pool n) keyFds valueFds
        (entryMember f load pool keyFds valueFds e)) = entryKey e ∧
      (dumpEntry f dump pool (dumpTo f dump pool n) keyFds valueFds
        (entryMember f load pool keyFds valueFds e) = e ↔
        representableFields pool [keyFds, valueFds] e = true) := by
  have hkeytrue : keyOf keyFds e ≠ .bool true := he.keyOf_ne_true htrue
  have hname : dumpScalar f dump keyFds (.string (entryMember f load pool keyFds valueFds e).1)
      = some (keyOf keyFds e) := dumpScalar_memberName h hentry he.key hkeytrue
  have hread : dumpEntry f dump pool (dumpTo f dump pool n) keyFds valueFds
      (entryMember f load pool keyFds valueFds e)
      = dumpPickField f dump pool (dumpTo f dump pool n) [keyFds, valueFds]
          (entryMember f load pool keyFds valueFds e).2
          [.scalars (keyFds.stored (keyOf keyFds e)), valueFds.emptyData] valueFds 1 :=
    dumpEntry_eq hentry hname
  rw [he.stored] at hread
  have hsetField : ∀ d', setField [keyFds, valueFds] [.scalars (entryKey e), valueFds.emptyData]
      valueFds 1 d' = [.scalars (entryKey e), d'] := by
    intro d'
    simp [setField, hentry.valueOneof]
  obtain ⟨d', hpick, hback⟩ := dumpPickField_loadFieldItem h ih hentry.valueRepeated
    hentry.valueMap he.value he.isSet hdepth rfl hsetField
  have hall : (entryKey e).all (known keyFds) = true := by
    rw [List.all_eq_true]
    intro key _
    cases key <;> simp [known, hentry.key_ne_enum]
  have hfields : representableFields pool [keyFds, valueFds] [.scalars (entryKey e), valueOf e]
      = representableData pool valueFds (valueOf e) := by
    simp only [representableFields, representableData, hall, Bool.true_and, Bool.and_true]
  have hrep : representableFields pool [keyFds, valueFds] e
      = representableData pool valueFds (valueOf e) :=
    (congrArg (representableFields pool [keyFds, valueFds]) he.eq).trans hfields
  rw [hread, entryMember, hpick, hrep, ← hback]
  refine ⟨rfl, ?_⟩
  constructor
  · intro heq
    rw [← heq]
    rfl
  · intro heq
    rw [heq]
    exact he.eq.symm

/-- Keys that are not `true` have names of their own. -/
theorem nodup_memberName (h : Matching f load dump) (hentry : EntryFields keyFds valueFds)
    {entries : List Message} (hwf : ∀ e ∈ entries, WellFormedEntry pool keyFds valueFds e)
    (htrue : ∀ e ∈ entries, keyOf keyFds e ≠ .bool true)
    (hnodup : (entries.map entryKey).Nodup) :
    (entries.map fun e => (entryMember f load pool keyFds valueFds e).1).Nodup := by
  rw [List.Nodup, List.pairwise_map] at hnodup ⊢
  refine hnodup.imp_of_mem ?_
  intro e e' he he' hne heq
  have hread := dumpScalar_memberName h hentry (hwf e he).key (htrue e he)
  have hread' := dumpScalar_memberName h hentry (hwf e' he').key (htrue e' he')
  simp only [entryMember] at heq
  rw [heq, hread', Option.some.injEq] at hread
  exact hne (by rw [← (hwf e he).stored, ← (hwf e' he').stored, hread])

end Map

end LibAtapp.Rapidjson
