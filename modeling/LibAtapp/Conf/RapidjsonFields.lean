import LibAtapp.Conf.Rapidjson

set_option autoImplicit false

/-! # Fields that come back from their documents

What a message in memory is, which of its values a document keeps, and how the fields that are not
maps are read back. A message is read back from the document up to a nesting, so that its own fields
may have messages in them. -/

namespace LibAtapp.Rapidjson

open ProtobufEqual (CppType mapKeyTypes)

/-! ## What a program can hold -/

/-- The value has the type of the field. -/
def fits : CppType → Scalar → Bool
  | .bool, .bool _ | .string, .string _ => true
  | type, .int n => inRange type n
  | _, _ => false

/-- The value of an entry of a map is there if it is a message. -/
def valuePresent : Message → Bool
  | [_, .messages []] => false
  | _ => true

/-- At most one member of a oneof is set. -/
def oneofsExclusive (fdss : List FieldDescriptor) (m : Message) : Bool :=
  (fdss.zip m).Pairwise fun a b => a.2.isSet = true → b.2.isSet = true →
    a.1.containingOneof = none ∨ a.1.containingOneof ≠ b.1.containingOneof

mutual

/-- The values have the type of the field, a field that is not repeated has at most one, a default
    is kept only with presence, and the keys of a map are distinct. -/
def wellFormedData (pool : DescriptorPool) (fds : FieldDescriptor) : FieldData → Bool
  | .scalars values => fds.cppType ≠ .message && values.all (fits fds.cppType) &&
    (fds.isRepeated ||
      values.length ≤ 1 && (fds.hasPresence || !values.contains fds.defaultValue))
  | .messages values => fds.cppType = .message && (fds.isRepeated || values.length ≤ 1) &&
    (!fds.isMap || (values.map entryKey).Nodup && values.all valuePresent) &&
    wellFormedAll pool (pool.fields fds.messageType) values

def wellFormedFields (pool : DescriptorPool) : List FieldDescriptor → Message → Bool
  | [], [] => true
  | fds :: fdss, d :: ds => wellFormedData pool fds d && wellFormedFields pool fdss ds
  | _, _ => false

def wellFormedAll (pool : DescriptorPool) (fdss : List FieldDescriptor) : List Message → Bool
  | [] => true
  | m :: ms =>
    wellFormedFields pool fdss m && oneofsExclusive fdss m && wellFormedAll pool fdss ms

end

/-- A message as it can be in memory. -/
def wellFormed (pool : DescriptorPool) (t : Nat) (m : Message) : Bool :=
  wellFormedFields pool (pool.fields t) m && oneofsExclusive (pool.fields t) m

/-! ## What comes back -/

/-- The enum has a value with the number. -/
def known (fds : FieldDescriptor) : Scalar → Bool
  | .int n => fds.cppType ≠ .enum || n ∈ fds.enumNumbers
  | _ => true

mutual

/-- The enums know their numbers, and no map has the key `true`. -/
def representableData (pool : DescriptorPool) (fds : FieldDescriptor) : FieldData → Bool
  | .scalars values => values.all (known fds)
  | .messages values => (!fds.isMap || values.all fun e => entryKey e ≠ [.bool true]) &&
    representableAll pool (pool.fields fds.messageType) values

def representableFields (pool : DescriptorPool) : List FieldDescriptor → Message → Bool
  | fds :: fdss, d :: ds => representableData pool fds d && representableFields pool fdss ds
  | _, _ => true

def representableAll (pool : DescriptorPool) (fdss : List FieldDescriptor) : List Message → Bool
  | [] => true
  | m :: ms => representableFields pool fdss m && representableAll pool fdss ms

end

/-- A message that its document stands for. -/
def representable (pool : DescriptorPool) (t : Nat) (m : Message) : Bool :=
  representableFields pool (pool.fields t) m

/-! ## The definitions as statements about the fields -/

section Fields

variable {pool : DescriptorPool} {fdss : List FieldDescriptor}

theorem wellFormedAll_iff {ms : List Message} : wellFormedAll pool fdss ms = true ↔
    ∀ m ∈ ms, wellFormedFields pool fdss m = true ∧ oneofsExclusive fdss m = true := by
  induction ms with
  | nil => simp [wellFormedAll]
  | cons m ms ih => simp [wellFormedAll, ih]

theorem representableAll_iff {ms : List Message} : representableAll pool fdss ms = true ↔
    ∀ m ∈ ms, representableFields pool fdss m = true := by
  induction ms with
  | nil => simp [representableAll]
  | cons m ms ih => simp [representableAll, ih]

theorem wellFormedFields_length {m : Message} (h : wellFormedFields pool fdss m = true) :
    m.length = fdss.length := by
  induction fdss generalizing m with
  | nil => cases m with
    | nil => rfl
    | cons d ds => simp [wellFormedFields] at h
  | cons fds fdss ih => cases m with
    | nil => simp [wellFormedFields] at h
    | cons d ds =>
      simp only [wellFormedFields, Bool.and_eq_true] at h
      simp [ih h.2]

theorem wellFormedData_of_getElem? {m : Message} (h : wellFormedFields pool fdss m = true)
    {j : Nat} {fds : FieldDescriptor} {d : FieldData} (hfds : fdss[j]? = some fds)
    (hd : m[j]? = some d) : wellFormedData pool fds d = true := by
  induction fdss generalizing m j with
  | nil => simp at hfds
  | cons fds' fdss ih => cases m with
    | nil => simp at hd
    | cons d' ds =>
      simp only [wellFormedFields, Bool.and_eq_true] at h
      cases j with
      | zero =>
        simp only [List.getElem?_cons_zero, Option.some.injEq] at hfds hd
        exact hfds ▸ hd ▸ h.1
      | succ j => exact ih h.2 hfds hd

theorem representableFields_iff {m : Message} (hlen : m.length = fdss.length) :
    representableFields pool fdss m = true ↔ ∀ (j : Nat) (fds : FieldDescriptor) (d : FieldData),
      fdss[j]? = some fds → m[j]? = some d → representableData pool fds d = true := by
  induction fdss generalizing m with
  | nil => simp [representableFields]
  | cons fds fdss ih => cases m with
    | nil => simp at hlen
    | cons d ds =>
      simp only [representableFields, Bool.and_eq_true, ih (by simpa using hlen)]
      constructor
      · rintro ⟨hhead, htail⟩ j fds' d' hfds hd
        cases j with
        | zero =>
          simp only [List.getElem?_cons_zero, Option.some.injEq] at hfds hd
          exact hfds ▸ hd ▸ hhead
        | succ j => exact htail j fds' d' hfds hd
      · intro h
        exact ⟨h 0 fds d rfl rfl, fun j fds' d' => h (j + 1) fds' d'⟩

variable (f : TextFunctions) (options : LoadOptions)

theorem loadItemsOfAll_eq (ms : List Message) :
    loadItemsOfAll f options pool fdss ms = ms.map (loadItems f options pool fdss) := by
  induction ms with
  | nil => rfl
  | cons m ms ih => simp [loadItemsOfAll, ih]

theorem loadItems_eq (m : Message) :
    loadItems f options pool fdss m = List.zipWith (loadFieldItem f options pool) fdss m := by
  induction fdss generalizing m with
  | nil => simp [loadItems]
  | cons fds fdss ih => cases m with
    | nil => simp [loadItems]
    | cons d ds => simp [loadItems, ih]

end Fields

/-! ## The members of an object -/

/-- With names of their own the members are appended in turn. -/
theorem mutableSetMember_foldl {α : Type} (name : α → Bytes) (item : α → Json) (xs : List α)
    (members : List (Bytes × Json)) (hnodup : (members.map Prod.fst ++ xs.map name).Nodup) :
    xs.foldl (fun members x => mutableSetMember members (name x) (item x)) members
      = members ++ xs.map fun x => (name x, item x) := by
  induction xs generalizing members with
  | nil => simp
  | cons x xs ih =>
    have hnew : name x ∉ members.map Prod.fst := by
      intro hmem
      exact (List.nodup_append.1 hnodup).2.2 _ hmem _ (List.mem_cons_self ..) rfl
    have hset : mutableSetMember members (name x) (item x) = members ++ [(name x, item x)] :=
      if_neg hnew
    rw [List.foldl_cons, hset, ih]
    · simp
    · simpa using hnodup

theorem map_fst_zip_sublist {α β : Type} (xs : List α) (ys : List β) :
    ((xs.zip ys).map Prod.fst).Sublist xs := by
  induction xs generalizing ys with
  | nil => simp
  | cons x xs ih => cases ys with
    | nil => simp
    | cons y ys => simpa using ih ys

theorem lookup_of_mem {members : List (Bytes × Json)} {name : Bytes} {item : Json}
    (hnodup : (members.map Prod.fst).Nodup) (hmem : (name, item) ∈ members) :
    members.lookup name = some item := by
  induction members with
  | nil => simp at hmem
  | cons member members ih =>
    simp only [List.map_cons, List.nodup_cons] at hnodup
    rcases List.mem_cons.1 hmem with heq | hmem'
    · rw [← heq, List.lookup_cons_self]
    · have hne : name ≠ member.1 := by
        intro heq
        exact hnodup.1 (heq ▸ List.mem_map_of_mem hmem')
      rw [List.lookup_cons, beq_false_of_ne hne]
      exact ih hnodup.2 hmem'

section Members

variable {fdss : List FieldDescriptor} {m : Message} {items : List Json}

theorem mem_listFields {fds : FieldDescriptor} {item : Json} :
    (fds, item) ∈ listFields fdss m items ↔ ∃ (j : Nat) (d : FieldData),
      fdss[j]? = some fds ∧ m[j]? = some d ∧ items[j]? = some item ∧ d.isSet = true := by
  simp only [listFields, List.mem_insertionSort, List.mem_map, List.mem_filter]
  constructor
  · rintro ⟨⟨fds', d, item'⟩, ⟨hmem, hset⟩, heq⟩
    obtain ⟨rfl, rfl⟩ := Prod.mk.inj heq
    obtain ⟨j, hj⟩ := List.mem_iff_getElem?.1 hmem
    obtain ⟨hfds, hrest⟩ := List.getElem?_zip_eq_some.1 hj
    obtain ⟨hd, hitem⟩ := List.getElem?_zip_eq_some.1 hrest
    exact ⟨j, d, hfds, hd, hitem, hset⟩
  · rintro ⟨j, d, hfds, hd, hitem, hset⟩
    have hrest : (m.zip items)[j]? = some (d, item) := List.getElem?_zip_eq_some.2 ⟨hd, hitem⟩
    have hj : (fdss.zip (m.zip items))[j]? = some (fds, d, item) :=
      List.getElem?_zip_eq_some.2 ⟨hfds, hrest⟩
    exact ⟨(fds, d, item), ⟨List.mem_iff_getElem?.2 ⟨j, hj⟩, hset⟩, rfl⟩

theorem nodup_listFields (hnames : (fdss.map FieldDescriptor.name).Nodup) :
    ((listFields fdss m items).map fun p => p.1.name).Nodup := by
  have hperm := List.perm_insertionSort (fun a b => a.1.number ≤ b.1.number)
    (((fdss.zip (m.zip items)).filter fun (_, d, _) => d.isSet).map fun (fds, _, item) => (fds, item))
  refine ((hperm.map fun p => p.1.name).nodup_iff).2 ?_
  have hsub : List.Sublist (((fdss.zip (m.zip items)).filter fun (_, d, _) => d.isSet).map
      fun p => p.1.name) (fdss.map FieldDescriptor.name) := by
    refine (List.Sublist.map _ List.filter_sublist).trans ?_
    rw [show (fun p : FieldDescriptor × FieldData × Json => p.1.name)
      = FieldDescriptor.name ∘ Prod.fst from rfl, ← List.map_map]
    exact (map_fst_zip_sublist fdss (m.zip items)).map _
  simpa [List.map_map, Function.comp_def] using hnames.sublist hsub

/-- The members that are written for a message. -/
def writtenMembers (fdss : List FieldDescriptor) (m : Message) (items : List Json) :
    List (Bytes × Json) :=
  (listFields fdss m items).map fun p => (p.1.name, p.2)

theorem loadFields_eq (hnames : (fdss.map FieldDescriptor.name).Nodup) :
    loadFields fdss m items = .object (writtenMembers fdss m items) := by
  have hfold := mutableSetMember_foldl (fun p : FieldDescriptor × Json => p.1.name) Prod.snd
    (listFields fdss m items) [] (by simpa using nodup_listFields hnames)
  simp only [List.nil_append] at hfold
  exact congrArg Json.object hfold

/-- A field that is set is found by its name, and no other is. -/
theorem lookup_writtenMembers (hnames : (fdss.map FieldDescriptor.name).Nodup) {j : Nat}
    {fds : FieldDescriptor} {d : FieldData} {item : Json} (hfds : fdss[j]? = some fds)
    (hd : m[j]? = some d) (hitem : items[j]? = some item) :
    (writtenMembers fdss m items).lookup fds.name = if d.isSet then some item else none := by
  have hnodup : ((writtenMembers fdss m items).map Prod.fst).Nodup := by
    simpa [writtenMembers, List.map_map, Function.comp_def] using nodup_listFields hnames
  split
  · rename_i hset
    refine lookup_of_mem hnodup ?_
    exact List.mem_map.2 ⟨(fds, item), mem_listFields.2 ⟨j, d, hfds, hd, hitem, hset⟩, rfl⟩
  · rename_i hset
    rw [List.lookup_eq_none_iff]
    rintro ⟨name, item'⟩ hmem
    obtain ⟨⟨fds', item''⟩, hmem', heq⟩ := List.mem_map.1 hmem
    obtain ⟨rfl, rfl⟩ := Prod.mk.inj heq
    obtain ⟨j', d', hfds', hd', -, hset'⟩ := mem_listFields.1 hmem'
    rw [bne_iff_ne]
    intro hname
    -- two fields of one name are one field
    have hj : j = j' := by
      refine (List.getElem?_inj (by simpa using (List.getElem?_eq_some_iff.1 hfds).1) hnames).1 ?_
      simp [hfds, hfds', hname]
    subst hj
    rw [hd] at hd'
    exact hset (Option.some.inj hd' ▸ hset')

end Members

/-! ## Scalars -/

/-- Options under which what is written can be read: the same string mode on both sides, and numbers
    may be read from texts, as they are by default. -/
structure Matching (f : TextFunctions) (load : LoadOptions) (dump : DumpOptions) : Prop where
  lawful : f.Lawful
  stringMode : dump.stringMode = load.stringMode
  convert : dump.convertNumberFromString = true

section Scalars

variable {f : TextFunctions} {load : LoadOptions} {dump : DumpOptions}
variable (h : Matching f load dump)

include h

theorem dumpPickFieldStringFilter_load (s : Bytes) :
    dumpPickFieldStringFilter f dump (loadFieldStringFilter f load s) = s := by
  unfold loadFieldStringFilter
  cases hmode : load.stringMode with
  | raw => simp [dumpPickFieldStringFilter, h.stringMode, hmode]
  | uri => simp [dumpPickFieldStringFilter, h.stringMode, hmode, h.lawful.uri]
  | uriComponent => simp [dumpPickFieldStringFilter, h.stringMode, hmode, h.lawful.uriComponent]

theorem dumpInt_text {type : CppType} {n : Int} (hrange : inRange type n = true) :
    dumpInt f dump type (.string (f.int2str n)) = n := by
  simp [dumpInt, h.convert, h.lawful.int type n hrange]

theorem dumpInt_loadScalar {type : CppType} {n : Int} (hrange : inRange type n = true) :
    dumpInt f dump type (loadScalar f load type (.int n)) = n := by
  have hint : dumpInt f dump type (.int n) = n := by simp [dumpInt, hrange]
  have htext := dumpInt_text h hrange
  unfold loadScalar
  cases type with
  | int64 | uint32 | uint64 =>
    simp only []
    split
    · exact htext
    · exact hint
  | int32 | enum | bool | string | message => exact hint

/-- A value comes back, unless its enum does not know it. -/
theorem dumpScalar_loadScalar {fds : FieldDescriptor} {v : Scalar}
    (hfits : fits fds.cppType v = true) :
    dumpScalar f dump fds (loadScalar f load fds.cppType v)
      = if known fds v then some v else none := by
  cases v with
  | int n =>
    have hread : inRange fds.cppType n = true →
        dumpInt f dump fds.cppType (loadScalar f load fds.cppType (.int n)) = n :=
      dumpInt_loadScalar h
    cases htype : fds.cppType with
    | int32 | int64 | uint32 | uint64 =>
      rw [htype] at hread hfits
      simp [dumpScalar, known, htype, hread hfits]
    | enum =>
      rw [htype] at hfits
      have hrange : inRange .int32 n = true := hfits
      simp [dumpScalar, known, htype, loadScalar, hrange]
    | bool | string | message => simp [htype, fits, inRange] at hfits
  | bool b =>
    cases htype : fds.cppType with
    | bool => simp [dumpScalar, known, htype, loadScalar, Json.bool?]
    | int32 | int64 | uint32 | uint64 | enum | string | message => simp [htype, fits] at hfits
  | string s =>
    cases htype : fds.cppType with
    | string =>
      simp [dumpScalar, known, htype, loadScalar, dumpPickFieldStringFilter_load h]
    | int32 | int64 | uint32 | uint64 | enum | bool | message => simp [htype, fits] at hfits

end Scalars

/-! ## Reading into a field in which nothing is set -/

theorem set_of_getElem?_eq {α : Type} {xs : List α} {i : Nat} {x : α} (h : xs[i]? = some x) :
    xs.set i x = xs := by
  obtain ⟨hi, rfl⟩ := List.getElem?_eq_some_iff.1 h
  exact List.set_getElem_self hi

/-- With the other members of its oneof unset a field is just set. -/
theorem setField_eq_set {fdss : List FieldDescriptor} {m : Message} {fds : FieldDescriptor} {i : Nat}
    {d : FieldData} (hlen : m.length = fdss.length)
    (hclear : ∀ (j : Nat) (other : FieldDescriptor), j ≠ i → fdss[j]? = some other →
      fds.containingOneof ≠ none → other.containingOneof = fds.containingOneof →
      m[j]? = some other.emptyData) :
    setField fdss m fds i d = m.set i d := by
  unfold setField
  cases honeof : fds.containingOneof with
  | none => rfl
  | some oneof =>
    refine List.ext_getElem? fun j => ?_
    by_cases hj : i = j
    · subst hj
      simp [List.getElem?_set, hlen]
    · rw [List.getElem?_set_ne hj, List.getElem?_set_ne hj, List.getElem?_zipWith]
      cases hother : fdss[j]? with
      | none =>
        have hnone : m[j]? = none := by
          rw [List.getElem?_eq_none_iff] at hother ⊢
          omega
        simp [hnone]
      | some other =>
        cases hd : m[j]? with
        | none => rfl
        | some d' =>
          have hcleared := hclear j other (Ne.symm hj) hother (by simp [honeof])
          simp only [honeof, hd, Option.some.injEq] at hcleared
          by_cases hmember : other.containingOneof = some oneof
          · simp [hmember, hcleared hmember]
          · simp [hmember]

section Read

variable {f : TextFunctions} {dump : DumpOptions} {pool : DescriptorPool}
variable {dumpTo : Nat → Json → Message → Message} {fdss : List FieldDescriptor}

/-- The elements of a repeated scalar field are added in turn. -/
theorem dumpPickField_foldl_scalars {fds : FieldDescriptor} (hrep : fds.isRepeated = true)
    (items : List Json) {dst : Message} {i : Nat} {values : List Scalar}
    (hdst : dst[i]? = some (.scalars values)) :
    items.foldl (fun dst item => dumpPickField f dump pool dumpTo fdss item dst fds i) dst
      = dst.set i (.scalars (values ++ items.filterMap (dumpScalar f dump fds))) := by
  have hi : i < dst.length := (List.getElem?_eq_some_iff.1 hdst).1
  induction items generalizing dst values with
  | nil =>
    simp [set_of_getElem?_eq hdst]
  | cons item items ih =>
    rw [List.foldl_cons, List.filterMap_cons]
    cases hv : dumpScalar f dump fds item with
    | none =>
      have hstep : dumpPickField f dump pool dumpTo fdss item dst fds i = dst := by
        simp [dumpPickField, hdst, hv]
      rw [hstep, ih hdst hi]
    | some v =>
      have hstep : dumpPickField f dump pool dumpTo fdss item dst fds i
          = dst.set i (.scalars (values ++ [v])) := by
        simp [dumpPickField, hdst, hv, hrep]
      rw [hstep, ih (List.getElem?_set_self hi) (by simpa using hi)]
      simp

/-- The elements of a repeated message field that is no map are added in turn. -/
theorem dumpPickField_foldl_messages {fds : FieldDescriptor} (hrep : fds.isRepeated = true)
    (hmap : fds.isMap = false) {α : Type} (object : α → List (Bytes × Json)) (xs : List α)
    {dst : Message} {i : Nat} {values : List Message}
    (hdst : dst[i]? = some (.messages values)) :
    (xs.map fun x => Json.object (object x)).foldl
        (fun dst item => dumpPickField f dump pool dumpTo fdss item dst fds i) dst
      = dst.set i (.messages (values ++ xs.map fun x =>
          dumpTo fds.messageType (.object (object x)) (emptyMessage (pool.fields fds.messageType)))) := by
  have hi : i < dst.length := (List.getElem?_eq_some_iff.1 hdst).1
  induction xs generalizing dst values with
  | nil =>
    simp [set_of_getElem?_eq hdst]
  | cons x xs ih =>
    have hstep : dumpPickField f dump pool dumpTo fdss (.object (object x)) dst fds i
        = dst.set i (.messages (values ++ [dumpTo fds.messageType (.object (object x))
            (emptyMessage (pool.fields fds.messageType))])) := by
      simp [dumpPickField, hdst, hrep, addMessage, hmap]
    rw [List.map_cons, List.foldl_cons, hstep,
      ih (List.getElem?_set_self hi) (by simpa using hi)]
    simp

end Read

/-! ## One field -/

theorem eq_nil_or_singleton {α : Type} {xs : List α} (h : xs.length ≤ 1) :
    xs = [] ∨ ∃ x, xs = [x] := by
  cases xs with
  | nil => exact .inl rfl
  | cons x xs => cases xs with
    | nil => exact .inr ⟨x, rfl⟩
    | cons y ys => simp at h

theorem fits_defaultValue {fds : FieldDescriptor} (htype : fds.cppType ≠ .message) :
    fits fds.cppType fds.defaultValue = true := by
  unfold FieldDescriptor.defaultValue
  cases h : fds.cppType with
  | message => exact absurd h htype
  | int32 | int64 | uint32 | uint64 | enum | bool | string => simp [fits, inRange]

section Field

variable (f : TextFunctions) (load : LoadOptions) (dump : DumpOptions) (pool : DescriptorPool)

/-- Up to a nesting, a message comes back exactly if it is representable. -/
def ReadsBack (n : Nat) : Prop :=
  ∀ (t : Nat) (m : Message), wellFormed pool t m = true →
    depth (rapidjsonLoaderLoadFrom f load pool t m) ≤ n →
    (dumpTo f dump pool n t (rapidjsonLoaderLoadFrom f load pool t m)
      (emptyMessage (pool.fields t)) = m ↔ representable pool t m = true)

variable {f load dump pool}

/-- The object that is written for a message. -/
theorem rapidjsonLoaderLoadFrom_eq (t : Nat) (m : Message) :
    rapidjsonLoaderLoadFrom f load pool t m
      = .object (writtenMembers (pool.fields t) m (loadItems f load pool (pool.fields t) m)) :=
  loadFields_eq (pool.names t)

theorem zipWith_loadFields (t : Nat) (ms : List Message) :
    List.zipWith (loadFields (pool.fields t)) ms (loadItemsOfAll f load pool (pool.fields t) ms)
      = ms.map (rapidjsonLoaderLoadFrom f load pool t) := by
  rw [loadItemsOfAll_eq]
  induction ms with
  | nil => rfl
  | cons m ms ih => simpa using ⟨rfl, ih⟩

theorem loadFieldItem_message {fds : FieldDescriptor} (hrep : fds.isRepeated = false)
    (hmap : fds.isMap = false) (m : Message) :
    loadFieldItem f load pool fds (.messages [m])
      = rapidjsonLoaderLoadFrom f load pool fds.messageType m := by
  simp [loadFieldItem, loadMessages, hmap, hrep, zipWith_loadFields]

theorem loadFieldItem_repeated_messages {fds : FieldDescriptor} (hrep : fds.isRepeated = true)
    (hmap : fds.isMap = false) (ms : List Message) :
    loadFieldItem f load pool fds (.messages ms)
      = .array (ms.map (rapidjsonLoaderLoadFrom f load pool fds.messageType)) := by
  simp [loadFieldItem, loadMessages, hmap, hrep, zipWith_loadFields]

variable {n : Nat} {fdss : List FieldDescriptor} {fds : FieldDescriptor} {dst : Message} {i : Nat}

/-- What is written for a field that is not repeated, read where nothing is set. The value of an
    entry of a map is read even if it is the default. -/
theorem dumpPickField_loadFieldItem (h : Matching f load dump) (ih : ReadsBack f load dump pool n)
    (hrep : fds.isRepeated = false) (hmap : fds.isMap = false) {d : FieldData}
    (hwf : wellFormedData pool fds d = true)
    (hset : d.isSet = true ∨ fds.hasPresence = false ∧ fds.cppType ≠ .message)
    (hdepth : depth (loadFieldItem f load pool fds d) ≤ n)
    (hdst : dst[i]? = some fds.emptyData)
    (hsetField : ∀ d', setField fdss dst fds i d' = dst.set i d') :
    ∃ d', dumpPickField f dump pool (dumpTo f dump pool n) fdss
        (loadFieldItem f load pool fds d) dst fds i = dst.set i d' ∧
      (d' = d ↔ representableData pool fds d = true) := by
  cases d with
  | scalars values =>
    simp only [wellFormedData, Bool.and_eq_true, decide_eq_true_eq, hrep, Bool.false_or] at hwf
    obtain ⟨⟨htype, hfits⟩, hlen, hpresence⟩ := hwf
    have hempty : fds.emptyData = .scalars [] := if_neg htype
    rw [hempty] at hdst
    have hvalues : values = [] ∨ ∃ v, values = [v] := eq_nil_or_singleton hlen
    -- the value that is written is kept as it was
    have hkept : fits fds.cppType (values.headD fds.defaultValue) = true ∧
        fds.stored (values.headD fds.defaultValue) = values := by
      obtain rfl | ⟨v, rfl⟩ := hvalues
      · have hnone : fds.hasPresence = false := by simpa [FieldData.isSet, htype] using hset
        exact ⟨fits_defaultValue htype, by simp [FieldDescriptor.stored, hnone]⟩
      · refine ⟨by simpa using hfits, if_neg ?_⟩
        rintro ⟨hnone, hv⟩
        simp only [List.headD_cons] at hv
        simp [hnone, hv] at hpresence
    have hread := dumpScalar_loadScalar h hkept.1
    have hitem : loadFieldItem f load pool fds (.scalars values)
        = loadScalar f load fds.cppType (values.headD fds.defaultValue) := by
      simp [loadFieldItem, hrep]
    rw [hitem]
    by_cases hknown : known fds (values.headD fds.defaultValue) = true
    · refine ⟨.scalars values, ?_, ?_⟩
      · rw [if_pos hknown] at hread
        simp only [dumpPickField, hdst, hread, hrep, Bool.false_eq_true, if_false, hkept.2]
        exact hsetField _
      · obtain rfl | ⟨v, rfl⟩ := hvalues
        · simp [representableData]
        · simpa [representableData] using hknown
    · refine ⟨.scalars [], ?_, ?_⟩
      · rw [if_neg hknown] at hread
        simp only [dumpPickField, hdst, hread]
        exact (set_of_getElem?_eq hdst).symm
      · obtain rfl | ⟨v, rfl⟩ := hvalues
        · simp [representableData]
        · simpa [representableData] using hknown
  | messages values =>
    simp only [wellFormedData, Bool.and_eq_true, decide_eq_true_eq, hrep, Bool.false_or] at hwf
    obtain ⟨⟨⟨htype, hlen⟩, -⟩, hall⟩ := hwf
    have hempty : fds.emptyData = .messages [] := if_pos htype
    rw [hempty] at hdst
    obtain rfl | ⟨m, rfl⟩ := eq_nil_or_singleton hlen
    · simp [FieldData.isSet, htype] at hset
    · have hm := wellFormedAll_iff.1 hall m (List.mem_singleton.2 rfl)
      rw [loadFieldItem_message hrep hmap] at hdepth ⊢
      have hback := ih fds.messageType m (by simp [wellFormed, hm]) hdepth
      refine ⟨.messages [dumpTo f dump pool n fds.messageType
        (rapidjsonLoaderLoadFrom f load pool fds.messageType m)
        (emptyMessage (pool.fields fds.messageType))], ?_, ?_⟩
      · rw [rapidjsonLoaderLoadFrom_eq]
        simp only [dumpPickField, hdst, hrep, Bool.false_eq_true, if_false, List.headD_nil]
        exact hsetField _
      · simpa [representableData, hmap, representableAll, representable] using hback

end Field

end LibAtapp.Rapidjson
