import LibAtapp.Conf.Loaders
import LibAtapp.Library.Run

set_option autoImplicit false

/-! # The defaults keep what was configured

The pass over the defaults finds a leaf that a loader has set by its key, unless the field is below
a member of a oneof, which the pass skips. A load keeps this as long as it writes the keys that the
pass will look up: the elements of an INI list have the right keys only where the list was empty,
and a message with a `field_match` is loaded under the keys of its parent, so it has to be a member
of a oneof. -/

namespace LibAtapp.Conf

variable {V : Type}

namespace Dump

/-! ## Where the defaults look -/

/-- The information of the first field. -/
def firstInfo : Descriptor V → Option FieldInfo
  | .nil => none
  | .leaf info _ _ => some info
  | .leaves info _ _ => some info
  | .message info _ _ => some info
  | .messages info _ _ _ => some info

/-- The fields after the first one. -/
def otherFields : Descriptor V → Option (Descriptor V)
  | .nil => none
  | .leaf _ _ rest => some rest
  | .leaves _ _ rest => some rest
  | .message _ _ rest => some rest
  | .messages _ _ _ rest => some rest

/-- The pass gets to `fields`, which are those from `n` on of the message at `p`, with the given
    keys. -/
inductive Reaches (root : Descriptor V) : Path → Nat → Bytes → Descriptor V → Prop
  | root : Reaches root [] 0 [] root
  | next {p : Path} {n : Nat} {keys : Bytes} {fields rest : Descriptor V}
      (h : Reaches root p n keys fields) (hrest : otherFields fields = some rest) :
      Reaches root p (n + 1) keys rest
  | message {p : Path} {n : Nat} {keys : Bytes} {info : FieldInfo} {sub rest : Descriptor V}
      (h : Reaches root p n keys (.message info sub rest)) :
      Reaches root (p ++ [(n, none)]) 0 (keys ++ info.name ++ ascii ".") sub
  | element {p : Path} {n : Nat} {keys : Bytes} {info : FieldInfo} {isMap : Bool}
      {sub rest : Descriptor V} (h : Reaches root p n keys (.messages info isMap sub rest))
      (i : Nat) :
      Reaches root (p ++ [(n, some i)]) 0
        (keys ++ info.name ++ ascii "." ++ decimal i ++ ascii ".") sub

/-- The fields at a place and their keys are determined. -/
theorem Reaches.unique {root : Descriptor V} {p p' : Path} {n n' : Nat} {keys keys' : Bytes}
    {fields fields' : Descriptor V} (h : Reaches root p n keys fields)
    (h' : Reaches root p' n' keys' fields') (hp : p = p') (hn : n = n') :
    keys = keys' ∧ fields = fields' := by
  induction h generalizing p' n' keys' fields' with
  | root =>
      cases h' with
      | root => exact ⟨rfl, rfl⟩
      | next => omega
      | message => simp at hp
      | element => simp at hp
  | next _ hrest ih =>
      cases h' with
      | root => omega
      | next h' hrest' =>
          obtain ⟨hkeys, hfields⟩ := ih h' hp (by omega)
          subst hfields
          rw [hrest] at hrest'
          exact ⟨hkeys, Option.some.inj hrest'⟩
      | message => omega
      | element => omega
  | message _ ih =>
      cases h' with
      | root => simp at hp
      | next => omega
      | message h' =>
          obtain ⟨hp', hstep⟩ := List.append_inj' hp rfl
          obtain ⟨hkeys, hfields⟩ := ih h' hp' (by simpa using hstep)
          cases hfields
          exact ⟨by rw [hkeys], rfl⟩
      | element h' => simp at hp
  | element _ i ih =>
      cases h' with
      | root => simp at hp
      | next => omega
      | message h' => simp at hp
      | element h' i' =>
          obtain ⟨hp', hstep⟩ := List.append_inj' hp rfl
          simp only [List.cons.injEq, Prod.mk.injEq, Option.some.injEq, and_true] at hstep
          obtain ⟨hkeys, hfields⟩ := ih h' hp' hstep.1
          cases hfields
          exact ⟨by rw [hkeys, hstep.2], rfl⟩

/-- The path is below a field whose oneof has a member: the pass does not get there. -/
def Shielded (root : Descriptor V) (d : Dump V) (q : Path) : Prop :=
  ∃ p n e below keys rest info, q = p ++ (n, e) :: below ∧ Reaches root p n keys rest ∧
    firstInfo rest = some info ∧ d.hasOneof p info = true

/-- Every leaf that a loader has set from a text is skipped by the pass, or has its key, or has its
    default already. -/
def Protected (root : Descriptor V) (environment : Environment) (d : Dump V) : Prop :=
  ∀ p n keys info kind rest v, Reaches root p n keys (.leaf info kind rest) →
    d.leaf (p ++ [(n, none)]) = some (v, true) →
      Shielded root d (p ++ [(n, none)]) ∨ keys ++ info.name ∈ d.existed ∨
        v = kind.default environment

section Operations

variable {root : Descriptor V} {environment : Environment} {d d' : Dump V} {p q : Path} {n : Nat}
  {info : FieldInfo}

/-- A shield stays where the oneofs above the path keep a member. -/
theorem Shielded.mono (h : Shielded root d q)
    (hmono : ∀ p step below info, q = p ++ step :: below → d.hasOneof p info = true →
      d'.hasOneof p info = true) : Shielded root d' q := by
  obtain ⟨p, n, e, below, keys, fields, info, rfl, hreaches, hinfo, hset⟩ := h
  exact ⟨p, n, e, below, keys, fields, info, rfl, hreaches, hinfo,
    hmono p (n, e) below info rfl hset⟩

/-- What is below a shielded path is shielded. -/
theorem Shielded.append (h : Shielded root d p) (below : Path) : Shielded root d (p ++ below) := by
  obtain ⟨p, n, e, rest, keys, fields, info, rfl, hreaches, hinfo, hset⟩ := h
  exact ⟨p, n, e, rest ++ below, keys, fields, info, by simp, hreaches, hinfo, hset⟩

/-- A field is shielded by its own oneof or with its message. -/
theorem shielded_append_iff {keys : Bytes} {fields : Descriptor V} {e : Option Nat}
    (hreaches : Reaches root p n keys fields) (hinfo : firstInfo fields = some info) :
    Shielded root d (p ++ [(n, e)]) ↔ Shielded root d p ∨ d.hasOneof p info = true := by
  constructor
  · rintro ⟨r, m, e', below, keys', fields', info', heq, hreaches', hinfo', hset⟩
    cases below using List.reverseRecOn with
    | nil =>
        obtain ⟨hp, hstep⟩ := List.append_inj' heq rfl
        simp only [List.cons.injEq, Prod.mk.injEq, and_true] at hstep
        obtain ⟨-, hfields⟩ := hreaches.unique hreaches' hp hstep.1
        subst hfields hp
        rw [hinfo] at hinfo'
        cases hinfo'
        exact .inr hset
    | append_singleton below step =>
        rw [← List.cons_append, ← List.append_assoc] at heq
        obtain ⟨hp, -⟩ := List.append_inj' heq rfl
        exact .inl ⟨r, m, e', below, keys', fields', info', hp, hreaches', hinfo', hset⟩
  · rintro (hshield | hset)
    · exact hshield.append _
    · exact ⟨p, n, e, [], keys, fields, info, rfl, hreaches, hinfo, hset⟩

/-- Nothing is changed in the oneofs of messages that are not below `p`. -/
def OneofFrame (p : Path) (d d' : Dump V) : Prop :=
  ∀ r, ¬ p <+: r → d'.oneofCase r = d.oneofCase r

theorem OneofFrame.refl (p : Path) (d : Dump V) : OneofFrame p d d := fun _ _ => rfl

theorem OneofFrame.trans {d'' : Dump V} (h : OneofFrame p d d') (h' : OneofFrame p d' d'') :
    OneofFrame p d d'' :=
  fun r hr => (h' r hr).trans (h r hr)

theorem OneofFrame.above (h : OneofFrame (p ++ q) d d') : OneofFrame p d d' :=
  fun r hr => h r fun hfront => hr ((List.prefix_append p q).trans hfront)

theorem Shielded.frame (h : Shielded root d p) (hframe : OneofFrame p d d') :
    Shielded root d' p := by
  refine h.mono fun r step below info heq hset => ?_
  have hr : ¬ p <+: r := by
    rw [heq]
    intro hfront
    have hlength := hfront.length_le
    simp only [List.length_append, List.length_cons] at hlength
    omega
  unfold hasOneof at hset ⊢
  rwa [hframe r hr]

/-! ## What the operations keep -/

theorem Protected.insertKey (h : Protected root environment d) (key : Bytes) :
    Protected root environment (d.insertKey key) := by
  intro p n keys info kind rest v hreaches hleaf
  obtain hshield | hkey | hdefault := h p n keys info kind rest v hreaches hleaf
  · exact .inl (hshield.mono fun _ _ _ _ _ hset => hset)
  · exact .inr (.inl (List.mem_cons_of_mem key hkey))
  · exact .inr (.inr hdefault)

/-- An operation keeps the protection if it sets no leaf, keeps the keys and keeps a member in the
    oneofs above the leaves that it keeps. -/
theorem Protected.of_leaves (h : Protected root environment d)
    (hleaf : ∀ r x, d'.leaf r = some x → d.leaf r = some x)
    (hexisted : ∀ key ∈ d.existed, key ∈ d'.existed)
    (honeof : ∀ r step below x info, d'.leaf (r ++ step :: below) = some x →
      d.hasOneof r info = true → d'.hasOneof r info = true) :
    Protected root environment d' := by
  intro p n keys info kind rest v hreaches hset
  obtain hshield | hkey | hdefault := h p n keys info kind rest v hreaches (hleaf _ _ hset)
  · refine .inl (hshield.mono fun r step below info' heq hmember => ?_)
    rw [heq] at hset
    exact honeof r step below _ info' hset hmember
  · exact .inr (.inl (hexisted _ hkey))
  · exact .inr (.inr hdefault)

theorem Protected.clear (h : Protected root environment d) (q : Path) :
    Protected root environment (d.clear q) := by
  refine h.of_leaves (fun r x hx => ?_) (fun _ hkey => hkey) fun r step below x info hx hset => ?_
  · simp only [Dump.clear] at hx
    split_ifs at hx
    exact hx
  · simp only [Dump.clear] at hx
    split_ifs at hx with hbelow
    have hr : ¬ q <+: r := fun hfront => hbelow (hfront.trans (List.prefix_append r _))
    unfold hasOneof at hset ⊢
    simp only [Dump.clear, if_neg hr]
    exact hset

theorem Protected.setCase (h : Protected root environment d) (p : Path) (o n : Nat) :
    Protected root environment (d.setCase p o n) := by
  refine h.of_leaves (fun _ _ hx => hx) (fun _ hkey => hkey) fun r step below x info _ hset => ?_
  unfold hasOneof at hset ⊢
  cases ho : info.oneof with
  | none => rw [ho] at hset; cases hset
  | some o' =>
      rw [ho] at hset
      simp only [Dump.setCase, Function.update_apply] at hset ⊢
      split_ifs with hr
      · subst hr
        by_cases ho' : o' = o
        · rw [ho', Function.update_self]
          rfl
        · rwa [Function.update_of_ne ho']
      · exact hset

theorem Protected.select (h : Protected root environment d) (p : Path) (n : Nat)
    (info : FieldInfo) : Protected root environment (d.select p n info) := by
  unfold Dump.select
  cases info.oneof with
  | none => exact h
  | some o =>
      dsimp only
      cases d.oneofCase p o with
      | none => exact h.setCase p o n
      | some m =>
          dsimp only
          split_ifs
          · exact h
          · exact (h.clear _).setCase p o n

theorem oneofFrame_clear (d : Dump V) {p q : Path} (h : p <+: q) : OneofFrame p d (d.clear q) := by
  intro r hr
  simp only [Dump.clear, if_neg fun hq => hr (h.trans hq)]

theorem oneofFrame_setCase (d : Dump V) (p : Path) (o n : Nat) :
    OneofFrame p d (d.setCase p o n) := by
  intro r hr
  have hne : r ≠ p := fun heq => hr (heq ▸ List.prefix_rfl)
  simp only [Dump.setCase, Function.update_of_ne hne]

theorem oneofFrame_select (d : Dump V) (p : Path) (n : Nat) (info : FieldInfo) :
    OneofFrame p d (d.select p n info) := by
  unfold Dump.select
  cases info.oneof with
  | none => exact .refl p d
  | some o =>
      dsimp only
      cases d.oneofCase p o with
      | none => exact oneofFrame_setCase d p o n
      | some m =>
          dsimp only
          split_ifs
          · exact .refl p d
          · exact (oneofFrame_clear d (List.prefix_append p _)).trans (oneofFrame_setCase _ p o n)

/-- A selected member of a oneof is its member. -/
theorem hasOneof_select {o : Nat} (ho : info.oneof = some o) (d : Dump V) (p : Path) (n : Nat) :
    (d.select p n info).hasOneof p info = true := by
  unfold hasOneof Dump.select
  rw [ho]
  dsimp only
  cases hcase : d.oneofCase p o with
  | none => simp [Dump.setCase]
  | some m =>
      dsimp only
      split_ifs
      · rw [hcase]
        rfl
      · simp [Dump.setCase]

/-- Writing a leaf keeps the protection if the leaf is protected itself. -/
theorem Protected.of_write (h : Protected root environment d)
    (hleaf : ∀ r, r ≠ p ++ [(n, none)] → d'.leaf r = d.leaf r)
    (hcase : d'.oneofCase = d.oneofCase) (hexisted : ∀ key ∈ d.existed, key ∈ d'.existed)
    (hsafe : ∀ v, d'.leaf (p ++ [(n, none)]) = some (v, true) → ∀ keys info kind rest,
      Reaches root p n keys (.leaf info kind rest) →
        Shielded root d (p ++ [(n, none)]) ∨ keys ++ info.name ∈ d'.existed ∨
          v = kind.default environment) :
    Protected root environment d' := by
  intro p' n' keys info kind rest v hreaches hset
  have hmono : ∀ q, Shielded root d q → Shielded root d' q := fun q hq =>
    hq.mono fun _ _ _ _ _ hmember => by unfold hasOneof at hmember ⊢; rwa [hcase]
  by_cases heq : p' ++ [(n', none)] = p ++ [(n, none)]
  · obtain ⟨hp, hstep⟩ := List.append_inj' heq rfl
    simp only [List.cons.injEq, Prod.mk.injEq, and_true] at hstep
    subst hp hstep
    obtain hshield | hkey | hdefault := hsafe v hset keys info kind rest hreaches
    · exact .inl (hmono _ hshield)
    · exact .inr (.inl hkey)
    · exact .inr (.inr hdefault)
  · rw [hleaf _ heq] at hset
    obtain hshield | hkey | hdefault := h p' n' keys info kind rest v hreaches hset
    · exact .inl (hmono _ hshield)
    · exact .inr (.inl (hexisted _ hkey))
    · exact .inr (.inr hdefault)

/-- Whether the keys are those that the pass looks up, where it gets. -/
def KeysFit (root : Descriptor V) (d : Dump V) (p : Path) (keys keysP : Bytes) : Prop :=
  keys = keysP ∨ Shielded root d p

theorem KeysFit.frame {keys keysP : Bytes} (h : KeysFit root d p keys keysP)
    (hframe : OneofFrame p d d') : KeysFit root d' p keys keysP := by
  obtain heq | hshield := h
  · exact .inl heq
  · exact .inr (hshield.frame hframe)

/-- One step further down, the keys still fit if both get the same. -/
theorem KeysFit.step {keys keysP : Bytes} (h : KeysFit root d p keys keysP)
    (hframe : OneofFrame p d d') (step : Step) (more : Bytes) :
    KeysFit root d' (p ++ [step]) (keys ++ more) (keysP ++ more) := by
  obtain rfl | hshield := h
  · exact .inl rfl
  · exact .inr ((hshield.frame hframe).append _)

theorem setLeaf_leaf_of_ne (d : Dump V) (p : Path) (n : Nat) (info : FieldInfo)
    (reading : Reading V) (r : Path) (hr : r ≠ p ++ [(n, none)]) :
    (d.setLeaf p n info reading.value reading.fromText).leaf r = (d.select p n info).leaf r :=
  Function.update_of_ne hr _ _

theorem setLeaf_leaf_self {reading : Reading V} {v : V}
    (h : (d.setLeaf p n info reading.value reading.fromText).leaf (p ++ [(n, none)])
      = some (v, true)) : v = reading.value ∧ reading.fromText = true := by
  unfold setLeaf at h
  dsimp only at h
  rw [Function.update_self] at h
  obtain ⟨hvalue, htext⟩ := Prod.mk.inj (Option.some.inj h)
  exact ⟨hvalue.symm, htext⟩

theorem Protected.dumpFieldWithValue (h : Protected root environment d) {keys keysP : Bytes}
    {kind : LeafType V} {rest : Descriptor V}
    (hreaches : Reaches root p n keysP (.leaf info kind rest)) (hkeys : KeysFit root d p keys keysP)
    {reading : Reading V} (hreading : reading.isDefault = true → reading.fromText = true →
      reading.value = kind.default environment) :
    Protected root environment (d.dumpFieldWithValue p n keys info reading).1 := by
  have hselected := h.select p n info
  unfold Dump.dumpFieldWithValue
  dsimp only
  split_ifs with hdefault hkey
  · exact h
  · refine hselected.of_write (setLeaf_leaf_of_ne d p n info reading) rfl (fun _ hmem => hmem)
      fun v hset keys' info' kind' rest' hreaches' => ?_
    obtain ⟨-, heq⟩ := hreaches.unique hreaches' rfl rfl
    cases heq
    obtain ⟨rfl, htext⟩ := setLeaf_leaf_self hset
    exact .inr (.inr (hreading hdefault htext))
  · refine hselected.of_write (setLeaf_leaf_of_ne d p n info reading) rfl
      (fun _ hmem => List.mem_cons_of_mem _ hmem) fun _ _ keys' info' kind' rest' hreaches' => ?_
    obtain ⟨hkeys', heq⟩ := hreaches.unique hreaches' rfl rfl
    cases heq
    obtain hsame | hshield := hkeys
    · exact .inr (.inl (by rw [← hkeys', hsame]; exact List.mem_cons_self))
    · exact .inl ((hshield.frame (oneofFrame_select d p n info)).append _)

/-- A member of a oneof is shielded once it is selected, and so is what lies below one. -/
theorem shielded_select {keys : Bytes} {fields : Descriptor V} {inOneof : Bool}
    (hreaches : Reaches root p n keys fields) (hinfo : firstInfo fields = some info)
    (hin : inOneof = true → Shielded root d p) (hone : (inOneof || info.oneof.isSome) = true) :
    Shielded root (d.select p n info) (p ++ [(n, none)]) := by
  rw [shielded_append_iff hreaches hinfo]
  cases ho : info.oneof with
  | some o => exact .inr (hasOneof_select ho d p n)
  | none =>
      rw [ho, Option.isSome_none, Bool.or_false] at hone
      exact .inl ((hin hone).frame (oneofFrame_select d p n info))

/-- A repeated leaf is no leaf that the pass visits. -/
theorem Protected.dumpRepeatedValue (h : Protected root environment d) (keys : Bytes)
    (reading : Reading V) :
    Protected root environment (d.dumpRepeatedValue p n keys info reading).1 := by
  unfold Dump.dumpRepeatedValue
  split_ifs
  · exact h
  · intro p' n' keys' info' kind rest v hreaches hset
    dsimp only [Dump.addLeaf, Dump.insertKey] at hset
    rw [Function.update_of_ne (by simp)] at hset
    obtain hshield | hkey | hdefault := h p' n' keys' info' kind rest v hreaches hset
    · exact .inl (hshield.mono fun _ _ _ _ _ hmember => hmember)
    · exact .inr (.inl (List.mem_cons_of_mem _ hkey))
    · exact .inr (.inr hdefault)

theorem Protected.addMessage (h : Protected root environment d) (p : Path) (n : Nat) :
    Protected root environment (d.addMessage p n) :=
  h.of_leaves (fun _ _ hx => hx) (fun _ hkey => hkey) fun _ _ _ _ _ _ hmember => hmember

theorem Protected.removeLast (h : Protected root environment d) (p : Path) (n : Nat) :
    Protected root environment (d.removeLast p n) :=
  (h.clear _).of_leaves (fun _ _ hx => hx) (fun _ hkey => hkey) fun _ _ _ _ _ _ hmember => hmember

theorem oneofFrame_dumpFieldWithValue (d : Dump V) (p : Path) (n : Nat) (keys : Bytes)
    (info : FieldInfo) (reading : Reading V) :
    OneofFrame p d (d.dumpFieldWithValue p n keys info reading).1 := by
  have hset : ∀ fromText, OneofFrame p d (d.setLeaf p n info reading.value fromText) :=
    fun _ => oneofFrame_select d p n info
  unfold Dump.dumpFieldWithValue
  dsimp only
  split_ifs
  · exact .refl p d
  · exact hset _
  · exact hset reading.fromText

theorem oneofFrame_removeLast (d : Dump V) (p : Path) (n : Nat) :
    OneofFrame p d (d.removeLast p n) :=
  oneofFrame_clear d (List.prefix_append p _)

end Operations

/-! ## What the loaders keep -/

section Loaders

variable {σ : Type} {format : Format σ V} {root : Descriptor V} {environment : Environment}

/-- Visits of elements keep what every visit keeps. -/
theorem visitElements_invariant {visit : Nat → σ → Dump V → Dump V × Bool} {stops : Bool}
    {inv : Dump V → Prop} (hvisit : ∀ j element d, inv d → inv (visit j element d).1) (j : Nat)
    (elements : List σ) {d : Dump V} (hd : inv d) :
    inv (visitElements visit stops j elements d).1 := by
  induction elements generalizing j d with
  | nil => exact hd
  | cons element rest ih =>
      unfold visitElements
      dsimp only
      split_ifs
      · exact hvisit j element d hd
      · exact ih (j + 1) (hvisit j element d hd)

theorem oneofFrame_loadElement (format : Format σ V) {loadFields : σ → Path → Bytes → Dump V → Dump V × Bool}
    (hload : ∀ element q keys d, OneofFrame q d (loadFields element q keys d).1) (p : Path) (n : Nat)
    (keys : Bytes) (info : FieldInfo) (isMap : Bool) (j : Nat) (element : σ) (d : Dump V) :
    OneofFrame p d (loadElement format loadFields p n keys info isMap j element d).1 := by
  have hloaded : ∀ q keys, OneofFrame p d (loadFields element (p ++ q) keys (d.addMessage p n)).1 :=
    fun q keys => (hload element (p ++ q) keys (d.addMessage p n)).above
  unfold loadElement
  dsimp only
  split_ifs
  · exact hloaded _ _
  · exact (hloaded _ _).trans (oneofFrame_removeLast _ p n)
  · exact hloaded _ _

/-- What is done where parts of the leaf at `q` are loaded: only the leaf and the keys change, and
    the leaf only if a part was loaded. -/
structure PartsLoaded (q : Path) (d : Dump V) (loaded : Dump V × Bool) : Prop where
  leaf : ∀ r, r ≠ q → loaded.1.leaf r = d.leaf r
  oneofCase : loaded.1.oneofCase = d.oneofCase
  existed : ∀ key ∈ d.existed, key ∈ loaded.1.existed
  unchanged : loaded.2 = false → loaded.1.leaf = d.leaf

theorem PartsLoaded.refl (q : Path) (d : Dump V) : PartsLoaded q d (d, false) :=
  ⟨fun _ _ => rfl, rfl, fun _ hkey => hkey, fun _ => rfl⟩

theorem PartsLoaded.trans {q : Path} {d : Dump V} {here later : Dump V × Bool}
    (h : PartsLoaded q d here) (h' : PartsLoaded q here.1 later) :
    PartsLoaded q d (later.1, here.2 || later.2) where
  leaf r hr := (h'.leaf r hr).trans (h.leaf r hr)
  oneofCase := h'.oneofCase.trans h.oneofCase
  existed key hkey := h'.existed key (h.existed key hkey)
  unchanged hnone := by
    rw [Bool.or_eq_false_iff] at hnone
    exact (h'.unchanged hnone.2).trans (h.unchanged hnone.1)

theorem partsLoaded_dumpPart (d : Dump V) (q : Path) (key : Bytes) (reading : Reading V) :
    PartsLoaded q d (d.dumpPart q key reading) := by
  have hleaf : ∀ r, r ≠ q → (d.setPart q reading).leaf r = d.leaf r := fun r hr =>
    Function.update_of_ne hr _ _
  unfold Dump.dumpPart
  split_ifs
  · exact .refl q d
  · exact ⟨hleaf, rfl, fun _ hmem => hmem, nofun⟩
  · exact ⟨hleaf, rfl, fun _ hmem => List.mem_cons_of_mem _ hmem, nofun⟩

theorem partsLoaded_loadParts (format : Format σ V) (src : σ) (q : Path) (keys : Bytes)
    (parts : List (Bytes × (Option V → LeafReader V))) (d : Dump V) :
    PartsLoaded q d (loadParts format src q keys parts d) := by
  induction parts generalizing d with
  | nil => exact .refl q d
  | cons part parts ih =>
      rw [loadParts]
      refine PartsLoaded.trans ?_ (ih _)
      split
      · exact partsLoaded_dumpPart d q _ _
      · exact .refl q d

theorem PartsLoaded.oneofFrame {q : Path} {d : Dump V} {loaded : Dump V × Bool}
    (h : PartsLoaded q d loaded) (p : Path) : OneofFrame p d loaded.1 :=
  fun r _ => congrFun h.oneofCase r

theorem oneofFrame_loadLeaf (format : Format σ V) (src : σ) (p : Path) (n : Nat) (keys : Bytes)
    (info : FieldInfo) (kind : LeafType V) (d : Dump V) :
    OneofFrame p d (loadLeaf format src p n keys info kind d).1 := by
  have hparts : ∀ src keys, OneofFrame p d
      (loadParts format src (p ++ [(n, none)]) keys kind.parts (d.select p n info)).1 :=
    fun src keys => (oneofFrame_select d p n info).trans
      ((partsLoaded_loadParts format src _ keys kind.parts _).oneofFrame p)
  unfold loadLeaf
  split
  · split_ifs
    · exact hparts src keys
    · exact .refl p d
  · split
    · exact oneofFrame_dumpFieldWithValue d p n keys info _
    · split
      · exact .refl p d
      · dsimp only
        split_ifs
        · exact hparts _ _
        · exact hparts _ _

theorem oneofFrame_loadItem (format : Format σ V) (p : Path) (n : Nat) (keys : Bytes)
    (info : FieldInfo) (kind : LeafType V) (j : Nat) (item : Reading V ⊕ σ) (d : Dump V) :
    OneofFrame p d (loadItem format p n keys info kind j item d).1 := by
  cases item with
  | inl reading =>
      dsimp only [loadItem, Dump.dumpRepeatedValue]
      split_ifs <;> exact .refl p d
  | inr element =>
      refine oneofFrame_loadElement format (fun element q keys d => ?_) p n keys info false j element
        d
      exact (partsLoaded_loadParts format element q keys kind.parts d).oneofFrame q

/-- A load changes no oneof of a message that is not below its own. -/
theorem oneofFrame_load (fields : Descriptor V) (src : σ) (p : Path) (n : Nat) (keys : Bytes)
    (d : Dump V) : OneofFrame p d (load format fields src p n keys d).1 := by
  induction fields generalizing src p n keys d with
  | nil => exact .refl p d
  | leaf info kind rest ih =>
      simp only [load]
      exact OneofFrame.trans (oneofFrame_loadLeaf format src p n keys info kind d) (ih _ _ _ _ _)
  | leaves info kind rest ih =>
      simp only [load]
      refine OneofFrame.trans ?_ (ih _ _ _ _ _)
      have hvisit := fun j item d' (h : OneofFrame p d d') =>
        h.trans (oneofFrame_loadItem format p n keys info kind j item d')
      have hlisted := @visitElements_invariant _ _ _ format.dropsEmpty _ hvisit 0
        (format.leaves src info kind) d (.refl p d)
      split_ifs
      · exact hlisted
      · exact visitElements_invariant hvisit 0 _ hlisted
  | message info sub rest ihsub ih =>
      simp only [load]
      refine OneofFrame.trans ?_ (ih _ _ _ _ _)
      have hsub : ∀ src keys, OneofFrame p d
          (load format sub src (p ++ [(n, none)]) 0 keys (d.select p n info)).1 := fun src keys =>
        (oneofFrame_select d p n info).trans (ihsub src _ 0 keys _).above
      repeat' split
      all_goals first
        | exact .refl p d
        | exact hsub _ _
  | messages info isMap sub rest ihsub ih =>
      simp only [load]
      refine OneofFrame.trans ?_ (ih _ _ _ _ _)
      have hvisit := fun j element d' (h : OneofFrame p d d') =>
        h.trans (oneofFrame_loadElement format (fun element q keys d' => ihsub element q 0 keys d')
          p n keys info isMap j element d')
      have hlisted := @visitElements_invariant _ _ _ format.dropsEmpty _ hvisit 0
        (format.elements src info isMap) d (.refl p d)
      split_ifs
      · exact hlisted
      · exact visitElements_invariant hvisit 0 _ hlisted

/-- Every visit of an element meets a condition on the state before it. -/
def ElementsMeet (visit : Nat → σ → Dump V → Dump V × Bool) (stops : Bool)
    (cond : Nat → σ → Dump V → Prop) : Nat → List σ → Dump V → Prop
  | _, [], _ => True
  | j, element :: rest, d =>
    cond j element d ∧
      ((stops && !(visit j element d).2) = false →
        ElementsMeet visit stops cond (j + 1) rest (visit j element d).1)

theorem ElementsMeet.invariant {visit : Nat → σ → Dump V → Dump V × Bool} {stops : Bool}
    {cond : Nat → σ → Dump V → Prop} {inv : Dump V → Prop}
    (hvisit : ∀ j element d, inv d → cond j element d → inv (visit j element d).1) {j : Nat}
    {elements : List σ} {d : Dump V} (hmeet : ElementsMeet visit stops cond j elements d)
    (hd : inv d) : inv (visitElements visit stops j elements d).1 := by
  induction elements generalizing j d with
  | nil => exact hd
  | cons element rest ih =>
      have hhere := hvisit j element d hd hmeet.1
      unfold visitElements
      dsimp only
      split_ifs with hstop
      · exact hhere
      · exact ih (hmeet.2 (by simpa using hstop)) hhere

theorem Protected.element {loadFields : σ → Path → Bytes → Dump V → Dump V × Bool} {p : Path}
    {n : Nat} {keys : Bytes} {info : FieldInfo} {isMap : Bool} {j : Nat} {element : σ} {d : Dump V}
    (h : Protected root environment
      (loadFields element (p ++ [(n, some (d.size (p ++ [(n, none)])))])
        (keys ++ info.name ++ ascii "."
          ++ decimal (format.elementIndex isMap j (d.size (p ++ [(n, none)]))) ++ ascii ".")
        (d.addMessage p n)).1) :
    Protected root environment
      (loadElement format loadFields p n keys info isMap j element d).1 := by
  unfold loadElement
  dsimp only
  split_ifs
  · exact h.insertKey _
  · exact h.removeLast p n
  · exact h

/-- Loading parts keeps the protection if it leaves the leaf protected. -/
theorem PartsLoaded.protected {d : Dump V} {p : Path} {n : Nat} {loaded : Dump V × Bool}
    (hloaded : PartsLoaded (p ++ [(n, none)]) d loaded) (h : Protected root environment d)
    {d' : Dump V} (hleaf : d'.leaf = loaded.1.leaf) (hcase : d'.oneofCase = loaded.1.oneofCase)
    (hexisted : ∀ key ∈ loaded.1.existed, key ∈ d'.existed)
    (hsafe : loaded.2 = true → ∀ keys info kind rest, Reaches root p n keys (.leaf info kind rest) →
      Shielded root d (p ++ [(n, none)]) ∨ keys ++ info.name ∈ d'.existed) :
    Protected root environment d' := by
  have hmore : ∀ key ∈ d.existed, key ∈ d'.existed := fun key hkey =>
    hexisted key (hloaded.existed key hkey)
  have hsame := hcase.trans hloaded.oneofCase
  refine h.of_write (fun r hr => by rw [hleaf, hloaded.leaf r hr]) hsame hmore ?_
  intro v hset keys info kind rest hreaches
  cases hany : loaded.2 with
  | true =>
      obtain hshield | hkey := hsafe hany keys info kind rest hreaches
      · exact .inl hshield
      · exact .inr (.inl hkey)
  | false =>
      rw [hleaf, hloaded.unchanged hany] at hset
      obtain hshield | hkey | hdefault := h p n keys info kind rest v hreaches hset
      · exact .inl hshield
      · exact .inr (.inl (hmore _ hkey))
      · exact .inr (.inr hdefault)

/-- A leaf is loaded without a branch that goes wrong: a text that is read as a default gives the
    default of the leaf, and a leaf with a matching `field_match` is a member of a oneof, or below
    one. -/
def CleanLeaf (format : Format σ V) (environment : Environment) (src : σ) (inOneof : Bool)
    (info : FieldInfo) (kind : LeafType V) : Prop :=
  match info.fieldMatch with
  | some fieldMatch => format.isMatched src fieldMatch = true →
    (inOneof || info.oneof.isSome) = true
  | none => ∀ reading, format.leaf src info kind = some reading → reading.isDefault = true →
    reading.fromText = true → reading.value = kind.default environment

theorem Protected.loadLeaf {src : σ} {p : Path} {n : Nat} {inOneof : Bool} {keys keysP : Bytes}
    {info : FieldInfo} {kind : LeafType V} {rest : Descriptor V} {d : Dump V}
    (hreaches : Reaches root p n keysP (.leaf info kind rest)) (hkeys : KeysFit root d p keys keysP)
    (hin : inOneof = true → Shielded root d p) (h : Protected root environment d)
    (hclean : CleanLeaf format environment src inOneof info kind) :
    Protected root environment (loadLeaf format src p n keys info kind d).1 := by
  have hselected := h.select p n info
  have hparts := fun src keys =>
    partsLoaded_loadParts format src (p ++ [(n, none)]) keys kind.parts (d.select p n info)
  unfold Conf.loadLeaf
  unfold CleanLeaf at hclean
  cases hmatch : info.fieldMatch with
  | some fieldMatch =>
      rw [hmatch] at hclean
      dsimp only at hclean ⊢
      split_ifs with hmatched
      · refine (hparts src keys).protected hselected rfl rfl (fun _ hkey => hkey) ?_
        exact fun _ _ _ _ _ _ => .inl (shielded_select hreaches rfl hin (hclean hmatched))
      · exact h
  | none =>
      rw [hmatch] at hclean
      dsimp only at hclean ⊢
      split
      · exact h.dumpFieldWithValue hreaches hkeys (hclean _ ‹_›)
      · split
        · exact h
        · next child hchild =>
          split_ifs with hany
          · refine (hparts child _).protected hselected rfl rfl
              (fun _ hkey => List.mem_cons_of_mem _ hkey) ?_
            intro _ keys' info' kind' rest' hreaches'
            obtain ⟨hkeys', heq⟩ := hreaches.unique hreaches' rfl rfl
            cases heq
            obtain hsame | hshield := hkeys
            · exact .inr (by rw [← hkeys', hsame]; exact List.mem_cons_self)
            · exact .inl ((hshield.frame (oneofFrame_select d p n info)).append _)
          · refine (hparts child _).protected hselected rfl rfl (fun _ hkey => hkey) ?_
            exact fun htrue => absurd htrue hany

theorem Protected.loadItem {d : Dump V} (h : Protected root environment d) (format : Format σ V)
    (p : Path) (n : Nat) (keys : Bytes) (info : FieldInfo) (kind : LeafType V) (j : Nat)
    (item : Reading V ⊕ σ) :
    Protected root environment (loadItem format p n keys info kind j item d).1 := by
  cases item with
  | inl reading => exact h.dumpRepeatedValue keys reading
  | inr element =>
      refine Protected.element ?_
      have hparts := partsLoaded_loadParts format element
        (p ++ [(n, some (d.size (p ++ [(n, none)])))])
        (keys ++ info.name ++ ascii "."
          ++ decimal (format.elementIndex false j (d.size (p ++ [(n, none)]))) ++ ascii ".")
        kind.parts (d.addMessage p n)
      -- an element is no leaf that the pass visits
      intro p' n' keys' info' kind' rest v hreaches hset
      rw [hparts.leaf _ (by simp)] at hset
      have hadded := h.addMessage p n
      obtain hshield | hkey | hdefault := hadded p' n' keys' info' kind' rest v hreaches hset
      · refine .inl (hshield.mono fun r step below info'' _ hmember => ?_)
        unfold hasOneof at hmember ⊢
        rwa [hparts.oneofCase]
      · exact .inr (.inl (hparts.existed _ hkey))
      · exact .inr (.inr hdefault)

variable (format) (environment)

/-- The load takes no branch that goes wrong: every leaf is clean; a message with a matching
    `field_match` is a member of a oneof, or below one; and an element gets the index in its keys
    that it has in the message, or is below a member of a oneof. -/
def Clean : Descriptor V → σ → Path → Nat → Bool → Bytes → Dump V → Prop
  | .nil, _, _, _, _, _, _ => True
  | .leaf info kind rest, src, p, n, inOneof, keys, d =>
    CleanLeaf format environment src inOneof info kind ∧
    Clean rest src p (n + 1) inOneof keys (load format (.leaf info kind .nil) src p n keys d).1
  | .leaves info kind rest, src, p, n, inOneof, keys, d =>
    Clean rest src p (n + 1) inOneof keys (load format (.leaves info kind .nil) src p n keys d).1
  | .message info sub rest, src, p, n, inOneof, keys, d =>
    (match info.fieldMatch with
      | some fieldMatch => format.isMatched src fieldMatch = true →
        (inOneof || info.oneof.isSome) = true ∧
          Clean sub src (p ++ [(n, none)]) 0 true keys (d.select p n info)
      | none => ∀ child, format.message src info = some child →
        Clean sub child (p ++ [(n, none)]) 0 (inOneof || info.oneof.isSome)
          (keys ++ info.name ++ ascii ".") (d.select p n info)) ∧
    Clean rest src p (n + 1) inOneof keys (load format (.message info sub .nil) src p n keys d).1
  | .messages info isMap sub rest, src, p, n, inOneof, keys, d =>
    let visit := loadElement format (fun element q keys d => load format sub element q 0 keys d)
      p n keys info isMap
    let fits := fun (j : Nat) (element : σ) (d : Dump V) =>
      let size := d.size (p ++ [(n, none)])
      let index := format.elementIndex isMap j size
      (inOneof = true ∨ index = size) ∧
        Clean sub element (p ++ [(n, some size)]) 0 inOneof
          (keys ++ info.name ++ ascii "." ++ decimal index ++ ascii ".") (d.addMessage p n)
    let listed := visitElements visit format.dropsEmpty 0 (format.elements src info isMap) d
    ElementsMeet visit format.dropsEmpty fits 0 (format.elements src info isMap) d ∧
    (listed.2 = false →
      ElementsMeet visit format.dropsEmpty fits 0 (format.fallback src info) listed.1) ∧
    Clean rest src p (n + 1) inOneof keys
      (load format (.messages info isMap sub .nil) src p n keys d).1

variable {format} {environment}

/-- **A clean load** keeps the protection. -/
theorem Protected.load {fields : Descriptor V} {src : σ} {p : Path} {n : Nat} {inOneof : Bool}
    {keys keysP : Bytes} {d : Dump V} (hreaches : Reaches root p n keysP fields)
    (hkeys : KeysFit root d p keys keysP) (hin : inOneof = true → Shielded root d p)
    (h : Protected root environment d)
    (hclean : Clean format environment fields src p n inOneof keys d) :
    Protected root environment (load format fields src p n keys d).1 := by
  induction fields generalizing src p n inOneof keys keysP d with
  | nil => exact h
  | leaf info kind rest ih =>
      obtain ⟨hleaf, hrest⟩ := hclean
      have hframe : OneofFrame p d (Conf.load format (.leaf info kind .nil) src p n keys d).1 :=
        oneofFrame_load _ src p n keys d
      refine ih (.next hreaches rfl) (hkeys.frame hframe) (fun ht => (hin ht).frame hframe) ?_ hrest
      exact h.loadLeaf hreaches hkeys hin hleaf
  | leaves info kind rest ih =>
      have hframe : OneofFrame p d (Conf.load format (.leaves info kind .nil) src p n keys d).1 :=
        oneofFrame_load _ src p n keys d
      refine ih (.next hreaches rfl) (hkeys.frame hframe) (fun ht => (hin ht).frame hframe) ?_ hclean
      have hvisit := fun j item d' (hd : Protected root environment d') =>
        hd.loadItem format p n keys info kind j item
      have hlisted := @visitElements_invariant _ _ _ format.dropsEmpty _ hvisit 0
        (format.leaves src info kind) d h
      split_ifs
      · exact hlisted
      · exact visitElements_invariant hvisit 0 _ hlisted
  | message info sub rest ihsub ih =>
      obtain ⟨hmessage, hrest⟩ := hclean
      have hframe : OneofFrame p d (Conf.load format (.message info sub .nil) src p n keys d).1 :=
        oneofFrame_load _ src p n keys d
      refine ih (.next hreaches rfl) (hkeys.frame hframe) (fun ht => (hin ht).frame hframe) ?_ hrest
      -- what is below the message is shielded if it is a member of a oneof, or below one
      have hselected := h.select p n info
      have hin' : (inOneof || info.oneof.isSome) = true →
          Shielded root (d.select p n info) (p ++ [(n, none)]) :=
        shielded_select hreaches rfl hin
      cases hmatch : info.fieldMatch with
      | some fieldMatch =>
          rw [hmatch] at hmessage
          dsimp only at hmessage ⊢
          split_ifs with hmatched
          · obtain ⟨hone, hsub⟩ := hmessage hmatched
            exact ihsub (.message hreaches) (.inr (hin' hone)) (fun _ => hin' hone) hselected hsub
          · exact h
      | none =>
          rw [hmatch] at hmessage
          dsimp only at hmessage ⊢
          split
          · exact h
          · next child hchild =>
            have hloaded := ihsub (.message hreaches)
              (by
                rw [List.append_assoc, List.append_assoc]
                exact hkeys.step (oneofFrame_select d p n info) (n, none) _)
              hin' hselected (hmessage child hchild)
            split_ifs
            · exact hloaded.insertKey _
            · exact hloaded
  | messages info isMap sub rest ihsub ih =>
      obtain ⟨hlisted, hfallback, hrest⟩ := hclean
      have hframe : OneofFrame p d (Conf.load format (.messages info isMap sub .nil) src p n keys d).1 :=
        oneofFrame_load _ src p n keys d
      refine ih (.next hreaches rfl) (hkeys.frame hframe) (fun ht => (hin ht).frame hframe) ?_ hrest
      have hvisit : ∀ j element d', (Protected root environment d' ∧ OneofFrame p d d') →
          ((inOneof = true ∨ format.elementIndex isMap j (d'.size (p ++ [(n, none)]))
              = d'.size (p ++ [(n, none)])) ∧
            Clean format environment sub element (p ++ [(n, some (d'.size (p ++ [(n, none)])))]) 0
              inOneof (keys ++ info.name ++ ascii "."
                ++ decimal (format.elementIndex isMap j (d'.size (p ++ [(n, none)]))) ++ ascii ".")
              (d'.addMessage p n)) →
          Protected root environment
            (loadElement format (fun element q keys d => Conf.load format sub element q 0 keys d)
              p n keys info isMap j element d').1 ∧
          OneofFrame p d
            (loadElement format (fun element q keys d => Conf.load format sub element q 0 keys d)
              p n keys info isMap j element d').1 := by
        rintro j element d' ⟨hd', hframe'⟩ ⟨hindex, hsub⟩
        refine ⟨?_, hframe'.trans (oneofFrame_loadElement format
          (fun element q keys d => oneofFrame_load sub element q 0 keys d) p n keys info isMap j
          element d')⟩
        have hadded : OneofFrame p d' (d'.addMessage p n) := .refl p d'
        have hin' : inOneof = true → Shielded root (d'.addMessage p n) p := fun ht =>
          ((hin ht).frame hframe').frame hadded
        refine Protected.element ?_
        refine ihsub (.element hreaches (d'.size (p ++ [(n, none)]))) ?_
          (fun ht => (hin' ht).append _) (hd'.addMessage p n) hsub
        obtain ht | hsame := hindex
        · exact .inr ((hin' ht).append _)
        · rw [hsame]
          simp only [List.append_assoc]
          exact (hkeys.frame hframe').step hadded (n, some _) _
      have hkept := hlisted.invariant hvisit ⟨h, .refl p d⟩
      split_ifs with hany
      · exact hkept.1
      · exact ((hfallback (by simpa using hany)).invariant hvisit hkept).1

end Loaders

/-! ## The pass over the defaults -/

/-- Every oneof that the pass gets to has a member, or no member that the pass would set: neither a
    message nor a leaf with a default. -/
def OneofsSettled : Descriptor V → Path → Nat → Dump V → Prop
  | .nil, _, _, _ => True
  | .leaf info kind rest, p, n, d =>
    (info.oneof = none ∨ d.hasOneof p info = true ∨ kind.hasDefault = false) ∧
      OneofsSettled rest p (n + 1) d
  | .leaves _ _ rest, p, n, d => OneofsSettled rest p (n + 1) d
  | .message info sub rest, p, n, d =>
    (d.hasOneof p info = false → info.oneof = none ∧ OneofsSettled sub (p ++ [(n, none)]) 0 d) ∧
      OneofsSettled rest p (n + 1) d
  | .messages info _ sub rest, p, n, d =>
    (d.hasOneof p info = false → ∀ i < d.size (p ++ [(n, none)]),
      OneofsSettled sub (p ++ [(n, some i)]) 0 d) ∧
      OneofsSettled rest p (n + 1) d

/-- The leaves that a loader has set from a text have their values, and the oneofs their members. -/
structure Kept (d d' : Dump V) : Prop where
  leaf : ∀ q v, d.leaf q = some (v, true) → d'.leaf q = some (v, true)
  oneofCase : d'.oneofCase = d.oneofCase

section Pass

variable {root : Descriptor V} {environment : Environment} {d : Dump V}

/-- What the pass has changed so far: only leaves, and none that was set from a text. -/
structure Passing (d d' : Dump V) : Prop extends Kept d d' where
  size : d'.size = d.size
  existed : d'.existed = d.existed

theorem Passing.refl (d : Dump V) : Passing d d := ⟨⟨fun _ _ h => h, rfl⟩, rfl, rfl⟩

theorem Passing.hasOneof {d' : Dump V} (h : Passing d d') (p : Path) (info : FieldInfo) :
    d'.hasOneof p info = d.hasOneof p info := by
  unfold Dump.hasOneof
  rw [h.oneofCase]

/-- A field that is in no oneof is selected without a change. -/
theorem select_of_none {info : FieldInfo} (h : info.oneof = none) (d : Dump V) (p : Path) (n : Nat) :
    d.select p n info = d := by
  unfold select
  rw [h]

/-- A default keeps the texts that were read as it. -/
theorem Passing.setDefault {d' : Dump V} (h : Passing d d') {p : Path} {n : Nat} {info : FieldInfo}
    (hnone : info.oneof = none) (value : V)
    (hvalue : ∀ v, d.leaf (p ++ [(n, none)]) = some (v, true) → v = value) :
    Passing d (d'.setDefault p n info value) := by
  unfold Dump.setDefault setLeaf
  rw [select_of_none hnone]
  refine ⟨⟨fun q v hset => ?_, h.oneofCase⟩, h.size, h.existed⟩
  have hset' := h.leaf q v hset
  by_cases hq : q = p ++ [(n, none)]
  · subst hq
    show Function.update d'.leaf _ _ _ = _
    rw [Function.update_self, hset', hvalue v hset]
    rfl
  · show Function.update d'.leaf _ _ _ = _
    rw [Function.update_of_ne hq, hset']

/-- What the pass enters is not shielded. -/
theorem not_shielded_append {p : Path} {n : Nat} {keys : Bytes} {fields : Descriptor V}
    {info : FieldInfo} {e : Option Nat} (hreaches : Reaches root p n keys fields)
    (hinfo : firstInfo fields = some info) (hopen : ¬ Shielded root d p)
    (hmember : d.hasOneof p info = false) : ¬ Shielded root d (p ++ [(n, e)]) := by
  intro hshield
  obtain hshield | hset := (shielded_append_iff hreaches hinfo).1 hshield
  · exact hopen hshield
  · rw [hmember] at hset
    cases hset

/-- **The pass** changes no leaf that was set from a text, and no oneof. -/
theorem Passing.dumpPickDefaultFields (hprotected : Protected root environment d)
    {fields : Descriptor V} {p : Path} {n : Nat} {keys : Bytes} {d' : Dump V}
    (hreaches : Reaches root p n keys fields) (hopen : ¬ Shielded root d p)
    (hsettled : OneofsSettled fields p n d) (h : Passing d d') :
    Passing d (dumpPickDefaultFields environment fields p n keys d') := by
  induction fields generalizing p n keys d' with
  | nil => exact h
  | leaf info kind rest ih =>
      obtain ⟨hleaf, hrest⟩ := hsettled
      refine ih (.next hreaches rfl) hopen hrest ?_
      split_ifs with hskip
      · exact h
      · simp only [not_or, Bool.not_eq_true, Bool.not_eq_false] at hskip
        obtain ⟨hmember, hdefault, hkey⟩ := hskip
        rw [h.hasOneof] at hmember
        have hnone : info.oneof = none := by
          obtain hnone | hset | hno := hleaf
          · exact hnone
          · rw [hmember] at hset
            cases hset
          · rw [hdefault] at hno
            cases hno
        refine h.setDefault hnone _ fun v hset => ?_
        obtain hshield | hexisted | hvalue := hprotected p n keys info kind rest v hreaches hset
        · exact absurd hshield (not_shielded_append hreaches rfl hopen hmember)
        · rw [h.existed] at hkey
          exact absurd hexisted hkey
        · exact hvalue
  | leaves info kind rest ih => exact ih (.next hreaches rfl) hopen hsettled h
  | message info sub rest ihsub ih =>
      obtain ⟨hsub, hrest⟩ := hsettled
      refine ih (.next hreaches rfl) hopen hrest ?_
      rw [h.hasOneof]
      split_ifs with hset
      · exact h
      · rw [Bool.not_eq_true] at hset
        obtain ⟨hnone, hsub⟩ := hsub hset
        rw [select_of_none hnone]
        exact ihsub (.message hreaches) (not_shielded_append hreaches rfl hopen hset) hsub h
  | messages info isMap sub rest ihsub ih =>
      obtain ⟨hsub, hrest⟩ := hsettled
      refine ih (.next hreaches rfl) hopen hrest ?_
      rw [h.hasOneof]
      split_ifs with hset
      · exact h
      · rw [Bool.not_eq_true] at hset
        have hpass : ∀ l : List Nat, (∀ i ∈ l, i < d.size (p ++ [(n, none)])) → ∀ d', Passing d d' →
            Passing d (l.foldl (fun d i => Dump.dumpPickDefaultFields environment sub
              (p ++ [(n, some i)]) 0 (keys ++ info.name ++ ascii "." ++ decimal i ++ ascii ".") d)
              d') := by
          intro l
          induction l with
          | nil => exact fun _ _ h => h
          | cons i l ihl =>
              intro hl d' h
              have hi := hsub hset i (hl i List.mem_cons_self)
              refine ihl (fun j hj => hl j (List.mem_cons_of_mem i hj)) _ ?_
              exact ihsub (.element hreaches i) (not_shielded_append hreaches rfl hopen hset) hi h
        refine hpass _ (fun i hi => ?_) d' h
        rw [h.size, List.mem_range] at hi
        exact hi

end Pass

/-! ## Loads and the defaults after them -/

/-- A load takes no branch that goes wrong. -/
def CleanLoad (environment : Environment) (desc : Descriptor V) (d : Dump V) : Load → Prop
  | .ini src => Clean (iniFormat environment) environment desc (.node src) [] 0 false [] d
  | .yaml (.map entries) =>
    Clean (yamlFormat environment) environment desc (.node (.map entries)) [] 0 false [] d
  | .yaml _ => True
  | .environment keyPrefix limit =>
    Clean (environmentFormat environment limit) environment desc keyPrefix [] 0 false [] d

theorem Protected.loaded {desc : Descriptor V} {environment : Environment} {d : Dump V}
    (h : Protected desc environment d) (l : Load) (hclean : CleanLoad environment desc d l) :
    Protected desc environment (d.loaded environment desc l) := by
  have hnone : false = true → Shielded desc d [] := nofun
  cases l with
  | ini src => exact h.load .root (.inl rfl) hnone hclean
  | yaml src =>
      cases src with
      | map entries => exact h.load .root (.inl rfl) hnone hclean
      | null => exact h
      | scalar => exact h
      | sequence => exact h
  | environment keyPrefix limit => exact h.load .root (.inl rfl) hnone hclean

/-- In a new message no leaf is set. -/
theorem Protected.initial (desc : Descriptor V) (environment : Environment) :
    Protected desc environment ({} : Dump V) :=
  fun _ _ _ _ _ _ _ _ hset => by cases hset

theorem not_shielded_nil (desc : Descriptor V) (d : Dump V) : ¬ Shielded desc d [] := by
  rintro ⟨p, n, e, below, -, -, -, heq, -⟩
  simp at heq

/-- The property of a loaded message: the defaults keep what the loaders have set, where every
    oneof that they get to is settled. -/
def DefaultsKeep (environment : Environment) (desc : Descriptor V) (d : Dump V) : Prop :=
  OneofsSettled desc [] 0 d → Kept d (d.defaultLoaderDumpTo environment desc)

/-- **In every run of clean loads** the defaults keep what the loaders have set. -/
theorem always_defaultsKeep (environment : Environment) (desc : Descriptor V) (loads : List Load)
    (hclean : Run.StepsMeet (fun d l => loaded environment desc d l) (CleanLoad environment desc)
      ({} : Dump V) loads) :
    Run.Always (fun d l => loaded environment desc d l) (DefaultsKeep environment desc)
      ({} : Dump V) loads := by
  have hload : ∀ d l, Protected desc environment d → CleanLoad environment desc d l →
      Protected desc environment (d.loaded environment desc l) := fun _ l h hl => h.loaded l hl
  have hprotected := Run.always_of_stepsMeet _ hload (Protected.initial desc environment) hclean
  refine hprotected.mono _ fun d h hsettled => ?_
  exact (Passing.dumpPickDefaultFields h .root (not_shielded_nil desc d) hsettled (.refl d)).toKept

/-- A string with the default `d`. -/
def exampleText : LeafType Bytes :=
  .ofKind (.text stringType) (some { defaultValue := ascii "d" }) (some id)

/-- The number that a text of digits stands for. -/
def exampleReader : NumberReader where
  str2int text := ((text.foldl (fun n c => n * 10 + (c.val - 0x30)) 0 : Nat), [])
  isSpace c := c == 0x20

/-- A `Duration` with the default 9, in whole seconds without a unit. -/
def exampleDuration : LeafType Moment :=
  .moment exampleReader (fun text => ⟨(exampleReader.str2int text).1, 0⟩)
    (some { defaultValue := ascii "9" })

/-- A `Duration` `t` and a string `x`. -/
def exampleFields : Descriptor (Moment ⊕ Bytes) :=
  .leaf { name := ascii "t" } (exampleDuration.map .inl Sum.getLeft?) <|
  .leaf { name := ascii "x" } (exampleText.map .inr Sum.getRight?) .nil

/-- Only the seconds of `t` are set. -/
def exampleEnvironment : Environment := fun name =>
  if name = ascii "T_SECONDS" then ascii "5" else []

/-- `x = a` in INI. -/
def exampleIni (text : String) : IniValue := .node [] [(ascii "x", .node [ascii text] [])]

/-- The seconds from the environment and then a text from INI keep their values. -/
theorem always_defaultsKeep_parts :
    Run.Always (fun d l => loaded exampleEnvironment exampleFields d l)
      (DefaultsKeep exampleEnvironment exampleFields) ({} : Dump (Moment ⊕ Bytes))
      [.environment [] 1, .ini (exampleIni "a")] := by
  refine always_defaultsKeep exampleEnvironment exampleFields _
    ⟨⟨?_, ?_, trivial⟩, ⟨?_, ?_, trivial⟩, trivial⟩
  all_goals intro reading hreading hdefault
  · cases hreading
  · cases hreading
  · cases hreading
  · have hread : reading = ⟨.inr (ascii "a"), false, true⟩ :=
      (Option.some.inj hreading).symm.trans rfl
    rw [hread] at hdefault
    cases hdefault

/-- A repeated message `s` of such strings. -/
def exampleList : Descriptor Bytes :=
  .messages { name := ascii "s" } false (.leaf { name := ascii "x" } exampleText .nil) .nil

/-- No variable is set. -/
def emptyEnvironment : Environment := fun _ => []

/-- A list from a YAML document, then an INI file with an element 0, which is appended as element 1. -/
def exampleLoads : List Load :=
  [.yaml (.map [(.scalar (ascii "s"),
      .sequence [.map [(.scalar (ascii "x"), .scalar (ascii "a"))]])]),
    .ini (.node [] [(ascii "s", .node [] [(ascii "0", exampleIni "b")])])]

/-- The element from the INI file has the keys of element 0, and the default takes its place. -/
theorem not_always_defaultsKeep_appended :
    ¬ Run.Always (fun d l => loaded emptyEnvironment exampleList d l)
      (DefaultsKeep emptyEnvironment exampleList) ({} : Dump Bytes) exampleLoads := by
  intro halways
  have hlast := halways.last
  have hsettled : OneofsSettled exampleList [] 0 (Run.run
      (fun d l => loaded emptyEnvironment exampleList d l) ({} : Dump Bytes) exampleLoads) :=
    ⟨fun _ _ _ => ⟨.inl rfl, trivial⟩, trivial⟩
  have hkept := (hlast hsettled).leaf [(0, some 1), (0, none)] (ascii "b") (by decide +kernel)
  exact absurd hkept (by decide +kernel)

end Dump

end LibAtapp.Conf
