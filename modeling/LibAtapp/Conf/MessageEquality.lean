import Mathlib.Data.List.Forall2
import Mathlib.Data.List.Nodup

set_option autoImplicit false

/-! # Equality of messages

`protobuf_equal` compares two messages field by field through their reflection. A map field is
enumerated as a list of entries, in an order of its own for each message, and is meant to be compared
by its keys. -/

namespace LibAtapp.ProtobufEqual

/-! ## Messages -/

/-- `FieldDescriptor::CppType`, without the two types of floating point numbers. -/
inductive CppType where
  | int32
  | int64
  | uint32
  | uint64
  | bool
  | enum
  | string
  | message
  deriving DecidableEq, Repr

/-- `FieldDescriptor`. Scalars have one type here, and message types are numbered. -/
structure FieldDescriptor (V : Type) where
  index : Nat
  cppType : CppType
  isRepeated : Bool := false
  isMap : Bool := false
  messageType : Nat := 0
  defaultValue : V

/-- The types that a key of a map may have. -/
def mapKeyTypes : List CppType := [.bool, .int32, .int64, .uint32, .uint64, .string]

/-- The message types. Those of a map field are entries, with a key and a value. -/
structure DescriptorPool (V : Type) where
  fields : Nat → List (FieldDescriptor V)
  entry : ∀ t, ∀ fds ∈ fields t, fds.isMap = true → ∃ key value,
    fields fds.messageType = [key, value] ∧ key.isRepeated = false ∧ key.cppType ∈ mapKeyTypes

/-- The values that are set in a message, with sub-messages of a type of their own. A field that is
    not repeated has at most one. -/
structure Fields (V M : Type) where
  scalars : Nat → List V
  subs : Nat → List M

/-- The messages that are nested less than `n` deep; without nesting there is only the default
    instance. -/
def Message (V : Type) : Nat → Type
  | 0 => Unit
  | n + 1 => Fields V (Message V n)

namespace Message

variable {V : Type}

/-- `default_instance` -/
def default : (n : Nat) → Message V n
  | 0 => ()
  | _ + 1 => { scalars := fun _ => [], subs := fun _ => [] }

/-- `GetInt32` and its siblings: the value that is set, or the default. -/
def getScalar (fds : FieldDescriptor V) : {n : Nat} → Message V n → V
  | 0, _ => fds.defaultValue
  | _ + 1, m => (Fields.scalars m fds.index).headD fds.defaultValue

/-- `GetRepeatedInt32` and its siblings, which are fatal for a field that is not repeated. -/
def getRepeatedScalar (fds : FieldDescriptor V) : {n : Nat} → Message V n → Nat → Option V
  | 0, _, _ => none
  | _ + 1, m, i => if fds.isRepeated then (Fields.scalars m fds.index)[i]? else none

end Message

/-! ## The comparison -/

variable {V : Type}

section Comparison

variable [DecidableEq V] {n : Nat} (equalInnerField : FieldDescriptor V → Message V n → Message V n → Option Bool)

/-- `protobuf_equal_inner_map_bool` and the five others, which differ in the type of the key. They
    read the key of an entry as a repeated field. -/
def equalInnerMapOf (l r : Fields V (Message V n)) (fieldFds keyFds valueFds : FieldDescriptor V) :
    Option Bool := do
  let lmap ← (l.subs fieldFds.index).zipIdx.mapM fun (lvalue, i) => do
    let lkey ← lvalue.getRepeatedScalar keyFds i
    return (lkey, lvalue)
  (r.subs fieldFds.index).zipIdx.allM fun (rvalue, i) => do
    let rkey ← rvalue.getRepeatedScalar keyFds i
    match lmap.reverse.lookup rkey with
    | none => return false
    | some lvalue => equalInnerField valueFds lvalue rvalue

/-- `protobuf_equal_inner_map`: whether the map is compared here, and the result. The type is that
    of the map field. -/
def equalInnerMap (l r : Fields V (Message V n)) (fieldFds keyFds valueFds : FieldDescriptor V) :
    Option (Bool × Bool) :=
  match fieldFds.cppType with
  | .bool | .int32 | .int64 | .uint32 | .uint64 | .string => do
    let result ← equalInnerMapOf equalInnerField l r fieldFds keyFds valueFds
    return (true, result)
  | .enum | .message => some (false, false)

/-- `protobuf_equal_inner_message` of two messages of one type that are not the same object. -/
def equalInnerMessage (pool : DescriptorPool V) (t : Nat) (l r : Message V n) : Option Bool :=
  (pool.fields t).allM fun fds => equalInnerField fds l r

/-- The part of `protobuf_equal_inner_field` for a repeated field of messages: as a map, or one
    after the other. -/
def equalInnerRepeated (pool : DescriptorPool V) (fds : FieldDescriptor V)
    (l r : Fields V (Message V n)) : Option Bool := do
  let (compared, result) ←
    if fds.isMap then
      match pool.fields fds.messageType with
      | key :: value :: _ => equalInnerMap equalInnerField l r fds key value
      | _ => some (false, false)
    else some (false, false)
  if compared then return result
  else
    ((l.subs fds.index).zip (r.subs fds.index)).allM fun (lvalue, rvalue) =>
      equalInnerMessage equalInnerField pool fds.messageType lvalue rvalue

/-- `FieldSize` -/
def fieldSize (m : Fields V (Message V n)) (fds : FieldDescriptor V) : Nat :=
  if fds.cppType = .message then (m.subs fds.index).length else (m.scalars fds.index).length

/-- `protobuf_equal_inner_field`, with the function for the fields of sub-messages. Two sub-messages
    that are not set are the same object, the default instance. -/
def equalInnerFieldOf (pool : DescriptorPool V) (fds : FieldDescriptor V)
    (l r : Fields V (Message V n)) : Option Bool :=
  if fds.isRepeated ∧ fieldSize l fds ≠ fieldSize r fds then some false
  else
    match fds.cppType with
    | .int32 | .int64 | .uint32 | .uint64 | .string | .bool | .enum =>
      if fds.isRepeated then
        some (((l.scalars fds.index).zip (r.scalars fds.index)).all fun (lv, rv) => lv == rv)
      else
        some ((l.scalars fds.index).headD fds.defaultValue ==
          (r.scalars fds.index).headD fds.defaultValue)
    | .message =>
      if fds.isRepeated then equalInnerRepeated equalInnerField pool fds l r
      else if (l.subs fds.index).isEmpty ∧ (r.subs fds.index).isEmpty then some true
      else
        equalInnerMessage equalInnerField pool fds.messageType
          ((l.subs fds.index).headD (Message.default n))
          ((r.subs fds.index).headD (Message.default n))

end Comparison

/-- `protobuf_equal_inner_field` -/
def equalInnerField [DecidableEq V] (pool : DescriptorPool V) :
    (n : Nat) → FieldDescriptor V → Message V n → Message V n → Option Bool
  | 0 => fun _ _ _ => some true
  | n + 1 => equalInnerFieldOf (equalInnerField pool n) pool

/-! ## Equality of values -/

section Meaning

variable {n : Nat} (pool : DescriptorPool V)

/-- The messages agree on every field of their type, as `agree` has it for a field. -/
def AllFields (agree : FieldDescriptor V → Message V n → Message V n → Prop) (t : Nat)
    (l r : Message V n) : Prop :=
  ∀ fds ∈ pool.fields t, agree fds l r

/-- The entries of a map in another, with the same key and value. -/
def SubMap (same : FieldDescriptor V → Message V n → Message V n → Prop)
    (key value : FieldDescriptor V) (ls rs : List (Message V n)) : Prop :=
  ∀ e ∈ ls, ∃ e' ∈ rs, e.getScalar key = e'.getScalar key ∧ same value e e'

/-- The messages have the same value in a field; `same` says so for sub-messages. Maps are compared
    as finite maps, and a sub-message that is not set counts as its default. -/
def SameFieldOf (same : FieldDescriptor V → Message V n → Message V n → Prop)
    (fds : FieldDescriptor V) (l r : Fields V (Message V n)) : Prop :=
  if fds.cppType = .message then
    if fds.isRepeated then
      if fds.isMap then
        ∀ key value, pool.fields fds.messageType = [key, value] →
          SubMap same key value (l.subs fds.index) (r.subs fds.index) ∧
            SubMap (fun fds e e' => same fds e' e) key value (r.subs fds.index) (l.subs fds.index)
      else
        List.Forall₂ (AllFields pool same fds.messageType) (l.subs fds.index) (r.subs fds.index)
    else
      AllFields pool same fds.messageType ((l.subs fds.index).headD (Message.default n))
        ((r.subs fds.index).headD (Message.default n))
  else if fds.isRepeated then l.scalars fds.index = r.scalars fds.index
  else (l.scalars fds.index).headD fds.defaultValue = (r.scalars fds.index).headD fds.defaultValue

/-- Maps in a field are enumerated in the same order of their keys, at every depth. -/
def SameOrderOf (order : FieldDescriptor V → Message V n → Message V n → Prop)
    (fds : FieldDescriptor V) (l r : Fields V (Message V n)) : Prop :=
  fds.cppType = .message →
    if fds.isRepeated then
      if fds.isMap then
        ∀ key value, pool.fields fds.messageType = [key, value] →
          (l.subs fds.index).map (Message.getScalar key) =
              (r.subs fds.index).map (Message.getScalar key) ∧
            ∀ e e', (e, e') ∈ (l.subs fds.index).zip (r.subs fds.index) → order value e e'
      else
        ∀ e e', (e, e') ∈ (l.subs fds.index).zip (r.subs fds.index) →
          AllFields pool order fds.messageType e e'
    else
      AllFields pool order fds.messageType ((l.subs fds.index).headD (Message.default n))
        ((r.subs fds.index).headD (Message.default n))

/-- The maps in a field have every key once, at every depth. -/
def DistinctKeysOf (distinct : FieldDescriptor V → Message V n → Prop) (fds : FieldDescriptor V)
    (m : Fields V (Message V n)) : Prop :=
  fds.cppType = .message →
    (fds.isMap = true → ∀ key value, pool.fields fds.messageType = [key, value] →
      ((m.subs fds.index).map (Message.getScalar key)).Nodup) ∧
    ∀ e ∈ m.subs fds.index, ∀ sub ∈ pool.fields fds.messageType, distinct sub e

end Meaning

/-- The messages have the same value in a field. -/
def SameField (pool : DescriptorPool V) :
    (n : Nat) → FieldDescriptor V → Message V n → Message V n → Prop
  | 0 => fun _ _ _ => True
  | n + 1 => SameFieldOf pool (SameField pool n)

/-- The maps in a field are enumerated in the same order of their keys. -/
def SameOrder (pool : DescriptorPool V) :
    (n : Nat) → FieldDescriptor V → Message V n → Message V n → Prop
  | 0 => fun _ _ _ => True
  | n + 1 => SameOrderOf pool (SameOrder pool n)

/-- The maps in a field have every key once. -/
def DistinctKeys (pool : DescriptorPool V) : (n : Nat) → FieldDescriptor V → Message V n → Prop
  | 0 => fun _ _ => True
  | n + 1 => DistinctKeysOf pool (DistinctKeys pool n)

/-! ## The loops -/

theorem allM_eq_some_true_iff {α : Type} (f : α → Option Bool) (l : List α) :
    l.allM f = some true ↔ ∀ a ∈ l, f a = some true := by
  induction l with
  | nil => simp [List.allM]
  | cons a l ih =>
    rw [List.forall_mem_cons, ← ih, List.allM]
    cases hfa : f a with
    | none => simp
    | some b => cases b <;> simp

theorem allM_isSome {α : Type} {f : α → Option Bool} {l : List α} (h : ∀ a ∈ l, (f a).isSome) :
    (l.allM f).isSome := by
  induction l with
  | nil => rfl
  | cons a l ih =>
    obtain ⟨b, hb⟩ := Option.isSome_iff_exists.1 (h a List.mem_cons_self)
    rw [List.allM, hb]
    cases b with
    | false => rfl
    | true => exact ih fun a ha => h a (List.mem_cons_of_mem _ ha)

/-- Of two lists of different keys, matching elements stand at the same places exactly if the keys
    are in the same order. -/
theorem forall₂_iff_of_nodup {α β : Type} {key : α → β} {R : α → α → Prop} (ls : List α)
    {rs : List α} (hr : (rs.map key).Nodup) :
    List.Forall₂ (fun a b => key a = key b ∧ R a b) ls rs ↔
      ls.map key = rs.map key ∧ ∀ a ∈ ls, ∃ b ∈ rs, key a = key b ∧ R a b := by
  constructor
  · intro h
    induction h with
    | nil => simp
    | cons hab htail ih =>
      obtain ⟨hkeys, hall⟩ := ih (List.nodup_cons.1 hr).2
      refine ⟨by rw [List.map_cons, List.map_cons, hab.1, hkeys], ?_⟩
      rintro a (_ | ⟨_, ha⟩)
      · exact ⟨_, List.mem_cons_self, hab⟩
      · obtain ⟨b, hb, hmatch⟩ := hall a ha
        exact ⟨b, List.mem_cons_of_mem _ hb, hmatch⟩
  · rintro ⟨hkeys, hall⟩
    induction ls generalizing rs with
    | nil =>
      cases rs with
      | nil => exact List.Forall₂.nil
      | cons b rs => cases hkeys
    | cons a ls ih =>
      cases rs with
      | nil => cases hkeys
      | cons b rs =>
        rw [List.map_cons, List.map_cons, List.cons.injEq] at hkeys
        rw [List.map_cons, List.nodup_cons] at hr
        have hnotMem : ∀ c ∈ rs, key c ≠ key b := fun c hc heq =>
          hr.1 (heq ▸ List.mem_map_of_mem hc)
        refine List.Forall₂.cons ?_ (ih hr.2 hkeys.2 fun c hc => ?_)
        · obtain ⟨c, hc, hmatch⟩ := hall a List.mem_cons_self
          rcases List.mem_cons.1 hc with rfl | hc
          · exact hmatch
          · exact absurd (hmatch.1.symm.trans hkeys.1) (hnotMem c hc)
        · obtain ⟨d, hd, hmatch⟩ := hall c (List.mem_cons_of_mem _ hc)
          rcases List.mem_cons.1 hd with rfl | hd
          · -- the key of an element behind the first is not that of the first
            have hmem : key c ∈ rs.map key := hkeys.2 ▸ List.mem_map_of_mem hc
            exact absurd (hmatch.1 ▸ hmem) hr.1
          · exact ⟨d, hd, hmatch⟩

/-! ## Default instances and scalars -/

section Fields

variable (pool : DescriptorPool V)

theorem sameField_default (n : Nat) (fds : FieldDescriptor V) :
    SameField pool n fds (Message.default n) (Message.default n) := by
  induction n generalizing fds with
  | zero => trivial
  | succ n ih =>
    show SameFieldOf pool (SameField pool n) fds _ _
    unfold SameFieldOf
    split
    · split
      · split
        · exact fun key value _ => ⟨by simp [SubMap, Message.default], by simp [SubMap, Message.default]⟩
        · exact List.Forall₂.nil
      · exact fun sub _ => ih sub
    · split <;> rfl

theorem sameOrder_default (n : Nat) (fds : FieldDescriptor V) :
    SameOrder pool n fds (Message.default n) (Message.default n) := by
  induction n generalizing fds with
  | zero => trivial
  | succ n ih =>
    show SameOrderOf pool (SameOrder pool n) fds _ _
    intro _
    split
    · split
      · exact fun key value _ => ⟨rfl, by simp [Message.default]⟩
      · simp [Message.default]
    · exact fun sub _ => ih sub

theorem distinctKeys_default (n : Nat) (fds : FieldDescriptor V) :
    DistinctKeys pool n fds (Message.default n) := by
  cases n with
  | zero => trivial
  | succ n => exact fun _ => ⟨fun _ _ _ _ => List.nodup_nil, by simp [Message.default]⟩

theorem sameField_scalar {key : FieldDescriptor V} (hsingle : key.isRepeated = false)
    (hscalar : key.cppType ≠ .message) {n : Nat} (e e' : Message V n) :
    SameField pool n key e e' ↔ e.getScalar key = e'.getScalar key := by
  cases n with
  | zero => exact iff_of_true trivial rfl
  | succ n =>
    show SameFieldOf pool (SameField pool n) key e e' ↔ _
    unfold SameFieldOf
    rw [if_neg hscalar, if_neg (by simp [hsingle])]
    exact Iff.rfl

theorem sameOrder_scalar {key : FieldDescriptor V} (hscalar : key.cppType ≠ .message)
    {n : Nat} (e e' : Message V n) : SameOrder pool n key e e' := by
  cases n with
  | zero => trivial
  | succ n => exact fun hm => absurd hm hscalar

/-- Entries of maps that are compared one after the other: the maps are equal, and their keys are
    in the same order. -/
theorem forall₂_entries_iff {n : Nat} {key value : FieldDescriptor V}
    {same : FieldDescriptor V → Message V n → Message V n → Prop} {ls rs : List (Message V n)}
    (hl : (ls.map (Message.getScalar key)).Nodup) (hr : (rs.map (Message.getScalar key)).Nodup) :
    List.Forall₂ (fun e e' => e.getScalar key = e'.getScalar key ∧ same value e e') ls rs ↔
      (SubMap same key value ls rs ∧ SubMap (fun fds e e' => same fds e' e) key value rs ls) ∧
        ls.map (Message.getScalar key) = rs.map (Message.getScalar key) := by
  have hiff := forall₂_iff_of_nodup (R := same value) ls hr
  constructor
  · intro h
    have hflip := (forall₂_iff_of_nodup (R := fun e e' => same value e' e) rs hl).1
      (h.flip.imp fun e e' hee => ⟨hee.1.symm, hee.2⟩)
    exact ⟨⟨(hiff.1 h).2, hflip.2⟩, (hiff.1 h).1⟩
  · rintro ⟨⟨hsub, -⟩, hkeys⟩
    exact hiff.2 ⟨hkeys, hsub⟩

/-- An entry has a key, which is a scalar, and a value. -/
theorem allFields_entry {key value : FieldDescriptor V} {t : Nat}
    (hentry : pool.fields t = [key, value]) {n : Nat}
    (agree : FieldDescriptor V → Message V n → Message V n → Prop) (e e' : Message V n) :
    AllFields pool agree t e e' ↔ agree key e e' ∧ agree value e e' := by
  simp [AllFields, hentry]

end Fields

/-! ## What the comparison finds -/

section Correct

variable [DecidableEq V] (pool : DescriptorPool V) {n : Nat}

/-- The switch on the type of the field leaves every map to the comparison of elements. -/
theorem equalInnerRepeated_eq
    (inner : FieldDescriptor V → Message V n → Message V n → Option Bool)
    {fds : FieldDescriptor V} (hm : fds.cppType = .message) (l r : Fields V (Message V n)) :
    equalInnerRepeated inner pool fds l r =
      ((l.subs fds.index).zip (r.subs fds.index)).allM fun (lvalue, rvalue) =>
        equalInnerMessage inner pool fds.messageType lvalue rvalue := by
  unfold equalInnerRepeated
  split
  · split
    · simp [equalInnerMap, hm]
    · rfl
  · rfl

/-- A repeated field of messages is equal if its elements are, one after the other. -/
theorem equalInnerFieldOf_repeated
    (inner : FieldDescriptor V → Message V n → Message V n → Option Bool)
    {fds : FieldDescriptor V} (hm : fds.cppType = .message) (hrepeated : fds.isRepeated = true)
    (l r : Fields V (Message V n)) :
    equalInnerFieldOf inner pool fds l r = some true ↔
      List.Forall₂ (fun e e' => equalInnerMessage inner pool fds.messageType e e' = some true)
        (l.subs fds.index) (r.subs fds.index) := by
  rw [List.forall₂_iff_zip]
  unfold equalInnerFieldOf fieldSize
  simp only [hm, hrepeated, if_true, true_and, equalInnerRepeated_eq pool inner hm]
  by_cases hsize : (l.subs fds.index).length = (r.subs fds.index).length
  · rw [if_neg (not_not_intro hsize), allM_eq_some_true_iff]
    exact ⟨fun h => ⟨hsize, fun {a b} hab => h (a, b) hab⟩, fun h p hp => h.2 hp⟩
  · rw [if_pos hsize]
    exact ⟨fun h => absurd h (by simp), fun h => absurd h.1 hsize⟩

/-- The comparison of a field is right for messages that are nested less than `n` deep. -/
def RightBelow (n : Nat) : Prop :=
  ∀ t, ∀ fds ∈ pool.fields t, ∀ l r : Message V n, DistinctKeys pool n fds l → DistinctKeys pool n fds r →
    (equalInnerField pool n fds l r = some true ↔
      SameField pool n fds l r ∧ SameOrder pool n fds l r)

variable {pool}

theorem equalInnerMessage_iff (ih : RightBelow pool n) (t : Nat) {e e' : Message V n}
    (he : ∀ fds ∈ pool.fields t, DistinctKeys pool n fds e)
    (he' : ∀ fds ∈ pool.fields t, DistinctKeys pool n fds e') :
    equalInnerMessage (equalInnerField pool n) pool t e e' = some true ↔
      AllFields pool (SameField pool n) t e e' ∧ AllFields pool (SameOrder pool n) t e e' := by
  rw [equalInnerMessage, allM_eq_some_true_iff, AllFields, AllFields, ← forall₂_and]
  exact forall₂_congr fun fds hfds => ih t fds hfds e e' (he fds hfds) (he' fds hfds)

variable {fds : FieldDescriptor V} {l r : Fields V (Message V n)}

/-- Scalars have no maps in them. -/
theorem equalInnerFieldOf_scalar (hm : fds.cppType ≠ .message) :
    equalInnerFieldOf (equalInnerField pool n) pool fds l r = some true ↔
      SameFieldOf pool (SameField pool n) fds l r := by
  unfold equalInnerFieldOf SameFieldOf fieldSize
  by_cases hrepeated : fds.isRepeated = true
  · simp only [hm, hrepeated, if_true, if_false, true_and]
    have hloop : (l.scalars fds.index).length = (r.scalars fds.index).length →
        (((l.scalars fds.index).zip (r.scalars fds.index)).all (fun (lv, rv) => lv == rv) = true ↔
          l.scalars fds.index = r.scalars fds.index) := by
      intro hsize
      rw [← List.forall₂_eq_eq_eq, List.forall₂_iff_zip, List.all_eq_true]
      exact ⟨fun h => ⟨hsize, fun {a b} hab => by simpa using h (a, b) hab⟩,
        fun h p hp => by simpa using h.2 hp⟩
    by_cases hsize : (l.scalars fds.index).length = (r.scalars fds.index).length
    · rw [if_neg (not_not_intro hsize), ← hloop hsize]
      cases htype : fds.cppType with
      | message => exact absurd htype hm
      | _ => simp
    · rw [if_pos hsize]
      exact ⟨fun h => absurd h (by simp), fun h => absurd (congrArg List.length h) hsize⟩
  · simp only [hm, hrepeated, if_false]
    cases htype : fds.cppType with
    | message => exact absurd htype hm
    | _ => simp

/-- A sub-message that is not set counts as the default instance. -/
theorem equalInnerFieldOf_single (ih : RightBelow pool n) (hm : fds.cppType = .message)
    (hsingle : ¬ fds.isRepeated = true)
    (hl : DistinctKeysOf pool (DistinctKeys pool n) fds l)
    (hr : DistinctKeysOf pool (DistinctKeys pool n) fds r) :
    equalInnerFieldOf (equalInnerField pool n) pool fds l r = some true ↔
      SameFieldOf pool (SameField pool n) fds l r ∧ SameOrderOf pool (SameOrder pool n) fds l r := by
  have hdistinct : ∀ {m : Fields V (Message V n)},
      DistinctKeysOf pool (DistinctKeys pool n) fds m → ∀ sub ∈ pool.fields fds.messageType,
        DistinctKeys pool n sub ((m.subs fds.index).headD (Message.default n)) := by
    intro m hdistinct sub hsub
    cases hsubs : m.subs fds.index with
    | nil => exact distinctKeys_default pool n sub
    | cons e rest => exact (hdistinct hm).2 e (hsubs ▸ List.mem_cons_self) sub hsub
  unfold equalInnerFieldOf SameFieldOf SameOrderOf
  simp only [hm, hsingle, if_true, forall_const]
  by_cases hunset : (l.subs fds.index).isEmpty = true ∧ (r.subs fds.index).isEmpty = true
  · rw [if_pos hunset, List.isEmpty_iff.1 hunset.1, List.isEmpty_iff.1 hunset.2]
    exact iff_of_true rfl ⟨fun sub _ => sameField_default pool n sub,
      fun sub _ => sameOrder_default pool n sub⟩
  · rw [if_neg hunset]
    exact equalInnerMessage_iff ih fds.messageType (hdistinct hl) (hdistinct hr)

/-- A field that holds a list of messages: they are compared one after the other. -/
theorem equalInnerFieldOf_list (ih : RightBelow pool n) (hm : fds.cppType = .message)
    (hrepeated : fds.isRepeated = true)
    (hl : DistinctKeysOf pool (DistinctKeys pool n) fds l)
    (hr : DistinctKeysOf pool (DistinctKeys pool n) fds r) :
    equalInnerFieldOf (equalInnerField pool n) pool fds l r = some true ↔
      List.Forall₂ (AllFields pool (SameField pool n) fds.messageType) (l.subs fds.index)
          (r.subs fds.index) ∧
        ∀ e e', (e, e') ∈ (l.subs fds.index).zip (r.subs fds.index) →
          AllFields pool (SameOrder pool n) fds.messageType e e' := by
  rw [equalInnerFieldOf_repeated pool _ hm hrepeated, List.forall₂_iff_zip, List.forall₂_iff_zip]
  have hpair : ∀ {e e'}, (e, e') ∈ (l.subs fds.index).zip (r.subs fds.index) →
      (equalInnerMessage (equalInnerField pool n) pool fds.messageType e e' = some true ↔
        AllFields pool (SameField pool n) fds.messageType e e' ∧
          AllFields pool (SameOrder pool n) fds.messageType e e') := by
    intro e e' hmem
    obtain ⟨hleft, hright⟩ := List.of_mem_zip hmem
    exact equalInnerMessage_iff ih fds.messageType ((hl hm).2 e hleft) ((hr hm).2 e' hright)
  constructor
  · rintro ⟨hsize, hall⟩
    exact ⟨⟨hsize, fun hmem => ((hpair hmem).1 (hall hmem)).1⟩,
      fun e e' hmem => ((hpair hmem).1 (hall hmem)).2⟩
  · rintro ⟨⟨hsize, hsame⟩, horder⟩
    exact ⟨hsize, fun hmem => (hpair hmem).2 ⟨hsame hmem, horder _ _ hmem⟩⟩

theorem equalInnerFieldOf_map (ih : RightBelow pool n) (hm : fds.cppType = .message)
    (hrepeated : fds.isRepeated = true) (hmap : fds.isMap = true) {t : Nat}
    (hfds : fds ∈ pool.fields t)
    (hl : DistinctKeysOf pool (DistinctKeys pool n) fds l)
    (hr : DistinctKeysOf pool (DistinctKeys pool n) fds r) :
    equalInnerFieldOf (equalInnerField pool n) pool fds l r = some true ↔
      SameFieldOf pool (SameField pool n) fds l r ∧ SameOrderOf pool (SameOrder pool n) fds l r := by
  obtain ⟨key, value, hentry, hsingle, htype⟩ := pool.entry t fds hfds hmap
  have hscalar : key.cppType ≠ .message := by
    intro heq
    rw [heq] at htype
    simp [mapKeyTypes] at htype
  have hthis : ∀ {p : FieldDescriptor V → FieldDescriptor V → Prop},
      (∀ key value, pool.fields fds.messageType = [key, value] → p key value) ↔ p key value := by
    intro p
    constructor
    · exact fun h => h key value hentry
    · intro h key' value' hentry'
      rw [hentry] at hentry'
      cases hentry'
      exact h
  rw [equalInnerFieldOf_list ih hm hrepeated hl hr]
  unfold SameFieldOf SameOrderOf
  simp only [hm, hrepeated, hmap, if_true, forall_const]
  rw [hthis, hthis, ← and_assoc, ← forall₂_entries_iff ((hl hm).1 hmap key value hentry)
    ((hr hm).1 hmap key value hentry)]
  have hsame : AllFields pool (SameField pool n) fds.messageType =
      fun e e' => e.getScalar key = e'.getScalar key ∧ SameField pool n value e e' := by
    funext e e'
    rw [allFields_entry pool hentry, sameField_scalar pool hsingle hscalar]
  have horder : AllFields pool (SameOrder pool n) fds.messageType = SameOrder pool n value := by
    funext e e'
    rw [allFields_entry pool hentry, eq_true (sameOrder_scalar pool hscalar e e'), true_and]
  rw [hsame, horder]

theorem rightBelow (n : Nat) : RightBelow pool n := by
  induction n with
  | zero => exact fun _ _ _ _ _ _ _ => iff_of_true rfl ⟨trivial, trivial⟩
  | succ n ih =>
    intro t fds hfds l r hl hr
    by_cases hm : fds.cppType = .message
    · by_cases hrepeated : fds.isRepeated = true
      · by_cases hmap : fds.isMap = true
        · exact equalInnerFieldOf_map ih hm hrepeated hmap hfds hl hr
        · refine (equalInnerFieldOf_list ih hm hrepeated hl hr).trans ?_
          show _ ↔ SameFieldOf pool (SameField pool n) fds l r ∧
            SameOrderOf pool (SameOrder pool n) fds l r
          unfold SameFieldOf SameOrderOf
          simp only [hm, hrepeated, hmap, if_true, forall_const]
          exact Iff.rfl
      · exact equalInnerFieldOf_single ih hm hrepeated hl hr
    · exact (equalInnerFieldOf_scalar hm).trans (iff_self_and.2 fun _ heq => absurd heq hm)

theorem equalInnerFieldOf_isSome
    {inner : FieldDescriptor V → Message V n → Message V n → Option Bool}
    (hinner : ∀ fds e e', (inner fds e e').isSome) (fds : FieldDescriptor V)
    (l r : Fields V (Message V n)) : (equalInnerFieldOf inner pool fds l r).isSome := by
  have hmessage : ∀ t (e e' : Message V n), (equalInnerMessage inner pool t e e').isSome :=
    fun t e e' => allM_isSome fun sub _ => hinner sub e e'
  unfold equalInnerFieldOf
  split
  · rfl
  · cases htype : fds.cppType with
    | message =>
      dsimp only
      split
      · rw [equalInnerRepeated_eq pool _ htype]
        exact allM_isSome fun _ _ => hmessage _ _ _
      · split
        · rfl
        · exact hmessage _ _ _
    | _ => dsimp only; split <;> rfl

/-- No accessor is used on a field of another kind. -/
theorem equalInnerField_isSome (n : Nat) (fds : FieldDescriptor V) (l r : Message V n) :
    (equalInnerField pool n fds l r).isSome := by
  induction n generalizing fds with
  | zero => rfl
  | succ n ih => exact equalInnerFieldOf_isSome (fun sub e e' => ih sub e e') fds l r

end Correct

/-! ## Two messages -/

/-- A message of a type, nested less than `n` deep. -/
structure ProtoMessage (pool : DescriptorPool V) (n : Nat) where
  type : Nat
  content : Message V n
  distinct : ∀ fds ∈ pool.fields type, DistinctKeys pool n fds content

namespace ProtoMessage

variable {pool : DescriptorPool V} {n : Nat}

/-- The messages have the same value in every field. -/
def SameValue (l r : ProtoMessage pool n) : Prop :=
  l.type = r.type ∧ AllFields pool (SameField pool n) l.type l.content r.content

/-- The maps of both messages are enumerated in the same order. -/
def SameEnumeration (l r : ProtoMessage pool n) : Prop :=
  AllFields pool (SameOrder pool n) l.type l.content r.content

/-- `protobuf_equal` of two objects -/
def protobufEqual [DecidableEq V] (l r : ProtoMessage pool n) : Option Bool :=
  if l.type ≠ r.type then some false
  else equalInnerMessage (equalInnerField pool n) pool l.type l.content r.content

theorem protobufEqual_iff [DecidableEq V] (l r : ProtoMessage pool n) :
    protobufEqual l r = some true ↔ l.SameValue r ∧ l.SameEnumeration r := by
  unfold protobufEqual SameValue SameEnumeration
  by_cases htype : l.type = r.type
  · rw [if_neg (not_not_intro htype),
      equalInnerMessage_iff (rightBelow n) l.type l.distinct (htype ▸ r.distinct)]
    simp [htype]
  · rw [if_pos htype]
    simp [htype]

/-- **`protobuf_equal` is equality of values** exactly if equal messages have their maps in the same
    order. -/
theorem protobufEqual_exact [DecidableEq V] (l r : ProtoMessage pool n) :
    (protobufEqual l r = some true ↔ l.SameValue r) ∧ protobufEqual l r ≠ none ↔
      (l.SameValue r → l.SameEnumeration r) := by
  have hsome : protobufEqual l r ≠ none := by
    unfold protobufEqual
    split
    · exact Option.some_ne_none _
    · exact Option.isSome_iff_ne_none.1
        (allM_isSome fun fds _ => equalInnerField_isSome n fds l.content r.content)
  rw [protobufEqual_iff]
  exact ⟨fun h hsame => (h.1.2 hsame).2, fun h => ⟨⟨fun hboth => hboth.1, fun hsame =>
    ⟨hsame, h hsame⟩⟩, hsome⟩⟩

/-- A message type with a map of numbers. -/
def countsPool : DescriptorPool Int where
  fields t :=
    if t = 0 then
      [⟨0, .message, true, true, 1, 0⟩]
    else if t = 1 then
      [⟨0, .int32, false, false, 0, 0⟩, ⟨1, .int32, false, false, 0, 0⟩]
    else []
  entry := by
    intro t fds hfds hmap
    by_cases h0 : t = 0
    · simp only [h0, if_true, List.mem_singleton] at hfds
      subst hfds
      exact ⟨_, _, rfl, rfl, by decide⟩
    · by_cases h1 : t = 1
      · subst h1
        simp at hfds
        rcases hfds with rfl | rfl <;> cases hmap
      · simp [h0, h1] at hfds

/-- An entry of the map. -/
def countEntry (key value : Int) : Message Int 1 :=
  { scalars := fun i => if i = 0 then [key] else if i = 1 then [value] else []
    subs := fun _ => [] }

/-- The message with these entries in its map. -/
def counts (entries : List (Int × Int)) (hkeys : (entries.map Prod.fst).Nodup) :
    ProtoMessage countsPool 2 where
  type := 0
  content :=
    { scalars := fun _ => []
      subs := fun i => if i = 0 then entries.map fun (key, value) => countEntry key value else [] }
  distinct := by
    intro fds hfds _
    obtain rfl : fds = ⟨0, .message, true, true, 1, 0⟩ := List.mem_singleton.1 hfds
    refine ⟨fun _ key value hentry => ?_, fun e _ sub hsub => ?_⟩
    · obtain ⟨rfl, -⟩ := List.cons.inj hentry
      show ((entries.map fun (key, value) => countEntry key value).map _).Nodup
      rw [List.map_map]
      exact hkeys
    · rcases List.mem_pair.1 hsub with rfl | rfl <;> exact fun hm => absurd hm (by decide)

/-- Two messages with the same map are different, because its entries are in another order. -/
theorem not_protobufEqual_counts :
    (counts [(1, 10), (2, 20)] (by decide)).SameValue (counts [(2, 20), (1, 10)] (by decide)) ∧
      protobufEqual (counts [(1, 10), (2, 20)] (by decide)) (counts [(2, 20), (1, 10)] (by decide)) =
        some false := by
  refine ⟨⟨rfl, fun fds hfds => ?_⟩, rfl⟩
  obtain rfl : fds = ⟨0, .message, true, true, 1, 0⟩ := List.mem_singleton.1 hfds
  rintro key value hentry
  obtain ⟨rfl, hvalue⟩ := List.cons.inj hentry
  obtain ⟨rfl, -⟩ := List.cons.inj hvalue
  refine ⟨fun e he => ?_, fun e he => ?_⟩
  · exact ⟨e, List.mem_pair.2 (List.mem_pair.1 he).symm, rfl, rfl⟩
  · exact ⟨e, List.mem_pair.2 (List.mem_pair.1 he).symm, rfl, rfl⟩

end ProtoMessage

end LibAtapp.ProtobufEqual
