import LibAtapp.Connectors.Messages
import LibAtapp.Library.Run

set_option autoImplicit false

/-! # The two indexes of the endpoints

An app finds its endpoints by the id and by the name of their discovery nodes. Removing an endpoint
erases the entries under the id and the name that its node has at that time, so each entry must
stand under the key that the endpoint has now. `mutable_endpoint` does not always keep this: it gives
an endpoint that it finds under one key a node with another key, and leaves the old entry. The main
result says in which runs the indexes are right in every state. -/

namespace LibAtapp.Connectors.App

variable {env : Environment} {s t u : App} {e : EndpointPtr}

/-! ## The property -/

/-- The index by id has an entry of the endpoint. -/
def InById (s : App) (e : EndpointPtr) : Prop := ∃ id, s.endpointIndexById id = some e

/-- The index by name has an entry of the endpoint. -/
def InByName (s : App) (e : EndpointPtr) : Prop := ∃ name, s.endpointIndexByName name = some e

/-- Every entry stands under the key of its endpoint, an endpoint with both keys is in both indexes
    or in neither, and a closed endpoint is in neither. -/
structure IndexConsistent (s : App) : Prop where
  byId : ∀ id e, s.endpointIndexById id = some e → id ≠ 0 ∧ s.getId e = id
  byName : ∀ name e, s.endpointIndexByName name = some e → s.getName e = name
  both : ∀ e, s.getId e ≠ 0 → s.getName e ≠ [] → (s.InById e ↔ s.InByName e)
  closed : ∀ e left, .reset e left ∈ s.trace → ¬ s.InById e ∧ ¬ s.InByName e

/-- The index by name has no entry of the empty name, and new pointers are unused. -/
structure IndexUsable (s : App) : Prop where
  name : ∀ name e, s.endpointIndexByName name = some e → name ≠ []
  fresh : ∀ e, s.endpointCount ≤ e → (s.endpoint e).alive = false ∧ ¬ s.InById e ∧ ¬ s.InByName e ∧
    ∀ left, .reset e left ∉ s.trace

/-! ## The condition -/

/-- The endpoint that `mutable_endpoint` finds: the one with the name of the node, else the one with
    its id. -/
def reused (s : App) (discovery : Option NodePtr) : Option EndpointPtr :=
  if s.isClosing then none
  else
    match discovery with
    | none => none
    | some node =>
      match s.foundByName (s.heap node).name with
      | some e => some e
      | none => s.foundById (s.heap node).id

/-- The endpoint has the id and the name, or has none where it differs. -/
def FitsKeys (s : App) (e : EndpointPtr) (id : Nat) (name : Bytes) : Prop :=
  (s.getId e = id ∨ s.getId e = 0) ∧ (s.getName e = name ∨ s.getName e = [])

instance (s : App) (e : EndpointPtr) (id : Nat) (name : Bytes) : Decidable (s.FitsKeys e id name) :=
  inferInstanceAs (Decidable ((_ ∨ _) ∧ (_ ∨ _)))

/-- **The condition on a step.** An endpoint that `mutable_endpoint` finds does not have another id
    or another name than the node, and a node of an endpoint in an index keeps its id and its
    name. -/
def KeepsKeys (s : App) (input : Environment × AppOp) : Prop :=
  match input.2 with
  | .mutableEndpoint discovery _ => ∀ node ∈ discovery, ∀ e ∈ s.reused discovery,
      s.FitsKeys e (s.heap node).id (s.heap node).name
  | .copyFrom node content => ∀ e, (s.InById e ∨ s.InByName e) →
      (s.endpoint e).discovery = some node → s.getId e = content.id ∧ s.getName e = content.name
  | _ => True

/-! ## Operations that leave the indexes alone -/

/-- The indexes, the keys and the closed endpoints are the same. -/
structure SameIndexes (s t : App) : Prop where
  byId : t.endpointIndexById = s.endpointIndexById
  byName : t.endpointIndexByName = s.endpointIndexByName
  getId : ∀ e, t.getId e = s.getId e
  getName : ∀ e, t.getName e = s.getName e
  resets : ∀ e left, .reset e left ∈ t.trace ↔ .reset e left ∈ s.trace

theorem SameObjects.keys (h : SameObjects s t) (e : EndpointPtr) :
    t.getId e = s.getId e ∧ t.getName e = s.getName e := by
  simp only [App.getId, App.getName, h.discovery, h.heap, and_self]

theorem SameObjects.sameIndexes (h : SameObjects s t)
    (hresets : ∀ e left, .reset e left ∈ t.trace ↔ .reset e left ∈ s.trace) : SameIndexes s t :=
  ⟨h.byId, h.byName, fun e => (h.keys e).1, fun e => (h.keys e).2, hresets⟩

theorem IndexConsistent.congr (hs : IndexConsistent s) (h : SameIndexes s t) :
    IndexConsistent t := by
  refine ⟨?_, ?_, ?_, ?_⟩
  · simpa only [h.byId, h.getId] using hs.byId
  · simpa only [h.byName, h.getName] using hs.byName
  · simpa only [InById, InByName, h.byId, h.byName, h.getId, h.getName] using hs.both
  · simpa only [InById, InByName, h.byId, h.byName, h.resets] using hs.closed

theorem IndexUsable.congr (hs : IndexUsable s) (h : SameIndexes s t)
    (hcount : t.endpointCount = s.endpointCount)
    (halive : ∀ e, (t.endpoint e).alive = true → (s.endpoint e).alive = true) :
    IndexUsable t := by
  refine ⟨?_, fun e he => ?_⟩
  · simpa only [h.byName] using hs.name
  · rw [hcount] at he
    obtain ⟨hdead, hrest⟩ := hs.fresh e he
    refine ⟨?_, ?_⟩
    · rw [← Bool.not_eq_true]
      intro hlive
      rw [halive e hlive] at hdead
      exact absurd hdead (by decide)
    · simpa only [InById, InByName, h.byId, h.byName, h.resets] using hrest

/-- Both indexes are right. -/
structure Indexed (s : App) : Prop where
  consistent : IndexConsistent s
  usable : IndexUsable s

theorem Indexed.balanced (hs : Indexed s) (h : Balanced s t) : Indexed t :=
  have hsame := h.toSameObjects.sameIndexes h.resets
  ⟨hs.consistent.congr hsame, hs.usable.congr hsame h.endpointCount fun e => (h.alive e).symm.trans⟩

/-! ## Removing -/

/-- An endpoint that stands under its keys is in neither index after they are erased. -/
theorem Indexed.resetEndpoint (env : Environment) (hs : Indexed s) (hlt : e < s.endpointCount)
    (hid : ¬ s.InById e) (hname : ¬ s.InByName e) : Indexed (s.resetEndpoint env e) := by
  cases hclosing : (s.endpoint e).closing with
  | true =>
    unfold App.resetEndpoint
    rw [hclosing]
    exact hs
  | false =>
    obtain ⟨t, hbalanced, -, heq⟩ := resetEndpoint_messages env hclosing
    have ht := hs.balanced hbalanced
    have hresets : ∀ e' left, .reset e' left ∈ (t.record (.reset e (t.pendingSerials e))).trace →
        .reset e' left ∈ t.trace ∨ e' = e := by
      intro e' left hmem
      rcases mem_trace_record.1 hmem with hold | hlast
      · exact Or.inl hold
      · cases hlast
        exact Or.inr rfl
    rw [heq]
    refine ⟨⟨ht.consistent.byId, ht.consistent.byName, ht.consistent.both, fun e' left hmem => ?_⟩,
      ⟨ht.usable.name, fun e' he' => ?_⟩⟩
    · rcases hresets e' left hmem with hold | hlast
      · exact ht.consistent.closed e' left hold
      · subst hlast
        change ¬ t.InById e' ∧ ¬ t.InByName e'
        rw [InById, InByName, hbalanced.byId, hbalanced.byName]
        exact ⟨hid, hname⟩
    · obtain ⟨hdead, hnotId, hnotName, hnone⟩ := ht.usable.fresh e' he'
      refine ⟨hdead, hnotId, hnotName, fun left hmem => ?_⟩
      rcases hresets e' left hmem with hold | hlast
      · exact hnone left hold
      · have hcount : t.endpointCount ≤ e' := he'
        rw [hlast, hbalanced.endpointCount] at hcount
        exact absurd hlt (Nat.not_lt.2 hcount)

/-- Exactly the entries of one endpoint are gone. -/
structure Forgets (e : EndpointPtr) (s t : App) : Prop where
  byId : ∀ id e', t.endpointIndexById id = some e' ↔ s.endpointIndexById id = some e' ∧ e' ≠ e
  byName : ∀ name e',
    t.endpointIndexByName name = some e' ↔ s.endpointIndexByName name = some e' ∧ e' ≠ e
  endpoint : t.endpoint = s.endpoint
  heap : t.heap = s.heap
  trace : t.trace = s.trace
  endpointCount : t.endpointCount = s.endpointCount

theorem Forgets.inById (h : Forgets e s t) (e' : EndpointPtr) :
    t.InById e' ↔ s.InById e' ∧ e' ≠ e := by
  simp only [InById, h.byId, exists_and_right]

theorem Forgets.inByName (h : Forgets e s t) (e' : EndpointPtr) :
    t.InByName e' ↔ s.InByName e' ∧ e' ≠ e := by
  simp only [InByName, h.byName, exists_and_right]

theorem Forgets.keys (h : Forgets e s t) (e' : EndpointPtr) :
    t.getId e' = s.getId e' ∧ t.getName e' = s.getName e' := by
  simp only [App.getId, App.getName, h.endpoint, h.heap, and_self]

theorem Indexed.forgets (hs : Indexed s) (h : Forgets e s t) : Indexed t := by
  refine ⟨⟨fun id e' hid => ?_, fun name e' hname => ?_, fun e' hid hname => ?_,
    fun e' left hmem => ?_⟩, ⟨fun name e' hname => ?_, fun e' he' => ?_⟩⟩
  · rw [(h.keys e').1]
    exact hs.consistent.byId id e' ((h.byId id e').1 hid).1
  · rw [(h.keys e').2]
    exact hs.consistent.byName name e' ((h.byName name e').1 hname).1
  · rw [(h.keys e').1] at hid
    rw [(h.keys e').2] at hname
    rw [h.inById, h.inByName, hs.consistent.both e' hid hname]
  · rw [h.trace] at hmem
    obtain ⟨hnotId, hnotName⟩ := hs.consistent.closed e' left hmem
    rw [h.inById, h.inByName]
    exact ⟨fun h' => hnotId h'.1, fun h' => hnotName h'.1⟩
  · exact hs.usable.name name e' ((h.byName name e').1 hname).1
  · rw [h.endpointCount] at he'
    obtain ⟨hdead, hnotId, hnotName, hnone⟩ := hs.usable.fresh e' he'
    rw [h.inById, h.inByName, h.endpoint, h.trace]
    exact ⟨hdead, fun h' => hnotId h'.1, fun h' => hnotName h'.1, hnone⟩

/-- Erasing the id of an endpoint, which stands under no other, erases its entry and no other. -/
theorem endpointIndexById_eraseIdOf {key : Nat}
    (hkey : ∀ id, s.endpointIndexById id = some e → id ≠ 0 ∧ key = id) (id : Nat) (e' : EndpointPtr) :
    (s.eraseIdOf e key).endpointIndexById id = some e' ↔
      s.endpointIndexById id = some e' ∧ e' ≠ e := by
  unfold eraseIdOf
  split
  · next hentry =>
    show Function.update s.endpointIndexById key none id = some e' ↔ _
    by_cases heq : id = key
    · subst heq
      rw [Function.update_self, hentry.2]
      simp [eq_comm]
    · rw [Function.update_of_ne heq]
      refine ⟨fun h => ⟨h, fun hself => heq ?_⟩, fun h => h.1⟩
      rw [hself] at h
      exact (hkey id h).2.symm
  · next hnone =>
    refine ⟨fun h => ⟨h, fun hself => hnone ?_⟩, fun h => h.1⟩
    rw [hself] at h
    obtain ⟨hne, hid⟩ := hkey id h
    rw [hid]
    exact ⟨hne, h⟩

theorem endpointIndexByName_eraseNameOf {key : Bytes}
    (hkey : ∀ name, s.endpointIndexByName name = some e → name ≠ [] ∧ key = name) (name : Bytes)
    (e' : EndpointPtr) :
    (s.eraseNameOf e key).endpointIndexByName name = some e' ↔
      s.endpointIndexByName name = some e' ∧ e' ≠ e := by
  unfold eraseNameOf
  split
  · next hentry =>
    show Function.update s.endpointIndexByName key none name = some e' ↔ _
    by_cases heq : name = key
    · subst heq
      rw [Function.update_self, hentry.2]
      simp [eq_comm]
    · rw [Function.update_of_ne heq]
      refine ⟨fun h => ⟨h, fun hself => heq ?_⟩, fun h => h.1⟩
      rw [hself] at h
      exact (hkey name h).2.symm
  · next hnone =>
    refine ⟨fun h => ⟨h, fun hself => hnone ?_⟩, fun h => h.1⟩
    rw [hself] at h
    obtain ⟨hne, hname⟩ := hkey name h
    rw [hname]
    exact ⟨hne, h⟩

/-- `remove_endpoint` of a pointer erases the entries of the endpoint and no others. -/
theorem forgets_eraseKeys (hs : Indexed s) (e : EndpointPtr) :
    Forgets e s ((s.eraseIdOf e (s.getId e)).eraseNameOf e (s.getName e)) := by
  have hid := endpointIndexById_eraseIdOf (hs.consistent.byId · e)
  obtain ⟨byId, hbyId⟩ := s.eraseIdOf_eq e (s.getId e)
  rw [hbyId] at hid ⊢
  have hkey : ∀ name, (s.withIndexes byId s.endpointIndexByName).endpointIndexByName name = some e →
      name ≠ [] ∧ s.getName e = name :=
    fun name h => ⟨hs.usable.name name e h, hs.consistent.byName name e h⟩
  have hname := endpointIndexByName_eraseNameOf hkey
  obtain ⟨byName, hbyName⟩ :=
    (s.withIndexes byId s.endpointIndexByName).eraseNameOf_eq e (s.getName e)
  rw [hbyName] at hname ⊢
  exact ⟨hid, hname, rfl, rfl, rfl, rfl⟩

theorem sameObjects_resetEndpoint (env : Environment) (s : App) (e : EndpointPtr) :
    SameObjects s (s.resetEndpoint env e) := by
  cases hclosing : (s.endpoint e).closing with
  | true =>
    unfold App.resetEndpoint
    rw [hclosing]
    exact SameObjects.refl s
  | false =>
    obtain ⟨t, hbalanced, -, heq⟩ := resetEndpoint_messages env hclosing
    rw [heq]
    exact hbalanced.toSameObjects.trans (sameObjects_record t _)

/-- `remove_endpoint` of a pointer is erasing its entries and resetting it. -/
theorem removeEndpoint_eq (env : Environment) (hs : Indexed s) (e : EndpointPtr) :
    ∃ t, Forgets e s t ∧ s.removeEndpoint env e = t.resetEndpoint env e := by
  have hkey : (s.eraseIdOf e (s.getId e)).getName e = s.getName e := by
    unfold eraseIdOf
    split <;> rfl
  unfold App.removeEndpoint
  dsimp only
  rw [hkey]
  exact ⟨_, forgets_eraseKeys hs e, rfl⟩

/-- **Removing an endpoint** leaves the indexes right. -/
theorem Indexed.removeEndpoint (env : Environment) (hs : Indexed s) (hlt : e < s.endpointCount) :
    Indexed (s.removeEndpoint env e) := by
  obtain ⟨t, hforgets, heq⟩ := removeEndpoint_eq env hs e
  rw [heq]
  refine (hs.forgets hforgets).resetEndpoint env (hforgets.endpointCount ▸ hlt) ?_ ?_
  · rw [hforgets.inById]
    exact fun h => h.2 rfl
  · rw [hforgets.inByName]
    exact fun h => h.2 rfl

/-- An endpoint in an index is not a new one. -/
theorem IndexUsable.lt_of_inById (hs : IndexUsable s) (h : s.InById e) : e < s.endpointCount := by
  by_contra hge
  exact (hs.fresh e (Nat.not_lt.1 hge)).2.1 h

theorem IndexUsable.lt_of_inByName (hs : IndexUsable s) (h : s.InByName e) :
    e < s.endpointCount := by
  by_contra hge
  exact (hs.fresh e (Nat.not_lt.1 hge)).2.2.1 h

/-- Removing by id or by name is removing the endpoint found there. -/
theorem removeEndpointById_eq (hs : Indexed s) {id : Nat} (h : s.endpointIndexById id = some e) :
    s.removeEndpointById env id = s.removeEndpoint env e := by
  obtain ⟨hne, hkey⟩ := hs.consistent.byId id e h
  unfold App.removeEndpointById App.removeEndpoint
  rw [h]
  dsimp only
  rw [eraseIdOf, hkey, if_pos ⟨hne, h⟩]

theorem removeEndpointByName_eq (hs : Indexed s) {name : Bytes}
    (h : s.endpointIndexByName name = some e) :
    s.removeEndpointByName env name = s.removeEndpoint env e := by
  have hkey := hs.consistent.byName name e h
  have hne := hs.usable.name name e h
  unfold App.removeEndpointByName App.removeEndpoint
  rw [h]
  dsimp only
  have hgetId : (s.setIndexByName name none).getId e = s.getId e := rfl
  have hgetName : (s.eraseIdOf e (s.getId e)).getName e = name := by
    rw [← hkey]
    unfold eraseIdOf
    split <;> rfl
  rw [hgetId, hgetName]
  congr 1
  unfold eraseIdOf eraseNameOf
  by_cases hentry : s.getId e ≠ 0 ∧ s.endpointIndexById (s.getId e) = some e
  · have hentry' : s.getId e ≠ 0 ∧
        (s.setIndexByName name none).endpointIndexById (s.getId e) = some e := hentry
    rw [if_pos hentry, if_pos hentry', if_pos ⟨hne, h⟩]
    rfl
  · have hentry' : ¬ (s.getId e ≠ 0 ∧
        (s.setIndexByName name none).endpointIndexById (s.getId e) = some e) := hentry
    rw [if_neg hentry, if_neg hentry', if_pos ⟨hne, h⟩]

theorem Indexed.removeEndpointById (hs : Indexed s) (id : Nat) :
    Indexed (s.removeEndpointById env id) := by
  cases h : s.endpointIndexById id with
  | none =>
    unfold App.removeEndpointById
    rw [h]
    exact hs
  | some e =>
    rw [removeEndpointById_eq hs h]
    exact hs.removeEndpoint _ (hs.usable.lt_of_inById ⟨id, h⟩)

theorem Indexed.removeEndpointByName (hs : Indexed s) (name : Bytes) :
    Indexed (s.removeEndpointByName env name) := by
  cases h : s.endpointIndexByName name with
  | none =>
    unfold App.removeEndpointByName
    rw [h]
    exact hs
  | some e =>
    rw [removeEndpointByName_eq hs h]
    exact hs.removeEndpoint _ (hs.usable.lt_of_inByName ⟨name, h⟩)

/-! ## Storing -/

/-- What `mutable_endpoint` knows when it stores an endpoint: an entry is written where there is
    none, and left where it is that of the endpoint. -/
structure Storable (s : App) (e : EndpointPtr) (id : Nat) (name : Bytes) (needId needName : Bool) :
    Prop where
  newId : needId = true → id ≠ 0 ∧ s.endpointIndexById id = none
  oldId : needId = false → id = 0 ∨ s.endpointIndexById id = some e
  newName : needName = true → name ≠ [] ∧ s.endpointIndexByName name = none
  oldName : needName = false → name = [] ∨ s.endpointIndexByName name = some e
  lt : e < s.endpointCount
  unclosed : ∀ left, .reset e left ∉ s.trace

section

variable {node : NodePtr} {id : Nat} {name : Bytes} {needId needName : Bool}

theorem endpointIndexById_storeEndpoint (h : Storable s e id name needId needName) (id' : Nat)
    (e' : EndpointPtr) :
    (s.storeEndpoint e node id name needId needName).endpointIndexById id' = some e' ↔
      s.endpointIndexById id' = some e' ∨ (needId = true ∧ id' = id ∧ e' = e) := by
  have hentry : (s.storeEndpoint e node id name needId needName).endpointIndexById =
      if needId then Function.update s.endpointIndexById id (some e) else s.endpointIndexById := by
    unfold storeEndpoint
    cases needId <;> cases needName <;> rfl
  rw [hentry]
  cases needId with
  | false => simp
  | true =>
    rw [if_pos rfl]
    by_cases heq : id' = id
    · rw [heq, Function.update_self, (h.newId rfl).2]
      simp [eq_comm]
    · rw [Function.update_of_ne heq]
      simp [heq]

theorem endpointIndexByName_storeEndpoint (h : Storable s e id name needId needName)
    (name' : Bytes) (e' : EndpointPtr) :
    (s.storeEndpoint e node id name needId needName).endpointIndexByName name' = some e' ↔
      s.endpointIndexByName name' = some e' ∨ (needName = true ∧ name' = name ∧ e' = e) := by
  have hentry : (s.storeEndpoint e node id name needId needName).endpointIndexByName =
      if needName then Function.update s.endpointIndexByName name (some e)
      else s.endpointIndexByName := by
    unfold storeEndpoint
    cases needId <;> cases needName <;> rfl
  rw [hentry]
  cases needName with
  | false => simp
  | true =>
    rw [if_pos rfl]
    by_cases heq : name' = name
    · rw [heq, Function.update_self, (h.newName rfl).2]
      simp [eq_comm]
    · rw [Function.update_of_ne heq]
      simp [heq]

/-- The endpoint gets the keys of the node. -/
theorem keys_storeEndpoint (s : App) (e : EndpointPtr) (node : NodePtr) (id : Nat) (name : Bytes)
    (needId needName : Bool) (e' : EndpointPtr) :
    (s.storeEndpoint e node id name needId needName).getId e' =
        (if e' = e then (s.heap node).id else s.getId e') ∧
      (s.storeEndpoint e node id name needId needName).getName e' =
        (if e' = e then (s.heap node).name else s.getName e') := by
  have hheap : (s.storeEndpoint e node id name needId needName).heap = s.heap := by
    unfold storeEndpoint
    cases needId <;> cases needName <;> rfl
  rw [App.getId, App.getName, App.getId, App.getName, endpoint_storeEndpoint, hheap]
  by_cases he : e' = e
  · subst he
    simp
  · simp [he]

theorem storeEndpoint_trace (s : App) (e : EndpointPtr) (node : NodePtr) (id : Nat) (name : Bytes)
    (needId needName : Bool) :
    (s.storeEndpoint e node id name needId needName).trace = s.trace ∧
      (s.storeEndpoint e node id name needId needName).endpointCount = s.endpointCount := by
  unfold storeEndpoint
  cases needId <;> cases needName <;> exact ⟨rfl, rfl⟩

/-- **Storing an endpoint** that fits the keys of the node leaves the indexes right. -/
theorem Indexed.storeEndpoint (hs : Indexed s)
    (h : Storable s e (s.heap node).id (s.heap node).name needId needName)
    (hfits : s.FitsKeys e (s.heap node).id (s.heap node).name) :
    Indexed (s.storeEndpoint e node (s.heap node).id (s.heap node).name needId needName) := by
  set t := s.storeEndpoint e node (s.heap node).id (s.heap node).name needId needName with ht
  have hbyId : ∀ id' e', t.endpointIndexById id' = some e' ↔ s.endpointIndexById id' = some e' ∨
      (needId = true ∧ id' = (s.heap node).id ∧ e' = e) := endpointIndexById_storeEndpoint h
  have hbyName : ∀ name' e', t.endpointIndexByName name' = some e' ↔
      s.endpointIndexByName name' = some e' ∨
        (needName = true ∧ name' = (s.heap node).name ∧ e' = e) :=
    endpointIndexByName_storeEndpoint h
  have hkeys := keys_storeEndpoint s e node (s.heap node).id (s.heap node).name needId needName
  obtain ⟨htrace, hcount⟩ :=
    storeEndpoint_trace s e node (s.heap node).id (s.heap node).name needId needName
  have hother : ∀ e' ≠ e, (t.InById e' ↔ s.InById e') ∧ (t.InByName e' ↔ s.InByName e') := by
    intro e' hne
    simp only [InById, InByName, hbyId, hbyName, hne, and_false, or_false, and_self]
  refine ⟨⟨fun id' e' hentry => ?_, fun name' e' hentry => ?_, fun e' hid hname => ?_,
    fun e' left hmem => ?_⟩, ⟨fun name' e' hentry => ?_, fun e' he' => ?_⟩⟩
  · rw [(hkeys e').1]
    rcases (hbyId id' e').1 hentry with hold | ⟨hneed, hid, he⟩
    · obtain ⟨hne, hkey⟩ := hs.consistent.byId id' e' hold
      refine ⟨hne, ?_⟩
      split
      · next he =>
        rw [he] at hkey
        rcases hfits.1 with hsame | hzero
        · exact hsame.symm.trans hkey
        · exact absurd (hkey.symm.trans hzero) hne
      · exact hkey
    · rw [if_pos he, hid]
      exact ⟨(h.newId hneed).1, rfl⟩
  · rw [(hkeys e').2]
    rcases (hbyName name' e').1 hentry with hold | ⟨-, hname, he⟩
    · have hkey := hs.consistent.byName name' e' hold
      split
      · next he =>
        rw [he] at hkey
        rcases hfits.2 with hsame | hempty
        · exact hsame.symm.trans hkey
        · exact absurd (hkey.symm.trans hempty) (hs.usable.name name' e' hold)
      · exact hkey
    · rw [if_pos he, hname]
  · rw [(hkeys e').1] at hid
    rw [(hkeys e').2] at hname
    by_cases he : e' = e
    · -- the stored endpoint is in both
      rw [if_pos he] at hid hname
      refine iff_of_true ⟨(s.heap node).id, (hbyId _ _).2 ?_⟩
        ⟨(s.heap node).name, (hbyName _ _).2 ?_⟩
      · cases hneed : needId with
        | true => exact Or.inr ⟨rfl, rfl, he⟩
        | false => exact Or.inl (he ▸ (h.oldId hneed).resolve_left hid)
      · cases hneed : needName with
        | true => exact Or.inr ⟨rfl, rfl, he⟩
        | false => exact Or.inl (he ▸ (h.oldName hneed).resolve_left hname)
    · rw [if_neg he] at hid hname
      rw [(hother e' he).1, (hother e' he).2]
      exact hs.consistent.both e' hid hname
  · rw [htrace] at hmem
    have he : e' ≠ e := fun he => h.unclosed left (he ▸ hmem)
    rw [(hother e' he).1, (hother e' he).2]
    exact hs.consistent.closed e' left hmem
  · rcases (hbyName name' e').1 hentry with hold | ⟨hneed, hname, -⟩
    · exact hs.usable.name name' e' hold
    · rw [hname]
      exact (h.newName hneed).1
  · rw [hcount] at he'
    have he : e' ≠ e := fun he => absurd h.lt (Nat.not_lt.2 (he ▸ he'))
    rw [(hother e' he).1, (hother e' he).2, ht, endpoint_storeEndpoint, Function.update_of_ne he,
      htrace]
    exact hs.usable.fresh e' he'

/-- An endpoint of an index that is stored fits the keys of the node if the indexes are right
    afterwards: its old entries are still there. -/
theorem fitsKeys_of_storeEndpoint (hs : Indexed s)
    (h : Storable s e (s.heap node).id (s.heap node).name needId needName)
    (hin : s.InById e ∨ s.InByName e)
    (ht : IndexConsistent
      (s.storeEndpoint e node (s.heap node).id (s.heap node).name needId needName)) :
    s.FitsKeys e (s.heap node).id (s.heap node).name := by
  obtain ⟨hid, hname⟩ :=
    keys_storeEndpoint s e node (s.heap node).id (s.heap node).name needId needName e
  rw [if_pos rfl] at hid hname
  -- an entry of the endpoint stands under its old key and under its new one
  have hsameId : s.InById e → s.getId e = (s.heap node).id := by
    rintro ⟨id', hentry⟩
    have hnew := (ht.byId id' e ((endpointIndexById_storeEndpoint h id' e).2 (Or.inl hentry))).2
    exact (hs.consistent.byId id' e hentry).2.trans (hnew.symm.trans hid)
  have hsameName : s.InByName e → s.getName e = (s.heap node).name := by
    rintro ⟨name', hentry⟩
    have hnew := ht.byName name' e
      ((endpointIndexByName_storeEndpoint h name' e).2 (Or.inl hentry))
    exact (hs.consistent.byName name' e hentry).trans (hnew.symm.trans hname)
  have hkeyId : s.InById e → s.getId e ≠ 0 := by
    rintro ⟨id', hentry⟩
    obtain ⟨hne, hkey⟩ := hs.consistent.byId id' e hentry
    exact hkey ▸ hne
  have hkeyName : s.InByName e → s.getName e ≠ [] := by
    rintro ⟨name', hentry⟩
    rw [hs.consistent.byName name' e hentry]
    exact hs.usable.name name' e hentry
  refine ⟨?_, ?_⟩
  · by_cases hzero : s.getId e = 0
    · exact Or.inr hzero
    · refine Or.inl (hsameId ?_)
      rcases hin with hin | hin
      · exact hin
      · exact (hs.consistent.both e hzero (hkeyName hin)).2 hin
  · by_cases hempty : s.getName e = []
    · exact Or.inr hempty
    · refine Or.inl (hsameName ?_)
      rcases hin with hin | hin
      · exact (hs.consistent.both e (hkeyId hin) hempty).1 hin
      · exact hin

end

/-! ## Creating -/

/-- A new endpoint has no node, and no index has it. -/
theorem Indexed.createEndpoint (hs : Indexed s) :
    Indexed s.createEndpoint ∧ s.createEndpoint.getId s.endpointCount = 0 ∧
      s.createEndpoint.getName s.endpointCount = [] := by
  have hnew : s.createEndpoint.getId s.endpointCount = 0 ∧
      s.createEndpoint.getName s.endpointCount = [] := by
    rw [App.getId, App.getName, createEndpoint_self]
    exact ⟨rfl, rfl⟩
  have hother : ∀ e ≠ s.endpointCount, s.createEndpoint.endpoint e = s.endpoint e :=
    fun e hne => Function.update_of_ne hne _ _
  have hkeys : ∀ e ≠ s.endpointCount, s.createEndpoint.getId e = s.getId e ∧
      s.createEndpoint.getName e = s.getName e := by
    intro e hne
    rw [App.getId, App.getName, hother e hne]
    exact ⟨rfl, rfl⟩
  obtain ⟨-, hnotId, hnotName, -⟩ := hs.usable.fresh s.endpointCount (le_refl _)
  refine ⟨⟨⟨fun id e hentry => ?_, fun name e hentry => ?_, fun e hid hname => ?_,
    hs.consistent.closed⟩, ⟨hs.usable.name, fun e he => ?_⟩⟩, hnew⟩
  · have hne : e ≠ s.endpointCount := fun he => hnotId ⟨id, he ▸ hentry⟩
    rw [(hkeys e hne).1]
    exact hs.consistent.byId id e hentry
  · have hne : e ≠ s.endpointCount := fun he => hnotName ⟨name, he ▸ hentry⟩
    rw [(hkeys e hne).2]
    exact hs.consistent.byName name e hentry
  · have hne : e ≠ s.endpointCount := fun he => hid (he ▸ hnew.1)
    rw [(hkeys e hne).1] at hid
    rw [(hkeys e hne).2] at hname
    exact hs.consistent.both e hid hname
  · have hlt : s.endpointCount < e := he
    rw [hother e (Nat.ne_of_gt hlt)]
    exact hs.usable.fresh e (Nat.le_of_lt hlt)

theorem foundById_eq_some {id : Nat} :
    s.foundById id = some e ↔ id ≠ 0 ∧ s.endpointIndexById id = some e := by
  unfold foundById
  by_cases hid : id = 0 <;> simp [hid]

theorem foundByName_eq_some {name : Bytes} :
    s.foundByName name = some e ↔ name ≠ [] ∧ s.endpointIndexByName name = some e := by
  unfold foundByName
  by_cases hname : name = [] <;> simp [hname]

theorem foundById_eq_none {id : Nat} :
    s.foundById id = none ↔ id = 0 ∨ s.endpointIndexById id = none := by
  unfold foundById
  by_cases hid : id = 0 <;> simp [hid]

theorem foundByName_eq_none {name : Bytes} :
    s.foundByName name = none ↔ name = [] ∨ s.endpointIndexByName name = none := by
  unfold foundByName
  by_cases hname : name = [] <;> simp [hname]

/-- Storing an endpoint that is in an index leaves the indexes right exactly if it fits the keys. -/
theorem indexed_storeEndpoint_iff {node : NodePtr} {needId needName : Bool} (hs : Indexed s)
    (h : Storable s e (s.heap node).id (s.heap node).name needId needName)
    (hin : s.InById e ∨ s.InByName e) :
    (IndexConsistent (s.storeEndpoint e node (s.heap node).id (s.heap node).name needId needName) ↔
      s.FitsKeys e (s.heap node).id (s.heap node).name) ∧
    (s.FitsKeys e (s.heap node).id (s.heap node).name → IndexUsable
      (s.storeEndpoint e node (s.heap node).id (s.heap node).name needId needName)) :=
  ⟨⟨fun ht => fitsKeys_of_storeEndpoint hs h hin ht, fun hfits => (hs.storeEndpoint h hfits).consistent⟩,
    fun hfits => (hs.storeEndpoint h hfits).usable⟩

/-- An endpoint of an index is not closed. -/
theorem Indexed.not_closed (hs : Indexed s) (hin : s.InById e ∨ s.InByName e) (left : List Nat) :
    .reset e left ∉ s.trace := by
  intro hmem
  obtain ⟨hnotId, hnotName⟩ := hs.consistent.closed e left hmem
  exact hin.elim hnotId hnotName

theorem Indexed.lt_endpointCount (hs : Indexed s) (hin : s.InById e ∨ s.InByName e) :
    e < s.endpointCount :=
  hin.elim hs.usable.lt_of_inById hs.usable.lt_of_inByName

/-- A condition on the endpoint that a node leads to. -/
theorem forall_reused_iff {node : NodePtr} {p : NodePtr → EndpointPtr → Prop} :
    (∀ node' ∈ some node, ∀ e' ∈ some e, p node' e') ↔ p node e := by
  constructor
  · exact fun h => h node rfl e rfl
  · intro h node' hnode e' he
    cases hnode
    cases he
    exact h

/-- **`mutable_endpoint`** leaves the indexes right exactly if the endpoint that it finds fits the
    keys of the node. -/
theorem indexed_mutableEndpoint (hs : Indexed s) (discovery : Option NodePtr)
    (result : Option ConnectResult) :
    (IndexConsistent (s.mutableEndpoint env discovery result).1 ↔
      ∀ node ∈ discovery, ∀ e ∈ s.reused discovery,
        s.FitsKeys e (s.heap node).id (s.heap node).name) ∧
    ((∀ node ∈ discovery, ∀ e ∈ s.reused discovery,
        s.FitsKeys e (s.heap node).id (s.heap node).name) →
      IndexUsable (s.mutableEndpoint env discovery result).1) := by
  unfold mutableEndpoint reused
  by_cases hclosing : s.isClosing = true
  · rw [if_pos hclosing, if_pos hclosing]
    exact ⟨iff_of_true hs.consistent (by simp), fun _ => hs.usable⟩
  · rw [if_neg hclosing, if_neg hclosing]
    cases discovery with
    | none => exact ⟨iff_of_true hs.consistent (by simp), fun _ => hs.usable⟩
    | some node =>
      dsimp only
      rw [lookup_eq]
      cases hname : s.foundByName (s.heap node).name with
      | none =>
        cases hid : s.foundById (s.heap node).id with
        | none =>
          -- a new endpoint
          obtain ⟨hcreate, hzero, hempty⟩ := hs.createEndpoint
          have hunclosed := (hs.usable.fresh s.endpointCount (le_refl _)).2.2.2
          have hstorable : Storable s.createEndpoint s.endpointCount
              (s.createEndpoint.heap node).id (s.createEndpoint.heap node).name
              (decide ((s.heap node).id ≠ 0)) (decide ((s.heap node).name ≠ [])) := by
            refine ⟨fun h => ?_, fun h => ?_, fun h => ?_, fun h => ?_, Nat.lt_succ_self _,
              hunclosed⟩
            · have hne := of_decide_eq_true h
              exact ⟨hne, (foundById_eq_none.1 hid).resolve_left hne⟩
            · exact Or.inl (not_not.1 (of_decide_eq_false h))
            · have hne := of_decide_eq_true h
              exact ⟨hne, (foundByName_eq_none.1 hname).resolve_left hne⟩
            · exact Or.inl (not_not.1 (of_decide_eq_false h))
          have hstore := hcreate.storeEndpoint hstorable ⟨Or.inr hzero, Or.inr hempty⟩
          have hconnect := hstore.balanced
            (sameMessages_connectEndpoint env _ s.endpointCount result).balanced
          exact ⟨iff_of_true hconnect.consistent (by simp), fun _ => hconnect.usable⟩
        | some e =>
          obtain ⟨hne, hentry⟩ := foundById_eq_some.1 hid
          have hin : s.InById e ∨ s.InByName e := Or.inl ⟨_, hentry⟩
          rw [forall_reused_iff]
          refine indexed_storeEndpoint_iff hs ⟨fun h => absurd h (by simp), fun _ => Or.inr hentry,
            fun h => ?_, fun h => ?_, hs.lt_endpointCount hin, hs.not_closed hin⟩ hin
          · have hne := of_decide_eq_true h
            exact ⟨hne, (foundByName_eq_none.1 hname).resolve_left hne⟩
          · exact Or.inl (not_not.1 (of_decide_eq_false h))
      | some e =>
        obtain ⟨hne, hentry⟩ := foundByName_eq_some.1 hname
        have hin : s.InById e ∨ s.InByName e := Or.inr ⟨_, hentry⟩
        rw [forall_reused_iff]
        cases hid : s.foundById (s.heap node).id with
        | none =>
          refine indexed_storeEndpoint_iff hs ⟨fun h => ?_, fun h => ?_,
            fun h => absurd h (by simp), fun _ => Or.inr hentry, hs.lt_endpointCount hin,
            hs.not_closed hin⟩ hin
          · have hne := of_decide_eq_true h
            exact ⟨hne, (foundById_eq_none.1 hid).resolve_left hne⟩
          · exact Or.inl (not_not.1 (of_decide_eq_false h))
        | some e' =>
          obtain ⟨hne', hentry'⟩ := foundById_eq_some.1 hid
          dsimp only
          by_cases he : e = e'
          · rw [if_pos he]
            subst he
            exact indexed_storeEndpoint_iff hs ⟨fun h => absurd h (by simp), fun _ => Or.inr hentry',
              fun h => absurd h (by simp), fun _ => Or.inr hentry, hs.lt_endpointCount hin,
              hs.not_closed hin⟩ hin
          · -- the other endpoint is removed first
            rw [if_neg he]
            obtain ⟨t, hforgets, heq⟩ := removeEndpoint_eq env hs e'
            have hobjects := sameObjects_resetEndpoint env t e'
            have hremoved := hs.removeEndpoint env (hs.lt_endpointCount (Or.inl ⟨_, hentry'⟩))
            rw [removeEndpointById_eq hs hentry', heq]
            rw [heq] at hremoved
            generalize t.resetEndpoint env e' = u at hobjects hremoved
            have hheap : u.heap = s.heap := hobjects.heap.trans hforgets.heap
            have hkeys : ∀ id name, u.FitsKeys e id name ↔ s.FitsKeys e id name := by
              intro id name
              rw [FitsKeys, FitsKeys, (hobjects.keys e).1, (hobjects.keys e).2, (hforgets.keys e).1,
                (hforgets.keys e).2]
            have hname' : u.endpointIndexByName (s.heap node).name = some e := by
              rw [hobjects.byName]
              exact (hforgets.byName _ e).2 ⟨hentry, he⟩
            have hid' : u.endpointIndexById (s.heap node).id = none := by
              rw [hobjects.byId, Option.eq_none_iff_forall_ne_some]
              intro e'' hsome
              obtain ⟨hold, hne''⟩ := (hforgets.byId _ e'').1 hsome
              exact hne'' (Option.some.inj (hold.symm.trans hentry'))
            have hin' : u.InById e ∨ u.InByName e := Or.inr ⟨_, hname'⟩
            rw [← hkeys, ← hheap]
            rw [← hheap] at hid' hname' hne'
            exact indexed_storeEndpoint_iff hremoved ⟨fun _ => ⟨hne', hid'⟩,
              fun h => absurd h (by simp), fun h => absurd h (by simp), fun _ => Or.inr hname',
              hremoved.lt_endpointCount hin', hremoved.not_closed hin'⟩ hin'

/-! ## The other operations -/

theorem Indexed.wakeEndpoint (hs : Indexed s) (hlt : e < s.endpointCount) :
    Indexed (s.wakeEndpoint env e) := by
  unfold App.wakeEndpoint
  have hbalanced :=
    balanced_retryPendingMessages env s e s.lastTickTimepoint s.conf.loopTimes
  generalize (s.retryPendingMessages env e s.lastTickTimepoint s.conf.loopTimes).1 = t at *
  have ht := hs.balanced hbalanced
  unfold recycle
  split
  · split
    · exact ht.removeEndpoint env (hbalanced.endpointCount ▸ hlt)
    · exact ht.balanced (sameMessages_addWaker t e _).balanced
  · exact ht

/-- A live endpoint is not a new one. -/
theorem IndexUsable.lt_of_alive (hs : IndexUsable s) (h : (s.endpoint e).alive = true) :
    e < s.endpointCount := by
  by_contra hge
  rw [(hs.fresh e (Nat.not_lt.1 hge)).1] at h
  exact absurd h (by decide)

theorem Indexed.processRound (hs : Indexed s) : Indexed (s.processRound env) := by
  obtain heq | ⟨key, -, -, ⟨-, heq⟩ | ⟨e, -, halive, heq⟩⟩ := s.processRound_cases env
  · rw [heq]
    exact hs
  · rw [heq]
    exact hs.balanced (sameMessages_eraseWaker s key).balanced
  · rw [heq]
    exact (hs.balanced (sameMessages_eraseWaker s key).balanced).wakeEndpoint
      (hs.usable.lt_of_alive halive)

/-- **Destroying an endpoint** that no index has. -/
theorem Indexed.destroyEndpoint (hs : Indexed s) (hlt : e < s.endpointCount)
    (hid : ¬ s.InById e) (hname : ¬ s.InByName e) : Indexed (s.destroyEndpoint env e) := by
  let dead : AtappEndpoint → AtappEndpoint := fun ep => { ep with alive := false }
  have hdiscovery := s.modifyEndpoint_field e (f := dead) AtappEndpoint.discovery (fun _ => rfl)
  have hsame : SameIndexes s (s.modifyEndpoint e dead) := by
    refine ⟨rfl, rfl, fun e' => ?_, fun e' => ?_, fun _ _ => Iff.rfl⟩
    · rw [App.getId, hdiscovery]
      rfl
    · rw [App.getName, hdiscovery]
      rfl
  have halive : ∀ e', ((s.modifyEndpoint e dead).endpoint e').alive = true →
      (s.endpoint e').alive = true := by
    intro e' h
    rw [endpoint_modifyEndpoint] at h
    split at h
    · exact absurd h Bool.false_ne_true
    · exact h
  have hdead : Indexed (s.modifyEndpoint e dead) :=
    ⟨hs.consistent.congr hsame, hs.usable.congr hsame rfl halive⟩
  have hreset := hdead.resetEndpoint env hlt hid hname
  have hfree := sameObjects_modifyEndpoint ((s.modifyEndpoint e dead).resetEndpoint env e) e
    (f := fun ep => { ep with pendingMessage := [], pendingMessageSize := 0 })
    fun _ => ⟨rfl, rfl, rfl⟩
  have hsame' := hfree.sameIndexes fun _ _ => Iff.rfl
  exact ⟨hreset.consistent.congr hsame', hreset.usable.congr hsame' hfree.endpointCount
    fun e' => (hfree.alive e').symm.trans⟩

/-- Pushing a message changes neither objects nor resets. -/
theorem Indexed.pushForwardMessage (hs : Indexed s) (e : EndpointPtr) (type : Int)
    (sequence : Nat) (data : Bytes) (metadata : Option AtappMetadata) :
    Indexed (s.pushForwardMessage env e type sequence data metadata).1 := by
  set s₀ : App := { s with pushCount := s.pushCount + 1 } with hs₀
  have hpush : SameObjects s₀ (s₀.pushMessage env e s.pushCount type sequence data metadata).1 ∧
      ∀ e' left, .reset e' left ∈
          (s₀.pushMessage env e s.pushCount type sequence data metadata).1.trace ↔
        .reset e' left ∈ s₀.trace := by
    by_cases hdata : data = []
    · unfold pushMessage
      split
      · refine ⟨sameObjects_record s₀ _, fun e' left => ?_⟩
        show _ ∈ (s₀.record _).trace ↔ _
        rw [mem_trace_record]
        simp
      · exact ⟨SameObjects.refl s₀, fun _ _ => Iff.rfl⟩
    · have heffect := pushEffect_pushMessage env s₀ e s.pushCount type sequence hdata
        metadata
      exact ⟨heffect.toSameObjects, heffect.resets⟩
  have hresult : (s.pushForwardMessage env e type sequence data metadata).1 =
      if data = [] then (s₀.pushMessage env e s.pushCount type sequence data metadata).1
      else (s₀.pushMessage env e s.pushCount type sequence data metadata).1.record
        (.pushed e s.pushCount (s₀.pushMessage env e s.pushCount type sequence data metadata).2) :=
    rfl
  rw [hresult]
  generalize s₀.pushMessage env e s.pushCount type sequence data metadata = result at hpush
  obtain ⟨t, code⟩ := result
  obtain ⟨hobjects, hresets⟩ := hpush
  have ht : Indexed t := by
    have hsame₀ : SameIndexes s s₀ := ⟨rfl, rfl, fun _ => rfl, fun _ => rfl, fun _ _ => Iff.rfl⟩
    have husable₀ : IndexUsable s₀ := hs.usable.congr hsame₀ rfl fun _ h => h
    have hsame := hobjects.sameIndexes hresets
    exact ⟨(hs.consistent.congr hsame₀).congr hsame, husable₀.congr hsame hobjects.endpointCount
      fun e' => (hobjects.alive e').symm.trans⟩
  split
  · exact ht
  · have hsame : SameIndexes t (t.record (.pushed e s.pushCount code)) := by
      refine (sameObjects_record t _).sameIndexes fun e' left => ?_
      rw [mem_trace_record]
      simp
    exact ⟨ht.consistent.congr hsame, ht.usable.congr hsame rfl fun _ h => h⟩

/-- **A node changes**: the indexes stay right exactly if the endpoints in them keep their keys. -/
theorem indexed_copyFrom (hs : Indexed s) (node : NodePtr) (content : EtcdDiscoveryNode) :
    (IndexConsistent { s with heap := Function.update s.heap node content } ↔
      ∀ e, (s.InById e ∨ s.InByName e) → (s.endpoint e).discovery = some node →
        s.getId e = content.id ∧ s.getName e = content.name) ∧
    IndexUsable { s with heap := Function.update s.heap node content } := by
  set t : App := { s with heap := Function.update s.heap node content } with ht
  have hself : ∀ e, (s.endpoint e).discovery = some node →
      t.getId e = content.id ∧ t.getName e = content.name := by
    intro e he
    have he' : (t.endpoint e).discovery = some node := he
    rw [App.getId, App.getName, he']
    simp [ht]
  have hother : ∀ e, (s.endpoint e).discovery ≠ some node →
      t.getId e = s.getId e ∧ t.getName e = s.getName e := by
    intro e he
    have hend : (t.endpoint e).discovery = (s.endpoint e).discovery := rfl
    rw [App.getId, App.getName, App.getId, App.getName, hend]
    cases hnode : (s.endpoint e).discovery with
    | none => exact ⟨rfl, rfl⟩
    | some node' =>
      have hne : node' ≠ node := fun h => he (h ▸ hnode)
      simp [ht, Function.update_of_ne hne]
  refine ⟨⟨fun h e hin he => ?_, fun h => ?_⟩, ⟨hs.usable.name, hs.usable.fresh⟩⟩
  · obtain ⟨hnewId, hnewName⟩ := hself e he
    have hid : s.InById e → s.getId e = content.id := by
      rintro ⟨id, hentry⟩
      exact (hs.consistent.byId id e hentry).2.trans ((h.byId id e hentry).2.symm.trans hnewId)
    have hname : s.InByName e → s.getName e = content.name := by
      rintro ⟨name, hentry⟩
      exact (hs.consistent.byName name e hentry).trans ((h.byName name e hentry).symm.trans hnewName)
    have hzero : s.InById e → content.id ≠ 0 := by
      rintro ⟨id, hentry⟩
      obtain ⟨hne, hkey⟩ := h.byId id e hentry
      rw [← hnewId, hkey]
      exact hne
    have hempty : s.InByName e → content.name ≠ [] := by
      rintro ⟨name, hentry⟩
      rw [← hnewName, h.byName name e hentry]
      exact hs.usable.name name e hentry
    have hboth : content.id ≠ 0 → content.name ≠ [] → (s.InById e ↔ s.InByName e) :=
      fun hzero hempty => h.both e (hnewId ▸ hzero) (hnewName ▸ hempty)
    by_cases hinId : s.InById e
    · by_cases hinName : s.InByName e
      · exact ⟨hid hinId, hname hinName⟩
      · -- it has no name before and after
        have hnil : content.name = [] := by
          by_contra hne
          exact hinName ((hboth (hzero hinId) hne).1 hinId)
        refine ⟨hid hinId, ?_⟩
        by_contra hne
        rw [hnil] at hne
        exact hinName ((hs.consistent.both e (hid hinId ▸ hzero hinId) hne).1 hinId)
    · have hinName := hin.resolve_left hinId
      have hnil : content.id = 0 := by
        by_contra hne
        exact hinId ((hboth hne (hempty hinName)).2 hinName)
      refine ⟨?_, hname hinName⟩
      by_contra hne
      rw [hnil] at hne
      exact hinId ((hs.consistent.both e hne (hname hinName ▸ hempty hinName)).2 hinName)
  · -- the endpoints in the indexes keep their keys
    have hkeys : ∀ e, (s.InById e ∨ s.InByName e) →
        t.getId e = s.getId e ∧ t.getName e = s.getName e := by
      intro e hin
      by_cases he : (s.endpoint e).discovery = some node
      · obtain ⟨hid, hname⟩ := h e hin he
        obtain ⟨hnewId, hnewName⟩ := hself e he
        exact ⟨hnewId.trans hid.symm, hnewName.trans hname.symm⟩
      · exact hother e he
    refine ⟨fun id e hentry => ?_, fun name e hentry => ?_, fun e hid hname => ?_,
      hs.consistent.closed⟩
    · rw [(hkeys e (Or.inl ⟨id, hentry⟩)).1]
      exact hs.consistent.byId id e hentry
    · rw [(hkeys e (Or.inr ⟨name, hentry⟩)).2]
      exact hs.consistent.byName name e hentry
    · show s.InById e ↔ s.InByName e
      by_cases hin : s.InById e ∨ s.InByName e
      · rw [(hkeys e hin).1] at hid
        rw [(hkeys e hin).2] at hname
        exact hs.consistent.both e hid hname
      · rw [not_or] at hin
        exact iff_of_false hin.1 hin.2

/-! ## Runs -/

/-- **Every step** leaves the indexes right exactly if it meets the condition. -/
theorem indexed_step (hs : Indexed s) (env : Environment) {op : AppOp} (hcall : s.Callable op) :
    (IndexConsistent (s.step (env, op)) ↔ KeepsKeys s (env, op)) ∧
      (KeepsKeys s (env, op) → IndexUsable (s.step (env, op))) := by
  have hkept : ∀ {t : App}, Indexed t →
      (IndexConsistent t ↔ True) ∧ (True → IndexUsable t) :=
    fun ht => ⟨iff_of_true ht.consistent trivial, fun _ => ht.usable⟩
  have hsame : ∀ {t : App}, SameMessages s t → (IndexConsistent t ↔ True) ∧
      (True → IndexUsable t) := fun h => hkept (hs.balanced h.balanced)
  cases op with
  | tick now => exact hkept ⟨⟨hs.consistent.byId, hs.consistent.byName, hs.consistent.both,
      hs.consistent.closed⟩, ⟨hs.usable.name, hs.usable.fresh⟩⟩
  | stop => exact hkept ⟨⟨hs.consistent.byId, hs.consistent.byName, hs.consistent.both,
      hs.consistent.closed⟩, ⟨hs.usable.name, hs.usable.fresh⟩⟩
  | copyFrom node content =>
    obtain ⟨hiff, husable⟩ := indexed_copyFrom hs node content
    exact ⟨hiff, fun _ => husable⟩
  | mutableEndpoint discovery result => exact indexed_mutableEndpoint hs discovery result
  | removeEndpointById id => exact hkept (hs.removeEndpointById id)
  | removeEndpointByName name => exact hkept (hs.removeEndpointByName name)
  | removeEndpoint e =>
    exact hkept (hs.removeEndpoint _ (hs.usable.lt_of_alive (hcall.endpoint e rfl)))
  | pushForwardMessage e type sequence data metadata =>
    exact hkept (hs.pushForwardMessage e type sequence data metadata)
  | retryPendingMessages e tickTime maxCount =>
    exact hkept (hs.balanced (balanced_retryPendingMessages _ s e tickTime maxCount))
  | processRound => exact hkept hs.processRound
  | destroyEndpoint e =>
    obtain ⟨hid, hname⟩ := hcall.unshared e rfl
    exact hkept (hs.destroyEndpoint (hs.usable.lt_of_alive (hcall.endpoint e rfl))
      (fun ⟨id, h⟩ => hid id h) fun ⟨name, h⟩ => hname name h)
  | _ => exact hsame (sameMessages_step env s rfl)

theorem indexed_init (conf : AppConf) (now : Int) : Indexed (init conf now) := by
  refine ⟨⟨?_, ?_, ?_, ?_⟩, ⟨?_, ?_⟩⟩
  all_goals simp [init, App.getId, InById, InByName]

/-- **The indexes are consistent.** In every run of callable operations each entry stands under the
    key of its endpoint, an endpoint with both keys is in both indexes or in neither, and a closed
    one is in neither, in every state, if and only if every step meets the condition. -/
theorem always_indexConsistent_iff (conf : AppConf) (now : Int)
    (inputs : List (Environment × AppOp))
    (hcall : Run.StepsMeet step (fun s input => s.Callable input.2) (init conf now) inputs) :
    Run.Always step IndexConsistent (init conf now) inputs ↔
      Run.StepsMeet step KeepsKeys (init conf now) inputs := by
  have hinit := indexed_init conf now
  refine Run.always_iff_stepsMeet step ?_ ?_ hinit.usable hinit.consistent hcall
  · intro s input husable hs hcall hcond
    exact (indexed_step ⟨hs, husable⟩ input.1 hcall).2 hcond
  · intro s input husable hs hcall
    exact (indexed_step ⟨hs, husable⟩ input.1 hcall).1

/-- Two nodes get an endpoint each, the first one twice, and both endpoints are removed. -/
def twoNodesRun : List (Environment × AppOp) :=
  [({}, .copyFrom 0 { nodeInfo := { id := 1, name := [97] } }),
    ({}, .copyFrom 1 { nodeInfo := { id := 2, name := [98] } }), ({}, .mutableEndpoint (some 0) none),
    ({}, .mutableEndpoint (some 0) none), ({}, .mutableEndpoint (some 1) (some ⟨7, true⟩)),
    ({}, .removeEndpointByName [97]), ({}, .removeEndpoint 1)]

theorem always_indexConsistent_twoNodesRun :
    Run.Always step IndexConsistent (init {} 0) twoNodesRun := by
  have hempty : ∀ t : App, t.endpointIndexById = (fun _ => none) →
      t.endpointIndexByName = (fun _ => none) → ∀ e, ¬ (t.InById e ∨ t.InByName e) := by
    intro t hid hname e
    simp [InById, InByName, hid, hname]
  refine (always_indexConsistent_iff {} 0 twoNodesRun ⟨?_, ?_, ?_, ?_, ?_, ?_, ?_, trivial⟩).2
    ⟨?_, ?_, ?_, ?_, ?_, trivial, trivial, trivial⟩
  · exact callable_of_alive (by decide +kernel) (by decide +kernel) (by simp)
  · exact callable_of_alive (by decide +kernel) (by decide +kernel) (by simp)
  · exact callable_of_alive (by decide +kernel) (by decide +kernel) (by simp)
  · exact callable_of_alive (by decide +kernel) (by decide +kernel) (by simp)
  · exact callable_of_alive (by decide +kernel) (by decide +kernel) (by simp)
  · exact callable_of_alive (by decide +kernel) (by decide +kernel) (by simp)
  · exact callable_of_alive (by decide +kernel) (by decide +kernel) (by simp)
  · exact fun e hin => absurd hin (hempty _ rfl rfl e)
  · exact fun e hin => absurd hin (hempty _ rfl rfl e)
  · show ∀ node ∈ some 0, ∀ e ∈ reused _ _, FitsKeys _ _ _ _
    decide +kernel
  · show ∀ node ∈ some 0, ∀ e ∈ reused _ _, FitsKeys _ _ _ _
    decide +kernel
  · show ∀ node ∈ some 1, ∀ e ∈ reused _ _, FitsKeys _ _ _ _
    decide +kernel

/-- A server comes back under its name with a new id, then its endpoint is removed. -/
def newIdRun : List (Environment × AppOp) :=
  [({}, .copyFrom 0 { nodeInfo := { id := 1, name := [97] } }),
    ({}, .copyFrom 1 { nodeInfo := { id := 2, name := [97] } }), ({}, .mutableEndpoint (some 0) none),
    ({}, .mutableEndpoint (some 1) none), ({}, .removeEndpoint 0)]

/-- The endpoint stays in the index under its first id, also after it is closed. -/
theorem not_always_indexConsistent_newIdRun :
    Run.StepsMeet step (fun s input => s.Callable input.2) (init {} 0) newIdRun ∧
      (Run.run step (init {} 0) newIdRun).endpointIndexById 1 = some 0 ∧
      (Run.run step (init {} 0) newIdRun).getId 0 = 2 ∧
      .reset 0 [] ∈ (Run.run step (init {} 0) newIdRun).trace ∧
      ¬ Run.Always step IndexConsistent (init {} 0) newIdRun := by
  refine ⟨⟨?_, ?_, ?_, ?_, ?_, trivial⟩, by decide +kernel, by decide +kernel, by decide +kernel, ?_⟩
  · exact callable_of_alive (by decide +kernel) (by decide +kernel) (by simp)
  · exact callable_of_alive (by decide +kernel) (by decide +kernel) (by simp)
  · exact callable_of_alive (by decide +kernel) (by decide +kernel) (by simp)
  · exact callable_of_alive (by decide +kernel) (by decide +kernel) (by simp)
  · exact callable_of_alive (by decide +kernel) (by decide +kernel) (by simp)
  · intro halways
    have hlast := (halways.last step).byId 1 0 (by decide +kernel)
    exact absurd hlast.2 (by decide +kernel)

end LibAtapp.Connectors.App
