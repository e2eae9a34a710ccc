import LibAtapp.Modules.ModuleRuns

set_option autoImplicit false

/-! # Isolation of cluster contexts

A Put or a Delete of one cluster context may only touch the node of another context where one of
the nodes it is looked up by belongs to its own. Deletes and in-place updates keep to this rule. A
Put that finds only one of its two keys, under a node of another context, does not: the missing key
alone makes the handler store the event, and what it found is replaced. -/

namespace LibAtapp

namespace ServiceDiscoveryModule

variable {cfg : HashConfig} {m : ServiceDiscoveryModule} {event : NodeInfoT}
  {version : EtcdDataVersion}

/-! ## The rule -/

/-- The node is in fewer places of the two indexes. -/
def LosesEntry (m m' : ServiceDiscoveryModule) (r : NodePtr) : Prop :=
  (∃ k, m.byId k = some r ∧ m'.byId k ≠ some r) ∨ ∃ n, m.byName n = some r ∧ m'.byName n ≠ some r

/-- One of the two nodes the event is looked up by belongs to its context. -/
def MatchesContext (m : ServiceDiscoveryModule) (event : NodeInfoT) : Prop :=
  ∃ p, (m.byId event.nodeDiscovery.id = some p ∨ m.byName event.nodeDiscovery.name = some p) ∧
    (m.heap p).contextAddr = event.contextAddr

/-- A Put that finds a node of another context under one key and nothing under the other. -/
def MatchesStranger (m : ServiceDiscoveryModule) (event : NodeInfoT) : Prop :=
  event.action = .put ∧ ∃ q, (m.heap q).contextAddr ≠ event.contextAddr ∧
    ((m.byId event.nodeDiscovery.id = some q ∧ m.byName event.nodeDiscovery.name = none) ∨
      (m.byId event.nodeDiscovery.id = none ∧ m.byName event.nodeDiscovery.name = some q))

/-- The event keeps to its context: a node of another one only loses an entry if the event matches
    a node of its own, and a Put that matches only a stranger leaves the set unchanged. -/
structure Isolated (cfg : HashConfig) (m : ServiceDiscoveryModule) (event : NodeInfoT)
    (version : EtcdDataVersion) : Prop where
  loses : ∀ r, (m.heap r).contextAddr ≠ event.contextAddr →
    LosesEntry m (m.step cfg (event, version)) r → m.MatchesContext event
  ignored : m.MatchesStranger event →
    (m.step cfg (event, version)).globalDiscovery = m.globalDiscovery

/-- **The defect.** A Put finds a node of another context under one key, and the event carries the
    other key, under which there is nothing. -/
def ReplacesStranger (m : ServiceDiscoveryModule) (event : NodeInfoT) : Prop :=
  event.action = .put ∧ ∃ q, (m.heap q).contextAddr ≠ event.contextAddr ∧
    ((m.byId event.nodeDiscovery.id = some q ∧ m.byName event.nodeDiscovery.name = none ∧
        event.nodeDiscovery.name ≠ []) ∨
      (m.byId event.nodeDiscovery.id = none ∧ m.byName event.nodeDiscovery.name = some q ∧
        event.nodeDiscovery.id ≠ 0))

theorem sameContext_iff {p : NodePtr} :
    m.sameContext event p = true ↔ (m.heap p).contextAddr = event.contextAddr := by
  rw [sameContext, beq_iff_eq]

/-! ## Keys -/

/-- Nothing is filed under the id zero or the empty name. -/
structure ProperKeys (m : ServiceDiscoveryModule) : Prop where
  id : m.byId 0 = none
  name : m.byName [] = none

theorem Erases.properKeys {m m' : ServiceDiscoveryModule} (he : Erases m m') (h : ProperKeys m) :
    ProperKeys m' where
  id := by
    rw [Option.eq_none_iff_forall_ne_some]
    intro r hr
    exact Option.some_ne_none r ((he.id_entry 0 r hr).symm.trans h.id)
  name := by
    rw [Option.eq_none_iff_forall_ne_some]
    intro r hr
    exact Option.some_ne_none r ((he.name_entry [] r hr).symm.trans h.name)

theorem ProperKeys.addNode (h : ProperKeys m) (p : NodePtr) : ProperKeys (m.addNode p) where
  id := by
    change (m.globalDiscovery.addNode m.heap p).getNodeById 0 = none
    rw [EtcdDiscoverySet.getNodeById_addNode, if_neg (fun hkey => hkey.1 hkey.2.symm),
      if_neg (fun hkey => hkey.1 rfl)]
    exact h.id
  name := by
    change (m.globalDiscovery.addNode m.heap p).getNodeByName [] = none
    rw [EtcdDiscoverySet.getNodeByName_addNode, if_neg (fun hkey => hkey.1 hkey.2.symm),
      if_neg (fun hkey => hkey.1 rfl)]
    exact h.name

theorem ProperKeys.storeNode (h : ProperKeys m) (a b : Option NodePtr) (p : NodePtr) :
    ProperKeys (m.storeNode cfg event version a b p) := by
  have hcopy : ProperKeys (m.copyFrom cfg p event version) := ⟨h.id, h.name⟩
  rw [storeNode_eq]
  exact ((erases_beforeAdd cfg m event version a b p).properKeys hcopy).addNode p

theorem ProperKeys.mergeEvent (h : ProperKeys m) (event : NodeInfoT) (version : EtcdDataVersion) :
    ProperKeys (m.mergeEvent cfg event version).module := by
  cases hdec : m.decision event with
  | ignore =>
    obtain ⟨hset, -, -⟩ := @mergeEvent_of_ignore cfg m event version hdec
    exact ⟨by rw [byId, hset]; exact h.id, by rw [byName, hset]; exact h.name⟩
  | remove =>
    obtain ⟨found, -, hm'⟩ := @mergeEvent_of_remove cfg m event version hdec
    rw [hm']
    exact ((erases_deleteFound version _).trans (erases_deleteFound version found)).properKeys h
  | overwrite p =>
    rw [mergeEvent_of_overwrite hdec]
    exact h.storeNode _ _ p
  | fresh =>
    rw [mergeEvent_of_fresh hdec]
    have hmake : ProperKeys m.makeNode := ⟨h.id, h.name⟩
    exact hmake.storeNode _ _ m.nextNode

theorem ProperKeys.call (h : ProperKeys m) (c : ModuleCall) : ProperKeys (m.call cfg c) := by
  -- a query only writes the caches of the set
  have hquery : ∀ (rule : Option AtappMetadata) {α : Type}
      (f : IndexCacheType → IndexCacheType × α),
      ProperKeys { m with globalDiscovery := (m.globalDiscovery.withIndexCache rule f).1 } :=
    fun rule α f => ⟨by simpa [byId, EtcdDiscoverySet.getNodeById] using h.id,
      by simpa [byName, EtcdDiscoverySet.getNodeByName] using h.name⟩
  cases c with
  | event event version => exact h.mergeEvent event version
  | getSortedNodes rule => exact hquery rule _
  | getNodeByRandom draw rule => exact hquery rule _
  | getNodeByRoundRobin rule => exact hquery rule _
  | lowerBound outputSize key rule mode =>
    simp only [ServiceDiscoveryModule.call, EtcdDiscoverySet.lowerBoundNodeHashByConsistentHash]
    split
    · exact h
    · exact hquery rule _

theorem properKeys_run (cfg : HashConfig) (calls : List ModuleCall) :
    ProperKeys (Run.run (call cfg) {} calls) := by
  have hstep : ∀ m c, ProperKeys m → ProperKeys (call cfg m c) := fun m c h => h.call c
  exact Run.invariant_all (call cfg) hstep ⟨rfl, rfl⟩ calls

/-! ## What each decision says about the match -/

theorem matchesContext_of_remove (h : m.decision event = .remove) : m.MatchesContext event := by
  unfold decision at h
  simp only at h
  split at h
  · cases ha : event.action with
    | delete =>
      cases hp : m.byId event.nodeDiscovery.id with
      | none => simp [ha, hp] at h
      | some p =>
        by_cases hc : m.sameContext event p = true
        · exact ⟨p, Or.inl hp, sameContext_iff.1 hc⟩
        · simp [ha, hp, hc] at h
    | put =>
      cases hp : m.byId event.nodeDiscovery.id with
      | none => simp [ha, hp] at h
      | some p => by_cases ho : m.overwritable event p = true <;> simp [ha, hp, ho] at h
  · cases ha : event.action with
    | delete =>
      rw [ha] at h
      simp only [ite_eq_left_iff, reduceCtorEq, imp_false, Decidable.not_not, Bool.or_eq_true,
        Option.any_eq_true] at h
      rcases h with ⟨p, hp, hc⟩ | ⟨p, hp, hc⟩
      · exact ⟨p, Or.inl hp, sameContext_iff.1 hc⟩
      · exact ⟨p, Or.inr hp, sameContext_iff.1 hc⟩
    | put =>
      rw [ha] at h
      simp only at h
      split at h <;> simp at h

theorem matchesContext_of_overwrite {p : NodePtr} (h : m.decision event = .overwrite p) :
    m.MatchesContext event := by
  obtain ⟨hfound, ho⟩ := found_of_overwrite h
  rw [overwritable, Bool.and_eq_true] at ho
  exact ⟨p, hfound, sameContext_iff.1 ho.2⟩

/-- When the handler makes a new node: a Put that finds nothing, or one that carries a key under
    which there is nothing. -/
theorem decision_fresh_iff : m.decision event = .fresh ↔ event.action = .put ∧
    ((m.byId event.nodeDiscovery.id = none ∧ m.byName event.nodeDiscovery.name = none) ∨
      (m.byId event.nodeDiscovery.id ≠ m.byName event.nodeDiscovery.name ∧
        ((m.byId event.nodeDiscovery.id = none ∧ event.nodeDiscovery.id ≠ 0) ∨
          (m.byName event.nodeDiscovery.name = none ∧ event.nodeDiscovery.name ≠ [])))) := by
  unfold decision
  generalize m.byId event.nodeDiscovery.id = a
  generalize m.byName event.nodeDiscovery.name = b
  simp only
  cases ha : event.action with
  | delete =>
    split
    · cases a with
      | none => simp
      | some p => by_cases hc : m.sameContext event p = true <;> simp [hc]
    · simp only
      split <;> simp
  | put =>
    split
    · next heq =>
      subst heq
      cases a with
      | none => simp
      | some p => by_cases ho : m.overwritable event p = true <;> simp [ho]
    · next hne =>
      have hnone : ¬ (a = none ∧ b = none) := fun hc => hne (hc.1.trans hc.2.symm)
      have hchoose : m.chooseNewInst event a b = some none ↔
          (a = none ∧ event.nodeDiscovery.id ≠ 0) ∨
            (b = none ∧ event.nodeDiscovery.name ≠ []) := by
        unfold chooseNewInst
        split
        · next hc => simpa using hc
        · next hc =>
          have hfalse : ¬ ((a = none ∧ event.nodeDiscovery.id ≠ 0) ∨
              (b = none ∧ event.nodeDiscovery.name ≠ [])) := by simpa using hc
          refine ⟨fun h => absurd h ?_, fun h => absurd h hfalse⟩
          -- both later branches name the node they overwrite
          intro hsome
          split at hsome
          · next ho => simp [Option.some.inj hsome] at ho
          · split at hsome
            · next ho => simp [Option.some.inj hsome] at ho
            · simp at hsome
      simp only [hnone, false_or, hne, ne_eq, not_false_eq_true, true_and, ← hchoose]
      cases m.chooseNewInst event a b with
      | none => simp
      | some c => cases c <;> simp

theorem not_matchesContext (h : m.MatchesStranger event) : ¬ m.MatchesContext event := by
  obtain ⟨-, q, hq, hfound⟩ := h
  rintro ⟨p, hp, hcontext⟩
  have hpq : p = q := by
    rcases hfound with ⟨hid, hname⟩ | ⟨hid, hname⟩
    · simpa [hid, hname, eq_comm] using hp
    · simpa [hid, hname, eq_comm] using hp
  exact hq (hpq ▸ hcontext)

theorem ReplacesStranger.matchesStranger (h : m.ReplacesStranger event) :
    m.MatchesStranger event := by
  obtain ⟨haction, q, hq, ⟨hid, hname, -⟩ | ⟨hid, hname, -⟩⟩ := h
  · exact ⟨haction, q, hq, Or.inl ⟨hid, hname⟩⟩
  · exact ⟨haction, q, hq, Or.inr ⟨hid, hname⟩⟩

/-- The two lookups of a Put that matches a stranger differ. -/
theorem MatchesStranger.differ (h : m.MatchesStranger event) :
    m.byId event.nodeDiscovery.id ≠ m.byName event.nodeDiscovery.name := by
  obtain ⟨-, q, -, ⟨hid, hname⟩ | ⟨hid, hname⟩⟩ := h
  · rw [hid, hname]
    exact Option.some_ne_none q
  · rw [hid, hname]
    exact (Option.some_ne_none q).symm

/-- A Put that matches only a stranger is ignored, unless it carries the other key. -/
theorem decision_of_matchesStranger (h : m.MatchesStranger event)
    (hr : ¬ m.ReplacesStranger event) : m.decision event = .ignore := by
  have hdiffer := h.differ
  have hstranger := not_matchesContext h
  obtain ⟨haction, q, hq, hfound⟩ := h
  cases hdec : m.decision event with
  | ignore => rfl
  | remove => exact absurd (matchesContext_of_remove hdec) hstranger
  | overwrite p => exact absurd (matchesContext_of_overwrite hdec) hstranger
  | fresh =>
    refine absurd ⟨haction, q, hq, ?_⟩ hr
    obtain ⟨-, ⟨hid', hname'⟩ | ⟨-, hkeys⟩⟩ := decision_fresh_iff.1 hdec
    · exact absurd (hid'.trans hname'.symm) hdiffer
    · rcases hfound with ⟨hid, hname⟩ | ⟨hid, hname⟩
      · refine Or.inl ⟨hid, hname, ?_⟩
        rcases hkeys with ⟨hid', -⟩ | ⟨-, hne⟩
        · exact absurd (hid.symm.trans hid') (Option.some_ne_none q)
        · exact hne
      · refine Or.inr ⟨hid, hname, ?_⟩
        rcases hkeys with ⟨-, hne⟩ | ⟨hname', -⟩
        · exact hne
        · exact absurd (hname.symm.trans hname') (Option.some_ne_none q)

/-! ## What a new node displaces -/

/-- A Put that finds nothing displaces nothing. -/
theorem not_losesEntry_of_none (haction : event.action = .put)
    (hid : m.byId event.nodeDiscovery.id = none)
    (hname : m.byName event.nodeDiscovery.name = none) (r : NodePtr) :
    ¬ LosesEntry m (m.step cfg (event, version)) r := by
  have hdec : m.decision event = .fresh := decision_fresh_iff.2 ⟨haction, Or.inl ⟨hid, hname⟩⟩
  have hstep : m.step cfg (event, version) =
      (m.makeNode.copyFrom cfg m.nextNode event version).addNode m.nextNode := by
    have hmerge := @mergeEvent_of_fresh cfg m event version hdec
    rw [hid, hname] at hmerge
    exact hmerge
  have hinfo := (copyFrom_self cfg m.makeNode event version m.nextNode).1
  have hnewId : ((m.makeNode.copyFrom cfg m.nextNode event version).heap m.nextNode).id =
      event.nodeDiscovery.id := congrArg AtappDiscovery.id hinfo
  have hnewName : ((m.makeNode.copyFrom cfg m.nextNode event version).heap m.nextNode).name =
      event.nodeDiscovery.name := congrArg AtappDiscovery.name hinfo
  rw [hstep]
  rintro (⟨k, hk, hk'⟩ | ⟨n, hn, hn'⟩)
  · refine hk' ((EtcdDiscoverySet.getNodeById_addNode _ _ _ k).trans ?_)
    rw [if_neg, if_neg]
    · exact hk
    · -- `old_id` is the id of a node found by name
      rintro ⟨hk0, hold, -⟩
      refine hk0 (hold.trans ?_)
      unfold EtcdDiscoverySet.addNodeOldId
      rw [hnewName]
      split
      · rfl
      · rw [show (m.makeNode.copyFrom cfg m.nextNode event version).globalDiscovery.getNodeByName
          event.nodeDiscovery.name = none from hname]
    · rintro ⟨-, hkey⟩
      rw [hkey, hnewId, hid] at hk
      exact Option.some_ne_none r hk.symm
  · refine hn' ((EtcdDiscoverySet.getNodeByName_addNode _ _ _ n).trans ?_)
    rw [if_neg, if_neg]
    · exact hn
    · rintro ⟨hn0, hold, -⟩
      refine hn0 (hold.trans ?_)
      unfold EtcdDiscoverySet.addNodeOldName
      rw [hnewId]
      split
      · rfl
      · rw [show (m.makeNode.copyFrom cfg m.nextNode event version).globalDiscovery.getNodeById
          event.nodeDiscovery.id = none from hid]
    · rintro ⟨-, hkey⟩
      rw [hkey, hnewName, hname] at hn
      exact Option.some_ne_none r hn.symm

/-- A new node takes the keys of the event. -/
theorem byId_of_fresh (hdec : m.decision event = .fresh) :
    (event.nodeDiscovery.id ≠ 0 → (m.step cfg (event, version)).byId event.nodeDiscovery.id =
        some m.nextNode) ∧
      (event.nodeDiscovery.name ≠ [] →
        (m.step cfg (event, version)).byName event.nodeDiscovery.name = some m.nextNode) := by
  have hstep : m.step cfg (event, version) =
      (m.makeNode.beforeAdd cfg event version (m.byId event.nodeDiscovery.id)
        (m.byName event.nodeDiscovery.name) m.nextNode).addNode m.nextNode :=
    mergeEvent_of_fresh hdec
  have hinfo := (beforeAdd_content cfg m.makeNode event version (m.byId event.nodeDiscovery.id)
    (m.byName event.nodeDiscovery.name) m.nextNode).1
  rw [hstep]
  generalize m.makeNode.beforeAdd cfg event version (m.byId event.nodeDiscovery.id)
    (m.byName event.nodeDiscovery.name) m.nextNode = m1 at hinfo
  have hid : (m1.heap m.nextNode).id = event.nodeDiscovery.id := congrArg AtappDiscovery.id hinfo
  have hname : (m1.heap m.nextNode).name = event.nodeDiscovery.name :=
    congrArg AtappDiscovery.name hinfo
  constructor
  · intro hne
    refine (EtcdDiscoverySet.getNodeById_addNode _ _ _ _).trans (if_pos ⟨?_, hid.symm⟩)
    rwa [hid]
  · intro hne
    refine (EtcdDiscoverySet.getNodeByName_addNode _ _ _ _).trans (if_pos ⟨?_, hname.symm⟩)
    rwa [hname]

/-- A Put that replaces a stranger takes it out of an index and matches no node of its own
    context. -/
theorem not_isolated_of_replacesStranger (hs : Sound cfg m) (hk : ProperKeys m)
    (h : m.ReplacesStranger event) : ¬ Isolated cfg m event version := by
  have hdiffer := h.matchesStranger.differ
  have hstranger := not_matchesContext h.matchesStranger
  obtain ⟨haction, q, hq, hfound⟩ := h
  have hdec : m.decision event = .fresh := by
    refine decision_fresh_iff.2 ⟨haction, Or.inr ⟨hdiffer, ?_⟩⟩
    rcases hfound with ⟨-, hname, hne⟩ | ⟨hid, -, hne⟩
    · exact Or.inr ⟨hname, hne⟩
    · exact Or.inl ⟨hid, hne⟩
  obtain ⟨hnewId, hnewName⟩ := @byId_of_fresh cfg m event version hdec
  intro hisolated
  have hloses : LosesEntry m (m.step cfg (event, version)) q := by
    rcases hfound with ⟨hid, -, -⟩ | ⟨-, hname, -⟩
    · refine Or.inl ⟨_, hid, ?_⟩
      have hne : event.nodeDiscovery.id ≠ 0 := by
        intro h0
        rw [h0, hk.id] at hid
        exact Option.some_ne_none q hid.symm
      rw [hnewId hne]
      intro heq
      exact Nat.ne_of_gt (hs.allocated q (Or.inl ⟨_, hid⟩)) (Option.some.inj heq)
    · refine Or.inr ⟨_, hname, ?_⟩
      have hne : event.nodeDiscovery.name ≠ [] := by
        intro h0
        rw [h0, hk.name] at hname
        exact Option.some_ne_none q hname.symm
      rw [hnewName hne]
      intro heq
      exact Nat.ne_of_gt (hs.allocated q (Or.inr ⟨_, hname⟩)) (Option.some.inj heq)
  exact hstranger (hisolated.loses q hq hloses)

/-- A node found by neither key keeps its entries when a node is made. -/
theorem isolated_of_not_replacesStranger (h : ¬ m.ReplacesStranger event) :
    Isolated cfg m event version := by
  refine ⟨fun r hr hloses => ?_, fun hstranger => ?_⟩
  · cases hdec : m.decision event with
    | ignore =>
      obtain ⟨hset, -, -⟩ := @mergeEvent_of_ignore cfg m event version hdec
      rcases hloses with ⟨k, hk, hk'⟩ | ⟨n, hn, hn'⟩
      · exact absurd ((congrArg (fun s => s.getNodeById k) hset).trans hk) hk'
      · exact absurd ((congrArg (fun s => s.getNodeByName n) hset).trans hn) hn'
    | remove => exact matchesContext_of_remove hdec
    | overwrite p => exact matchesContext_of_overwrite hdec
    | fresh =>
      obtain ⟨haction, ⟨hid, hname⟩ | ⟨hdiffer, hkeys⟩⟩ := decision_fresh_iff.1 hdec
      · exact absurd hloses (not_losesEntry_of_none haction hid hname r)
      · -- exactly one of the lookups found a node, and it is no stranger
        rcases hkeys with ⟨hid, hne⟩ | ⟨hname, hne⟩
        · obtain ⟨q, hname⟩ := Option.ne_none_iff_exists'.1 (hid ▸ hdiffer).symm
          refine ⟨q, Or.inr hname, by_contra fun hq => h ⟨haction, q, hq, Or.inr ⟨hid, hname, hne⟩⟩⟩
        · obtain ⟨q, hid⟩ := Option.ne_none_iff_exists'.1 (hname ▸ hdiffer)
          refine ⟨q, Or.inl hid, by_contra fun hq => h ⟨haction, q, hq, Or.inl ⟨hid, hname, hne⟩⟩⟩
  · have hdec := decision_of_matchesStranger hstranger h
    exact (@mergeEvent_of_ignore cfg m event version hdec).1

/-- **Isolation of contexts.** In every state reached by events and queries, an event keeps to its
    context exactly if it does not replace a stranger. -/
theorem isolated_iff (cfg : HashConfig) (calls : List ModuleCall) (event : NodeInfoT)
    (version : EtcdDataVersion) :
    Isolated cfg (Run.run (call cfg) {} calls) event version ↔
      ¬ (Run.run (call cfg) {} calls).ReplacesStranger event :=
  ⟨fun h hr => not_isolated_of_replacesStranger (sound_run cfg calls) (properKeys_run cfg calls)
    hr h, isolated_of_not_replacesStranger⟩

/-- A server of one context, and a Put of another context with the same id and a new name. -/
def strangerCalls : List ModuleCall :=
  [.event { nodeDiscovery := { id := 1, name := [97] }, contextAddr := 5 } {}]

/-- The Put takes the server of the other context out of both indexes. -/
theorem not_isolated_strangerCalls :
    let m := Run.run (call DiscoveryState.seedConfig) {} strangerCalls
    let event : NodeInfoT := { nodeDiscovery := { id := 1, name := [98] }, contextAddr := 6 }
    let m' := m.step DiscoveryState.seedConfig (event, {})
    m.byId 1 = some 0 ∧ m.byName [97] = some 0 ∧ (m.heap 0).contextAddr = 5 ∧
      m'.byId 1 = some 1 ∧ m'.byName [97] = none ∧
      ¬ Isolated DiscoveryState.seedConfig m event {} := by
  have hid : (Run.run (call DiscoveryState.seedConfig) {} strangerCalls).byId 1 = some 0 := by
    decide +kernel
  have hname : (Run.run (call DiscoveryState.seedConfig) {} strangerCalls).byName [98] = none := by
    decide +kernel
  have hcontext :
      ((Run.run (call DiscoveryState.seedConfig) {} strangerCalls).heap 0).contextAddr = 5 := by
    decide +kernel
  refine ⟨hid, by decide +kernel, hcontext, by decide +kernel, by decide +kernel, ?_⟩
  refine not_isolated_of_replacesStranger (sound_run _ _) (properKeys_run _ _) ⟨rfl, 0, ?_, ?_⟩
  · rw [hcontext]
    decide
  · exact Or.inl ⟨hid, hname, by decide⟩

end ServiceDiscoveryModule

end LibAtapp
