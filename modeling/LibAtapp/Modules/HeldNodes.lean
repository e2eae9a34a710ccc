import LibAtapp.Library.KeyedSet
import LibAtapp.Modules.EventInvariant

set_option autoImplicit false

/-! # The nodes a set holds, in one cluster context

Where all nodes of the discovery set belong to the context of the events, every Put is stored and
every Delete removes what it finds. The set is then a registry of infos that clash when they have
an id or a name in common: a Put that does not rekey a node in place puts its info
(`contents_put`), a Delete removes what clashes with its keys (`contents_delete`). -/

namespace LibAtapp

namespace AtappDiscovery

/-- Two infos have an id or a name in common. -/
def SharesKey (a b : AtappDiscovery) : Prop :=
  (a.id ≠ 0 ∧ a.id = b.id) ∨ (a.name ≠ [] ∧ a.name = b.name)

instance (a b : AtappDiscovery) : Decidable (SharesKey a b) :=
  inferInstanceAs (Decidable (_ ∨ _))

/-- An info can be filed under its id or its name. -/
def Keyed (a : AtappDiscovery) : Prop := a.id ≠ 0 ∨ a.name ≠ []

instance (a : AtappDiscovery) : Decidable (Keyed a) :=
  inferInstanceAs (Decidable (_ ∨ _))

theorem SharesKey.symm {a b : AtappDiscovery} (h : SharesKey a b) : SharesKey b a := by
  rcases h with ⟨h0, heq⟩ | ⟨h0, heq⟩
  · exact Or.inl ⟨heq ▸ h0, heq.symm⟩
  · exact Or.inr ⟨heq ▸ h0, heq.symm⟩

theorem sharesKey_self {a : AtappDiscovery} : SharesKey a a ↔ Keyed a := by
  simp [SharesKey, Keyed]

theorem SharesKey.keyed {a b : AtappDiscovery} (h : SharesKey a b) : Keyed b := by
  rcases h with ⟨h0, heq⟩ | ⟨h0, heq⟩
  · exact Or.inl (heq ▸ h0)
  · exact Or.inr (heq ▸ h0)

/-- Sharing a key only depends on the id and the name. -/
theorem SharesKey.congr_left {a b c : AtappDiscovery} (h : SharesKey a b) (hid : a.id = c.id)
    (hname : a.name = c.name) : SharesKey c b := by
  unfold SharesKey at h ⊢
  rw [← hid, ← hname]
  exact h

@[simp] theorem canonical_sharesKey {a b : AtappDiscovery} :
    SharesKey a.canonical b ↔ SharesKey a b := Iff.rfl

@[simp] theorem sharesKey_canonical {a b : AtappDiscovery} :
    SharesKey a b.canonical ↔ SharesKey a b := Iff.rfl

end AtappDiscovery

namespace ServiceDiscoveryModule

variable {cfg : HashConfig} {m : ServiceDiscoveryModule} {event : NodeInfoT}
  {version : EtcdDataVersion} {context : Nat}

/-- All nodes of the set belong to the context. -/
def OneContext (context : Nat) (m : ServiceDiscoveryModule) : Prop :=
  ∀ p, m.globalDiscovery.Live p → (m.heap p).contextAddr = context

/-- The set holds a node with this content, under its id and its name. -/
def Holds (m : ServiceDiscoveryModule) (node : AtappDiscovery) : Prop :=
  node.Keyed ∧ ∃ p, (node.id ≠ 0 → m.byId node.id = some p) ∧
    (node.name ≠ [] → m.byName node.name = some p) ∧
    AtappDiscovery.protobufEqual (m.heap p).nodeInfo node = true

/-- The set holds every node of the list, and has no other entries. -/
structure HoldsExactly (m : ServiceDiscoveryModule) (nodes : List AtappDiscovery) : Prop where
  holds : ∀ node ∈ nodes, m.Holds node
  ids : ∀ k p, m.byId k = some p → ∃ node ∈ nodes, node.id = k
  names : ∀ n p, m.byName n = some p → ∃ node ∈ nodes, node.name = n

/-- A node that is filed under an id or a name that the event carries. -/
def Found (m : ServiceDiscoveryModule) (node : AtappDiscovery) (p : NodePtr) : Prop :=
  m.byId node.id = some p ∨ m.byName node.name = some p

theorem Found.live {node : AtappDiscovery} {p : NodePtr} (h : m.Found node p) :
    m.globalDiscovery.Live p := by
  rcases h with hp | hp
  · exact Or.inl ⟨_, hp⟩
  · exact Or.inr ⟨_, hp⟩

/-! ## Decisions in one context -/

theorem sameContext_of_found (hone : OneContext context m) (hctx : event.contextAddr = context)
    {p : NodePtr} (h : m.Found event.nodeDiscovery p) : m.sameContext event p = true := by
  rw [sameContext, hone p h.live, hctx, beq_self_eq_true]

/-- A Delete that finds a node removes it. -/
theorem decision_of_delete (hone : OneContext context m) (hctx : event.contextAddr = context)
    (hdelete : event.action = .delete) {p : NodePtr} (h : m.Found event.nodeDiscovery p) :
    m.decision event = .remove := by
  have hsame := sameContext_of_found hone hctx h
  unfold decision
  simp only [hdelete]
  split
  · next heq =>
    have hp : m.byId event.nodeDiscovery.id = some p := by
      rcases h with hp | hp
      · exact hp
      · exact heq.trans hp
    simp only [hp, hsame, if_true]
  · have hany : (m.byId event.nodeDiscovery.id).any (m.sameContext event) = true ∨
        (m.byName event.nodeDiscovery.name).any (m.sameContext event) = true := by
      rcases h with hp | hp
      · exact Or.inl (by rw [hp]; exact hsame)
      · exact Or.inr (by rw [hp]; exact hsame)
    rw [if_pos (by simpa using hany)]

/-- A Delete stores nothing. -/
theorem decision_ne_of_delete (hdelete : event.action = .delete) :
    m.decision event = .ignore ∨ m.decision event = .remove := by
  unfold decision
  simp only [hdelete]
  split
  · cases m.byId event.nodeDiscovery.id with
    | none => exact Or.inl rfl
    | some p => cases h : m.sameContext event p <;> simp [h]
  · split
    · exact Or.inr rfl
    · exact Or.inl rfl

/-- A Put removes nothing without storing itself. -/
theorem decision_ne_remove_of_put (hput : event.action = .put) : m.decision event ≠ .remove := by
  unfold decision
  simp only [hput]
  split
  · cases m.byId event.nodeDiscovery.id with
    | none => simp
    | some p => cases h : m.overwritable event p <;> simp [h]
  · split <;> simp

/-- What a Put that is ignored finds may not be overwritten. -/
theorem not_overwritable_of_ignored (hput : event.action = .put) (h : m.decision event = .ignore)
    {q : NodePtr} (hq : m.Found event.nodeDiscovery q) : m.overwritable event q = false := by
  unfold decision at h
  simp only [hput] at h
  split at h
  · next heq =>
    have hp : m.byId event.nodeDiscovery.id = some q := by
      rcases hq with hp | hp
      · exact hp
      · exact heq.trans hp
    simpa [hp] using h
  · split at h
    · next hchoose =>
      unfold chooseNewInst at hchoose
      split at hchoose
      · cases hchoose
      · split at hchoose
        · cases hchoose
        · next hany =>
          split at hchoose
          · cases hchoose
          · next hany' =>
            rcases hq with hp | hp
            · simpa [hp] using hany
            · simpa [hp] using hany'
    · cases h
    · cases h

/-- A Put that finds nothing is not ignored. -/
theorem found_of_ignored (hput : event.action = .put) (h : m.decision event = .ignore) :
    ∃ p, m.Found event.nodeDiscovery p := by
  by_contra hnone
  have hid : m.byId event.nodeDiscovery.id = none :=
    Option.eq_none_iff_forall_ne_some.2 fun p hp => hnone ⟨p, Or.inl hp⟩
  have hname : m.byName event.nodeDiscovery.name = none :=
    Option.eq_none_iff_forall_ne_some.2 fun p hp => hnone ⟨p, Or.inr hp⟩
  simp [decision, hput, hid, hname] at h

/-- Whatever an ignored Put finds has its content already. -/
theorem equal_of_ignored (hone : OneContext context m) (hctx : event.contextAddr = context)
    (hput : event.action = .put) (h : m.decision event = .ignore) {q : NodePtr}
    (hq : m.Found event.nodeDiscovery q) :
    AtappDiscovery.protobufEqual (m.heap q).nodeInfo event.nodeDiscovery = true := by
  have hnot := not_overwritable_of_ignored hput h hq
  rw [overwritable, sameContext_of_found hone hctx hq, Bool.and_true] at hnot
  simpa using hnot

/-! ## Where a node is filed -/

/-- Under the invariant a filed node is found under an id exactly when it has this id. -/
theorem byId_iff (h : IndexInv m.heap m.globalDiscovery) {p : NodePtr}
    (hlive : m.globalDiscovery.Live p) {k : Nat} (hk : k ≠ 0) :
    m.byId k = some p ↔ (m.heap p).id = k := by
  constructor
  · exact fun hp => (h.id_key k p hp).2
  · intro hid
    subst hid
    rcases hlive with ⟨j, hj⟩ | ⟨n, hn⟩
    · rw [(h.id_key j p hj).2]
      exact hj
    · exact h.name_to_id n p hn hk

theorem byName_iff (h : IndexInv m.heap m.globalDiscovery) {p : NodePtr}
    (hlive : m.globalDiscovery.Live p) {n : Bytes} (hn : n ≠ []) :
    m.byName n = some p ↔ (m.heap p).name = n := by
  constructor
  · exact fun hp => (h.name_key n p hp).2
  · intro hname
    subst hname
    rcases hlive with ⟨k, hk⟩ | ⟨j, hj⟩
    · exact h.id_to_name k p hk hn
    · rw [(h.name_key j p hj).2]
      exact hj

/-- A filed node with the content of a keyed one makes the set hold it. -/
theorem holds_of_live (h : IndexInv m.heap m.globalDiscovery) {node : AtappDiscovery}
    (hkeyed : node.Keyed) {p : NodePtr} (hlive : m.globalDiscovery.Live p)
    (heq : AtappDiscovery.protobufEqual (m.heap p).nodeInfo node = true) : m.Holds node := by
  obtain ⟨hid, hname⟩ := AtappDiscovery.protobufEqual_keys heq
  exact ⟨hkeyed, p, fun h0 => (byId_iff h hlive h0).2 hid,
    fun h0 => (byName_iff h hlive h0).2 hname, heq⟩

/-- A filed node is found exactly when it has a key of the event. -/
theorem found_iff_sharesKey (h : IndexInv m.heap m.globalDiscovery) {p : NodePtr}
    (hlive : m.globalDiscovery.Live p) (node : AtappDiscovery) :
    m.Found node p ↔ AtappDiscovery.SharesKey (m.heap p).nodeInfo node := by
  constructor
  · intro hfound
    rcases hfound with hp | hp
    · obtain ⟨h0, hid⟩ := h.id_key _ p hp
      exact Or.inl ⟨hid.trans_ne h0, hid⟩
    · obtain ⟨h0, hname⟩ := h.name_key _ p hp
      exact Or.inr ⟨hname.trans_ne h0, hname⟩
  · intro hshares
    rcases hshares with ⟨h0, hid⟩ | ⟨h0, hname⟩
    · exact Or.inl ((byId_iff h hlive (hid ▸ h0)).2 hid)
    · exact Or.inr ((byName_iff h hlive (hname ▸ h0)).2 hname)

/-! ## The contents -/

/-- The infos of the live nodes, with field presence forgotten. -/
def contents (m : ServiceDiscoveryModule) : Set AtappDiscovery :=
  {node | ∃ p, m.globalDiscovery.Live p ∧ (m.heap p).nodeInfo.canonical = node}

/-- Infos in the set can be filed. -/
theorem keyed_of_mem_contents (h : IndexInv m.heap m.globalDiscovery) {node : AtappDiscovery}
    (hmem : node ∈ m.contents) : node.Keyed := by
  obtain ⟨p, hlive, hp⟩ := hmem
  subst hp
  rcases hlive with ⟨k, hk⟩ | ⟨n, hn⟩
  · obtain ⟨h0, hid⟩ := h.id_key k p hk
    exact Or.inl (hid.trans_ne h0)
  · obtain ⟨h0, hname⟩ := h.name_key n p hn
    exact Or.inr (hname.trans_ne h0)

/-- Two infos in the set with a key in common are the same. -/
theorem eq_of_sharesKey (h : IndexInv m.heap m.globalDiscovery) {a b : AtappDiscovery}
    (ha : a ∈ m.contents) (hb : b ∈ m.contents) (hab : a.SharesKey b) : a = b := by
  obtain ⟨p, hp, hpa⟩ := ha
  obtain ⟨q, hq, hqb⟩ := hb
  subst hpa hqb
  have hpq : p = q := by
    rcases hab with ⟨h0, hid⟩ | ⟨h0, hname⟩
    · have hpid : m.byId (m.heap p).id = some p := (byId_iff h hp h0).2 rfl
      have hqid : m.byId (m.heap p).id = some q := (byId_iff h hq h0).2 hid.symm
      exact Option.some.inj (hpid.symm.trans hqid)
    · have hpname : m.byName (m.heap p).name = some p := (byName_iff h hp h0).2 rfl
      have hqname : m.byName (m.heap p).name = some q := (byName_iff h hq h0).2 hname.symm
      exact Option.some.inj (hpname.symm.trans hqname)
  rw [hpq]

/-- The set holds a keyed node exactly when the contents have it. -/
theorem holds_iff_mem_contents (h : IndexInv m.heap m.globalDiscovery) {node : AtappDiscovery}
    (hkeyed : node.Keyed) : m.Holds node ↔ node.canonical ∈ m.contents := by
  constructor
  · rintro ⟨_, p, hid, hname, heq⟩
    refine ⟨p, ?_, (AtappDiscovery.protobufEqual_iff _ _).1 heq⟩
    rcases hkeyed with h0 | h0
    · exact Or.inl ⟨_, hid h0⟩
    · exact Or.inr ⟨_, hname h0⟩
  · rintro ⟨p, hlive, hp⟩
    exact holds_of_live h hkeyed hlive ((AtappDiscovery.protobufEqual_iff _ _).2 hp)

/-- **The set holds exactly a list of keyed nodes when the list is its contents.** -/
theorem holdsExactly_iff (h : IndexInv m.heap m.globalDiscovery) {nodes : List AtappDiscovery}
    (hkeyed : ∀ node ∈ nodes, node.Keyed) :
    m.HoldsExactly nodes ↔ m.contents = {node | node ∈ nodes.map AtappDiscovery.canonical} := by
  have hmap : ∀ node, node ∈ nodes.map AtappDiscovery.canonical ↔
      ∃ node' ∈ nodes, node'.canonical = node := fun node => List.mem_map
  constructor
  · intro hexact
    ext node
    rw [Set.mem_ofPred_eq, hmap]
    constructor
    · rintro ⟨p, hlive, hp⟩
      have hfiled : ∃ node' ∈ nodes, m.Found node' p := by
        rcases hlive with ⟨k, hk⟩ | ⟨n, hn⟩
        · obtain ⟨node', hnode', hkey⟩ := hexact.ids k p hk
          exact ⟨node', hnode', Or.inl (hkey.symm ▸ hk)⟩
        · obtain ⟨node', hnode', hkey⟩ := hexact.names n p hn
          exact ⟨node', hnode', Or.inr (hkey.symm ▸ hn)⟩
      -- the node found for an entry of the list has its content
      obtain ⟨node', hnode', hfound⟩ := hfiled
      obtain ⟨q, hq, hqnode⟩ :=
        (holds_iff_mem_contents h (hkeyed node' hnode')).1 (hexact.holds node' hnode')
      have hshares := (found_iff_sharesKey h hlive node').1 hfound
      refine ⟨node', hnode', ?_⟩
      rw [← hp]
      refine (eq_of_sharesKey h ⟨p, hlive, rfl⟩ ⟨q, hq, hqnode⟩ ?_).symm
      exact hshares
    · rintro ⟨node', hnode', hcanon⟩
      rw [← hcanon]
      exact (holds_iff_mem_contents h (hkeyed node' hnode')).1 (hexact.holds node' hnode')
  · intro heq
    have hmem : ∀ p, m.globalDiscovery.Live p →
        ∃ node ∈ nodes, node.canonical = (m.heap p).nodeInfo.canonical := by
      intro p hlive
      have hp : (m.heap p).nodeInfo.canonical ∈ m.contents := ⟨p, hlive, rfl⟩
      rw [heq, Set.mem_ofPred_eq, hmap] at hp
      exact hp
    refine ⟨fun node hnode => ?_, fun k p hk => ?_, fun n p hn => ?_⟩
    · rw [holds_iff_mem_contents h (hkeyed node hnode), heq]
      exact (hmap _).2 ⟨node, hnode, rfl⟩
    · obtain ⟨node, hnode, hcanon⟩ := hmem p (Or.inl ⟨k, hk⟩)
      exact ⟨node, hnode, (congrArg AtappDiscovery.id hcanon).trans (h.id_key k p hk).2⟩
    · obtain ⟨node, hnode, hcanon⟩ := hmem p (Or.inr ⟨n, hn⟩)
      exact ⟨node, hnode, (congrArg AtappDiscovery.name hcanon).trans (h.name_key n p hn).2⟩

/-! ## What a Put and a Delete do -/

/-- A node a Put stores itself in is found or new; in both cases no other live node. -/
theorem stored_ne_of_not_found (hv : Valid cfg m) {r : NodePtr} (hlive : m.globalDiscovery.Live r)
    (hr : ¬ m.Found event.nodeDiscovery r) : m.stored event ≠ some r := by
  intro hstored
  unfold stored at hstored
  split at hstored
  · cases hstored
  · cases hstored
  · next p hdec =>
    rw [Option.some.inj hstored] at hdec
    exact hr (found_of_overwrite hdec).1
  · rw [← Option.some.inj hstored] at hlive
    exact lt_irrefl _ (hv.allocated _ hlive)

/-- The nodes that are filed after an event. -/
theorem Merged.live_iff {m' : ServiceDiscoveryModule} {gone : NodePtr → Prop}
    {stored : Option NodePtr} (hm : Merged m m' event stored gone) (r : NodePtr) :
    m'.globalDiscovery.Live r ↔ (stored = some r ∧ event.nodeDiscovery.Keyed) ∨
      (stored ≠ some r ∧ m.globalDiscovery.Live r ∧ ¬ gone r) := by
  constructor
  · intro hlive
    rcases hlive with ⟨k, hk⟩ | ⟨n, hn⟩
    · rcases (hm.id_entry k r).1 hk with ⟨hs, hkey, h0⟩ | ⟨hs, hk, hg⟩
      · exact Or.inl ⟨hs, Or.inl (hkey ▸ h0)⟩
      · exact Or.inr ⟨hs, Or.inl ⟨k, hk⟩, hg⟩
    · rcases (hm.name_entry n r).1 hn with ⟨hs, hkey, h0⟩ | ⟨hs, hn, hg⟩
      · exact Or.inl ⟨hs, Or.inr (hkey ▸ h0)⟩
      · exact Or.inr ⟨hs, Or.inr ⟨n, hn⟩, hg⟩
  · intro h
    rcases h with ⟨hs, h0 | h0⟩ | ⟨hs, ⟨k, hk⟩ | ⟨n, hn⟩, hg⟩
    · exact Or.inl ⟨_, (hm.id_entry _ r).2 (Or.inl ⟨hs, rfl, h0⟩)⟩
    · exact Or.inr ⟨_, (hm.name_entry _ r).2 (Or.inl ⟨hs, rfl, h0⟩)⟩
    · exact Or.inl ⟨k, (hm.id_entry k r).2 (Or.inr ⟨hs, hk, hg⟩)⟩
    · exact Or.inr ⟨n, (hm.name_entry n r).2 (Or.inr ⟨hs, hn, hg⟩)⟩

/-- After an event the filed nodes belong to the context. -/
theorem Merged.oneContext {m' : ServiceDiscoveryModule} {gone : NodePtr → Prop}
    {stored : Option NodePtr} (hm : Merged m m' event stored gone) (hone : OneContext context m)
    (hctx : event.contextAddr = context) : OneContext context m' := by
  intro r hlive
  rcases (hm.live_iff r).1 hlive with ⟨hs, _⟩ | ⟨hs, hr, _⟩
  · exact (hm.context r hs).trans hctx
  · rw [(hm.content r hs).context]
    exact hone r hr

/-- The contents after an event that takes away the nodes it finds. -/
theorem Merged.contents_eq {m' : ServiceDiscoveryModule} {gone : NodePtr → Prop}
    {stored : Option NodePtr} (hm : Merged m m' event stored gone)
    (h : IndexInv m.heap m.globalDiscovery) (hgone : ∀ r, gone r ↔ m.Found event.nodeDiscovery r)
    (hstored : ∀ r, m.globalDiscovery.Live r → ¬ m.Found event.nodeDiscovery r →
      stored ≠ some r) {node : AtappDiscovery} :
    node ∈ m'.contents ↔
      (stored.isSome ∧ event.nodeDiscovery.Keyed ∧ node = event.nodeDiscovery.canonical) ∨
        node ∈ KeyedSet.remove AtappDiscovery.SharesKey m.contents event.nodeDiscovery := by
  constructor
  · rintro ⟨r, hlive, hr⟩
    rcases (hm.live_iff r).1 hlive with ⟨hs, hkeyed⟩ | ⟨hs, hold, hg⟩
    · exact Or.inl ⟨by rw [hs]; rfl, hkeyed, by rw [← hr, hm.info r hs]⟩
    · rw [(hm.content r hs).info] at hr
      refine Or.inr ⟨⟨r, hold, hr⟩, fun hshares => hg ((hgone r).2 ?_)⟩
      rw [← hr] at hshares
      exact (found_iff_sharesKey h hold _).2 hshares
  · intro hnode
    rcases hnode with ⟨hsome, hkeyed, heq⟩ | ⟨⟨r, hold, hr⟩, hclear⟩
    · obtain ⟨p, hp⟩ := Option.isSome_iff_exists.1 hsome
      exact ⟨p, (hm.live_iff p).2 (Or.inl ⟨hp, hkeyed⟩), by rw [hm.info p hp, heq]⟩
    · have hnot : ¬ m.Found event.nodeDiscovery r := by
        intro hfound
        refine hclear ?_
        rw [← hr]
        exact (found_iff_sharesKey h hold _).1 hfound
      have hs := hstored r hold hnot
      exact ⟨r, (hm.live_iff r).2 (Or.inr ⟨hs, hold, fun hg => hnot ((hgone r).1 hg)⟩),
        by rw [(hm.content r hs).info, hr]⟩

/-- **A Put** that does not rekey a node in place puts its info. -/
theorem contents_put (hv : Valid cfg m) (hone : OneContext context m)
    (hctx : event.contextAddr = context) (hput : event.action = .put)
    (hkeyed : event.nodeDiscovery.Keyed) (hr : ¬ m.RekeysInPlace event)
    (version : EtcdDataVersion) :
    Valid cfg (m.mergeEvent cfg event version).module ∧
      OneContext context (m.mergeEvent cfg event version).module ∧
      (m.mergeEvent cfg event version).module.contents =
        KeyedSet.put AtappDiscovery.SharesKey m.contents event.nodeDiscovery.canonical := by
  obtain ⟨hv', hm⟩ := mergeEvent_spec hv hr version
  refine ⟨hv', hm.oneContext hone hctx, ?_⟩
  ext node
  rw [KeyedSet.mem_put, AtappDiscovery.sharesKey_canonical]
  by_cases hdec : m.decision event = .ignore
  · -- an ignored Put changes no info, and what it finds has its content already
    obtain ⟨p, hp⟩ := found_of_ignored hput hdec
    have hsame : ∀ r, m.Found event.nodeDiscovery r →
        (m.heap r).nodeInfo.canonical = event.nodeDiscovery.canonical := fun r hfound =>
      (AtappDiscovery.protobufEqual_iff _ _).1 (equal_of_ignored hone hctx hput hdec hfound)
    have hcontents : node ∈ (m.mergeEvent cfg event version).module.contents ↔
        node ∈ m.contents := by
      have hstored : m.stored event = none := by rw [stored, hdec]
      simp only [contents, Set.mem_ofPred_eq, hm.live_iff, hstored,
        (hm.content _ (by simp [hstored])).info]
      simp [gone, hdec]
    rw [hcontents]
    constructor
    · rintro ⟨r, hlive, hr⟩
      by_cases hfound : m.Found event.nodeDiscovery r
      · exact Or.inl (hr.symm.trans (hsame r hfound))
      · refine Or.inr ⟨⟨r, hlive, hr⟩, fun hshares => hfound ?_⟩
        rw [← hr] at hshares
        exact (found_iff_sharesKey hv.index hlive _).2 hshares
    · intro h
      rcases h with h | h
      · exact ⟨p, hp.live, h.symm ▸ hsame p hp⟩
      · exact h.1
  · have hgone : ∀ r, m.gone event r ↔ m.Found event.nodeDiscovery r :=
      fun r => ⟨fun hg => hg.2, fun hf => ⟨hdec, hf⟩⟩
    have hsome : (m.stored event).isSome = true := by
      cases hd : m.decision event with
      | ignore => exact absurd hd hdec
      | remove => exact absurd hd (decision_ne_remove_of_put hput)
      | overwrite p => rw [stored, hd]; rfl
      | fresh => rw [stored, hd]; rfl
    rw [hm.contents_eq hv.index hgone (fun r hl hf => stored_ne_of_not_found hv hl hf)]
    simp only [hsome, hkeyed, true_and, KeyedSet.mem_remove]

/-- **A Delete** removes the infos that have a key of it. -/
theorem contents_delete (hv : Valid cfg m) (hone : OneContext context m)
    (hctx : event.contextAddr = context) (hdelete : event.action = .delete)
    (version : EtcdDataVersion) :
    Valid cfg (m.mergeEvent cfg event version).module ∧
      OneContext context (m.mergeEvent cfg event version).module ∧
      (m.mergeEvent cfg event version).module.contents =
        KeyedSet.remove AtappDiscovery.SharesKey m.contents event.nodeDiscovery := by
  have hdec := @decision_ne_of_delete m event hdelete
  have hr : ¬ m.RekeysInPlace event := by
    rintro ⟨p, hp, _⟩
    rcases hdec with h | h <;> rw [h] at hp <;> cases hp
  have hstored : m.stored event = none := by
    rcases hdec with h | h <;> rw [stored, h]
  have hgone : ∀ r, m.gone event r ↔ m.Found event.nodeDiscovery r :=
    fun r => ⟨fun hg => hg.2, fun hf => ⟨by simp [decision_of_delete hone hctx hdelete hf], hf⟩⟩
  obtain ⟨hv', hm⟩ := mergeEvent_spec hv hr version
  refine ⟨hv', hm.oneContext hone hctx, ?_⟩
  ext node
  rw [hm.contents_eq hv.index hgone (fun r hl hf => stored_ne_of_not_found hv hl hf), hstored]
  simp

end ServiceDiscoveryModule

end LibAtapp
