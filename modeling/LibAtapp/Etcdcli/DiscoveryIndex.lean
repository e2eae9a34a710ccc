import LibAtapp.Etcdcli.DiscoverySet

set_option autoImplicit false

/-! # The index invariant of the discovery set

Every entry of the two maps is filed under its node's own key, and a node that has both an id and
a name is in both maps. `add_node` restores the invariant when the only node in the wrong place is
the added one (`IndexInvExcept.addNode`), which is the situation after `copy_from` has overwritten
it; the three `remove_node` keep the invariant. -/

namespace LibAtapp

/-! ## The invariant -/

/-- Every entry is filed under its node's key, and no entry under the id 0 or the empty name. -/
structure IndexSound (heap : NodeHeap) (s : EtcdDiscoverySet) : Prop where
  id_key : ∀ k p, s.getNodeById k = some p → k ≠ 0 ∧ (heap p).id = k
  name_key : ∀ n p, s.getNodeByName n = some p → n ≠ [] ∧ (heap p).name = n

/-- The two maps agree, except that `node` may be missing from one of them. -/
structure IndexInvExcept (heap : NodeHeap) (s : EtcdDiscoverySet) (node : NodePtr) : Prop
    extends IndexSound heap s where
  id_to_name : ∀ k p, p ≠ node → s.getNodeById k = some p → (heap p).name ≠ [] →
    s.getNodeByName (heap p).name = some p
  name_to_id : ∀ n p, p ≠ node → s.getNodeByName n = some p → (heap p).id ≠ 0 →
    s.getNodeById (heap p).id = some p

/-- The index invariant: entries under their own keys, and a node with an id and a name in both
    maps. -/
structure IndexInv (heap : NodeHeap) (s : EtcdDiscoverySet) : Prop extends IndexSound heap s where
  id_to_name : ∀ k p, s.getNodeById k = some p → (heap p).name ≠ [] →
    s.getNodeByName (heap p).name = some p
  name_to_id : ∀ n p, s.getNodeByName n = some p → (heap p).id ≠ 0 →
    s.getNodeById (heap p).id = some p

/-- A node is live when one of the maps holds it. -/
def EtcdDiscoverySet.Live (s : EtcdDiscoverySet) (p : NodePtr) : Prop :=
  (∃ k, s.getNodeById k = some p) ∨ ∃ n, s.getNodeByName n = some p

theorem EtcdDiscoverySet.live_iff_mem (s : EtcdDiscoverySet) (p : NodePtr) :
    s.Live p ↔ p ∈ s.nodeById.entries.map Sigma.snd ∨ p ∈ s.nodeByName.entries.map Sigma.snd := by
  rw [mem_entries_values, mem_entries_values]
  rfl

instance (s : EtcdDiscoverySet) (p : NodePtr) : Decidable (s.Live p) :=
  decidable_of_iff' _ (s.live_iff_mem p)

/-- The set without nodes. -/
def EtcdDiscoverySet.empty : EtcdDiscoverySet := {}

@[simp] theorem EtcdDiscoverySet.getNodeById_empty (k : Nat) :
    EtcdDiscoverySet.empty.getNodeById k = none := rfl

@[simp] theorem EtcdDiscoverySet.getNodeByName_empty (n : Bytes) :
    EtcdDiscoverySet.empty.getNodeByName n = none := rfl

theorem IndexInv.empty (heap : NodeHeap) : IndexInv heap EtcdDiscoverySet.empty where
  id_key := by simp
  name_key := by simp
  id_to_name := by simp
  name_to_id := by simp

theorem IndexInv.except {heap : NodeHeap} {s : EtcdDiscoverySet} (h : IndexInv heap s)
    (node : NodePtr) : IndexInvExcept heap s node where
  toIndexSound := h.toIndexSound
  id_to_name := fun k p _ => h.id_to_name k p
  name_to_id := fun n p _ => h.name_to_id n p

theorem IndexInvExcept.inv {heap : NodeHeap} {s : EtcdDiscoverySet} {node : NodePtr}
    (h : IndexInvExcept heap s node)
    (hid : ∀ k, s.getNodeById k = some node → (heap node).name ≠ [] →
      s.getNodeByName (heap node).name = some node)
    (hname : ∀ n, s.getNodeByName n = some node → (heap node).id ≠ 0 →
      s.getNodeById (heap node).id = some node) : IndexInv heap s where
  toIndexSound := h.toIndexSound
  id_to_name := by
    intro k p hp hne
    by_cases hpn : p = node
    · subst hpn
      exact hid k hp hne
    · exact h.id_to_name k p hpn hp hne
  name_to_id := by
    intro n p hp hne
    by_cases hpn : p = node
    · subst hpn
      exact hname n hp hne
    · exact h.name_to_id n p hpn hp hne

/-- The invariant holds when it holds up to each node. -/
theorem IndexInv.of_except {heap : NodeHeap} {s : EtcdDiscoverySet}
    (h : ∀ node, IndexInvExcept heap s node) : IndexInv heap s where
  toIndexSound := (h 0).toIndexSound
  id_to_name := fun k p => (h (p + 1)).id_to_name k p (Nat.ne_of_lt (Nat.lt_succ_self p))
  name_to_id := fun n p => (h (p + 1)).name_to_id n p (Nat.ne_of_lt (Nat.lt_succ_self p))

/-- The invariant up to one node only reads ids and names of the entries. -/
theorem IndexInvExcept.congr {heap heap' : NodeHeap} {s : EtcdDiscoverySet} {node : NodePtr}
    (h : IndexInvExcept heap s node)
    (hinfo : ∀ p, s.Live p → (heap' p).id = (heap p).id ∧ (heap' p).name = (heap p).name) :
    IndexInvExcept heap' s node where
  id_key := by
    intro k p hp
    rw [(hinfo p (Or.inl ⟨k, hp⟩)).1]
    exact h.id_key k p hp
  name_key := by
    intro n p hp
    rw [(hinfo p (Or.inr ⟨n, hp⟩)).2]
    exact h.name_key n p hp
  id_to_name := by
    intro k p hpn hp
    rw [(hinfo p (Or.inl ⟨k, hp⟩)).2]
    exact h.id_to_name k p hpn hp
  name_to_id := by
    intro n p hpn hp
    rw [(hinfo p (Or.inr ⟨n, hp⟩)).1]
    exact h.name_to_id n p hpn hp

namespace IndexInv

variable {heap : NodeHeap} {s : EtcdDiscoverySet}

/-- A node with the id of an entry and the name of an entry of the other map is both entries. -/
theorem byId_eq_of_byName (h : IndexInv heap s) {n : Bytes} {p q : NodePtr}
    (hp : s.getNodeByName n = some p) (hq : s.getNodeById (heap p).id = some q) : q = p := by
  have hne := (h.id_key _ _ hq).1
  have := h.name_to_id n p hp hne
  rw [hq] at this
  exact Option.some.inj this

/-- The live nodes are those found by their own id or their own name. -/
theorem live_iff (h : IndexInv heap s) (p : NodePtr) :
    s.Live p ↔ s.getNodeById (heap p).id = some p ∨ s.getNodeByName (heap p).name = some p := by
  constructor
  · rintro (⟨k, hk⟩ | ⟨n, hn⟩)
    · exact Or.inl ((h.id_key k p hk).2 ▸ hk)
    · exact Or.inr ((h.name_key n p hn).2 ▸ hn)
  · exact fun hp => hp.imp (fun hk => ⟨_, hk⟩) (fun hn => ⟨_, hn⟩)

/-- The invariant only reads ids and names of the entries. -/
theorem congr {heap' : NodeHeap} (h : IndexInv heap s)
    (hinfo : ∀ p, s.Live p → (heap' p).id = (heap p).id ∧ (heap' p).name = (heap p).name) :
    IndexInv heap' s :=
  IndexInv.of_except (fun node => (h.except node).congr hinfo)

end IndexInv

/-! ## Entries after an operation -/

/-- Adding `node` displaces `q`: `q` is filed under the id or the name of `node`. -/
def EtcdDiscoverySet.Displaces (heap : NodeHeap) (s : EtcdDiscoverySet) (node q : NodePtr) : Prop :=
  q ≠ node ∧ (((heap node).id ≠ 0 ∧ s.getNodeById (heap node).id = some q) ∨
    ((heap node).name ≠ [] ∧ s.getNodeByName (heap node).name = some q))

instance (heap : NodeHeap) (s : EtcdDiscoverySet) (node q : NodePtr) :
    Decidable (s.Displaces heap node q) :=
  inferInstanceAs (Decidable (q ≠ node ∧ (_ ∨ _)))

/-- The nodes whose cached indexes `add_node` drops: those it displaces, and the added one only
    when it displaces none. -/
theorem EtcdDiscoverySet.some_mem_clearCacheNodePtrs (heap : NodeHeap) (s : EtcdDiscoverySet)
    (node q : NodePtr) : some q ∈ (s.addNodeLocals heap node).clearCacheNodePtrs ↔
      s.Displaces heap node q ∨ (q = node ∧ ∀ r, ¬ s.Displaces heap node r) := by
  simp only [addNodeLocals, AddNodeLocals.eraseOld_clearCacheNodePtrs]
  generalize hl0 : AddNodeLocals.mk s.nodeByName s.nodeById false [] 0 [some node, none, none] 1 =
    l0
  have hname : (l0.insertId heap node).nodeByName = s.nodeByName := by
    rw [(AddNodeLocals.insertId_frame heap node l0).1, ← hl0]
  rcases AddNodeLocals.insertId_clearCacheNodePtrs heap node l0 (by rw [← hl0]) (by rw [← hl0])
    with ⟨a, hane, hid0, ha, hptrs, hsize⟩ | ⟨hnoid, hptrs, hsize⟩
  · replace ha : s.getNodeById (heap node).id = some a := by rw [← ha, ← hl0]; rfl
    have hda : s.Displaces heap node a := ⟨hane, Or.inl ⟨hid0, ha⟩⟩
    rcases AddNodeLocals.insertName_clearCacheNodePtrs heap node _ hptrs hsize (Or.inr rfl)
      with ⟨b, hbne, hn0, hb, hptrs⟩ | ⟨hnoname, hptrs⟩
    · rw [hname] at hb
      have hdb : s.Displaces heap node b := ⟨hbne, Or.inr ⟨hn0, hb⟩⟩
      rw [hptrs]
      simp only [show ¬ (2 = 1) by decide, if_false, List.mem_cons, Option.some.injEq,
        reduceCtorEq, List.not_mem_nil, or_false]
      constructor
      · rintro (rfl | rfl)
        · exact Or.inl hda
        · exact Or.inl hdb
      · rintro (⟨_, ⟨_, hq⟩ | ⟨_, hq⟩⟩ | ⟨_, hno⟩)
        · exact Or.inl (Option.some.inj (hq.symm.trans ha))
        · exact Or.inr (Option.some.inj (hq.symm.trans hb))
        · exact absurd hda (hno a)
    · rw [hptrs]
      simp only [List.mem_cons, Option.some.injEq, reduceCtorEq, List.not_mem_nil, or_false]
      constructor
      · rintro rfl
        exact Or.inl hda
      · rintro (⟨hqn, ⟨_, hq⟩ | ⟨hn0, hq⟩⟩ | ⟨_, hno⟩)
        · exact Option.some.inj (hq.symm.trans ha)
        · exact absurd (hname ▸ hq) (hnoname q hqn hn0)
        · exact absurd hda (hno a)
  · have hnoid : ∀ r, r ≠ node → (heap node).id ≠ 0 → s.getNodeById (heap node).id ≠ some r := by
      intro r hr hid
      have := hnoid r hr hid
      rwa [← hl0] at this
    rcases AddNodeLocals.insertName_clearCacheNodePtrs heap node _ hptrs hsize (Or.inl ⟨rfl, rfl⟩)
      with ⟨b, hbne, hn0, hb, hptrs⟩ | ⟨hnoname, hptrs⟩
    · rw [hname] at hb
      have hdb : s.Displaces heap node b := ⟨hbne, Or.inr ⟨hn0, hb⟩⟩
      rw [hptrs]
      simp only [if_true, List.mem_cons, Option.some.injEq, reduceCtorEq, List.not_mem_nil,
        or_false]
      constructor
      · rintro rfl
        exact Or.inl hdb
      · rintro (⟨hqn, ⟨hid, hq⟩ | ⟨_, hq⟩⟩ | ⟨_, hno⟩)
        · exact absurd hq (hnoid q hqn hid)
        · exact Option.some.inj (hq.symm.trans hb)
        · exact absurd hdb (hno b)
    · rw [hptrs]
      simp only [List.mem_cons, Option.some.injEq, reduceCtorEq, List.not_mem_nil, or_false]
      have hno : ∀ r, ¬ s.Displaces heap node r := by
        rintro r ⟨hr, ⟨hid, hq⟩ | ⟨hn0, hq⟩⟩
        · exact hnoid r hr hid hq
        · exact hnoname r hr hn0 (hname ▸ hq)
      constructor
      · exact fun he => Or.inr ⟨he, hno⟩
      · rintro (hd | ⟨he, _⟩)
        · exact absurd hd (hno q)
        · exact he

section Entries

variable {heap : NodeHeap} {s : EtcdDiscoverySet} {node : NodePtr}

/-- The id entries after `remove_node` are those of the other nodes. -/
theorem IndexSound.removeNode_id (h : IndexSound heap s) (q : NodePtr) (k : Nat) (p : NodePtr) :
    (s.removeNode heap q).getNodeById k = some p ↔ s.getNodeById k = some p ∧ p ≠ q := by
  rw [EtcdDiscoverySet.getNodeById_removeNode]
  split
  · next hk =>
      refine ⟨fun hp => absurd hp (by simp), ?_⟩
      rintro ⟨hp, hpq⟩
      exact absurd (Option.some.inj (hp.symm.trans hk.2.2)) hpq
  · next hk =>
      refine ⟨fun hp => ⟨hp, fun he => hk ?_⟩, fun hp => hp.1⟩
      subst he
      have hkey := h.id_key k p hp
      exact ⟨hkey.2.symm, hkey.1, hp⟩

/-- The name entries after `remove_node` are those of the other nodes. -/
theorem IndexSound.removeNode_name (h : IndexSound heap s) (q : NodePtr) (n : Bytes) (p : NodePtr) :
    (s.removeNode heap q).getNodeByName n = some p ↔ s.getNodeByName n = some p ∧ p ≠ q := by
  rw [EtcdDiscoverySet.getNodeByName_removeNode]
  split
  · next hn =>
      refine ⟨fun hp => absurd hp (by simp), ?_⟩
      rintro ⟨hp, hpq⟩
      exact absurd (Option.some.inj (hp.symm.trans hn.2.2)) hpq
  · next hn =>
      refine ⟨fun hp => ⟨hp, fun he => hn ?_⟩, fun hp => hp.1⟩
      subst he
      have hkey := h.name_key n p hp
      exact ⟨hkey.2.symm, hkey.1, hp⟩

/-- The id under which `add_node` erases an entry belongs to a displaced node. -/
theorem addNodeOldId_spec (heap : NodeHeap) (s : EtcdDiscoverySet) (node : NodePtr) :
    s.addNodeOldId heap node = 0 ∨ ∃ q, q ≠ node ∧ (heap node).name ≠ [] ∧
      s.getNodeByName (heap node).name = some q ∧ (heap q).id = s.addNodeOldId heap node := by
  unfold EtcdDiscoverySet.addNodeOldId
  split
  · exact Or.inl rfl
  · next hname =>
      split
      · exact Or.inl rfl
      · next q hq =>
          split
          · next hqn => exact Or.inr ⟨q, hqn.1, hname, hq, rfl⟩
          · exact Or.inl rfl

/-- The name under which `add_node` erases an entry belongs to a displaced node. -/
theorem addNodeOldName_spec (heap : NodeHeap) (s : EtcdDiscoverySet) (node : NodePtr) :
    s.addNodeOldName heap node = [] ∨ ∃ q, q ≠ node ∧ (heap node).id ≠ 0 ∧
      s.getNodeById (heap node).id = some q ∧ (heap q).name = s.addNodeOldName heap node := by
  unfold EtcdDiscoverySet.addNodeOldName
  split
  · exact Or.inl rfl
  · next hid =>
      split
      · exact Or.inl rfl
      · next q hq =>
          split
          · next hqn => exact Or.inr ⟨q, hqn.1, hid, hq, rfl⟩
          · exact Or.inl rfl

/-- The id entries after `add_node`: the added node's, and those of nodes it does not displace. -/
theorem IndexInvExcept.addNode_id (h : IndexInvExcept heap s node) (k : Nat) (p : NodePtr) :
    (s.addNode heap node).getNodeById k = some p ↔
      (p = node ∧ k = (heap node).id ∧ k ≠ 0) ∨
        (p ≠ node ∧ s.getNodeById k = some p ∧ ¬ s.Displaces heap node p) := by
  rw [EtcdDiscoverySet.getNodeById_addNode]
  constructor
  · intro hp
    split at hp
    · next hk => exact Or.inl ⟨(Option.some.inj hp).symm, hk.2, hk.2 ▸ hk.1⟩
    · next hk =>
        split at hp
        · exact absurd hp (by simp)
        · next hold =>
            obtain ⟨hk0, hkey⟩ := h.id_key k p hp
            have hpn : p ≠ node := fun he => hk ⟨by rw [← he, hkey]; exact hk0, by rw [← he, hkey]⟩
            have hkid : k ≠ (heap node).id := fun he => hk ⟨he ▸ hk0, he⟩
            refine Or.inr ⟨hpn, hp, ?_⟩
            rintro ⟨_, ⟨_, hid⟩ | ⟨hname, hn⟩⟩
            · exact hkid (hkey.symm.trans (h.id_key _ p hid).2)
            · -- a node displaced by name with another id is erased from the id index
              refine hold ⟨hk0, ?_, ?_⟩
              · simp only [EtcdDiscoverySet.addNodeOldId, hn, if_neg hname, hkey]
                rw [if_pos ⟨hpn, hkid⟩]
              · rw [hp]
                exact fun hh => hpn (Option.some.inj hh)
  · rintro (⟨rfl, rfl, hk0⟩ | ⟨hpn, hp, hnot⟩)
    · exact if_pos ⟨hk0, rfl⟩
    · obtain ⟨hk0, hkey⟩ := h.id_key k p hp
      rw [if_neg, if_neg, hp]
      · rintro ⟨_, hold, _⟩
        rcases addNodeOldId_spec heap s node with h0 | ⟨q, hqn, hname, hq, hqid⟩
        · exact hk0 (hold.trans h0)
        · have hqk := h.name_to_id _ q hqn hq (by rw [hqid, ← hold]; exact hk0)
          rw [hqid, ← hold, hp] at hqk
          exact hnot ⟨hpn, Or.inr ⟨hname, Option.some.inj hqk ▸ hq⟩⟩
      · rintro ⟨hid0, hk⟩
        exact hnot ⟨hpn, Or.inl ⟨hid0, hk ▸ hp⟩⟩

/-- The name entries after `add_node`: the added node's, and those of nodes it does not
    displace. -/
theorem IndexInvExcept.addNode_name (h : IndexInvExcept heap s node) (n : Bytes) (p : NodePtr) :
    (s.addNode heap node).getNodeByName n = some p ↔
      (p = node ∧ n = (heap node).name ∧ n ≠ []) ∨
        (p ≠ node ∧ s.getNodeByName n = some p ∧ ¬ s.Displaces heap node p) := by
  rw [EtcdDiscoverySet.getNodeByName_addNode]
  constructor
  · intro hp
    split at hp
    · next hn => exact Or.inl ⟨(Option.some.inj hp).symm, hn.2, hn.2 ▸ hn.1⟩
    · next hn =>
        split at hp
        · exact absurd hp (by simp)
        · next hold =>
            obtain ⟨hn0, hkey⟩ := h.name_key n p hp
            have hpn : p ≠ node := fun he => hn ⟨by rw [← he, hkey]; exact hn0, by rw [← he, hkey]⟩
            have hnname : n ≠ (heap node).name := fun he => hn ⟨he ▸ hn0, he⟩
            refine Or.inr ⟨hpn, hp, ?_⟩
            rintro ⟨_, ⟨hid, hk⟩ | ⟨_, hname⟩⟩
            · refine hold ⟨hn0, ?_, ?_⟩
              · simp only [EtcdDiscoverySet.addNodeOldName, hk, if_neg hid, hkey]
                rw [if_pos ⟨hpn, hnname⟩]
              · rw [hp]
                exact fun hh => hpn (Option.some.inj hh)
            · exact hnname (hkey.symm.trans (h.name_key _ p hname).2)
  · rintro (⟨rfl, rfl, hn0⟩ | ⟨hpn, hp, hnot⟩)
    · exact if_pos ⟨hn0, rfl⟩
    · obtain ⟨hn0, hkey⟩ := h.name_key n p hp
      rw [if_neg, if_neg, hp]
      · rintro ⟨_, hold, _⟩
        rcases addNodeOldName_spec heap s node with h0 | ⟨q, hqn, hid, hq, hqname⟩
        · exact hn0 (hold.trans h0)
        · have hqk := h.id_to_name _ q hqn hq (by rw [hqname, ← hold]; exact hn0)
          rw [hqname, ← hold, hp] at hqk
          exact hnot ⟨hpn, Or.inl ⟨hid, Option.some.inj hqk ▸ hq⟩⟩
      · rintro ⟨hname0, hn⟩
        exact hnot ⟨hpn, Or.inr ⟨hname0, hn ▸ hp⟩⟩

/-- The live nodes after `remove_node` are the others. -/
theorem IndexSound.live_removeNode (h : IndexSound heap s) (q p : NodePtr) :
    (s.removeNode heap q).Live p ↔ s.Live p ∧ p ≠ q := by
  simp only [EtcdDiscoverySet.Live, h.removeNode_id, h.removeNode_name]
  constructor
  · rintro (⟨k, hk, hpq⟩ | ⟨n, hn, hpq⟩)
    · exact ⟨Or.inl ⟨k, hk⟩, hpq⟩
    · exact ⟨Or.inr ⟨n, hn⟩, hpq⟩
  · rintro ⟨⟨k, hk⟩ | ⟨n, hn⟩, hpq⟩
    · exact Or.inl ⟨k, hk, hpq⟩
    · exact Or.inr ⟨n, hn, hpq⟩

/-- The live nodes after `add_node`: the added one if it has an id or a name, and the nodes it
    does not displace. -/
theorem IndexInvExcept.live_addNode (h : IndexInvExcept heap s node) (p : NodePtr) :
    (s.addNode heap node).Live p ↔
      (p = node ∧ ((heap node).id ≠ 0 ∨ (heap node).name ≠ [])) ∨
        (p ≠ node ∧ s.Live p ∧ ¬ s.Displaces heap node p) := by
  simp only [EtcdDiscoverySet.Live, h.addNode_id, h.addNode_name]
  constructor
  · rintro (⟨k, ⟨rfl, rfl, hk0⟩ | ⟨hpn, hk, hnot⟩⟩ | ⟨n, ⟨rfl, rfl, hn0⟩ | ⟨hpn, hn, hnot⟩⟩)
    · exact Or.inl ⟨rfl, Or.inl hk0⟩
    · exact Or.inr ⟨hpn, Or.inl ⟨k, hk⟩, hnot⟩
    · exact Or.inl ⟨rfl, Or.inr hn0⟩
    · exact Or.inr ⟨hpn, Or.inr ⟨n, hn⟩, hnot⟩
  · rintro (⟨rfl, hid | hname⟩ | ⟨hpn, ⟨k, hk⟩ | ⟨n, hn⟩, hnot⟩)
    · exact Or.inl ⟨_, Or.inl ⟨rfl, rfl, hid⟩⟩
    · exact Or.inr ⟨_, Or.inl ⟨rfl, rfl, hname⟩⟩
    · exact Or.inl ⟨k, Or.inr ⟨hpn, hk, hnot⟩⟩
    · exact Or.inr ⟨n, Or.inr ⟨hpn, hn, hnot⟩⟩

end Entries

/-! ## The operations keep it -/

section Operations

variable {heap : NodeHeap} {s : EtcdDiscoverySet} {node : NodePtr}

/-- `remove_node` of any node keeps the invariant up to `node`. -/
theorem IndexInvExcept.removeNode (h : IndexInvExcept heap s node) (q : NodePtr) :
    IndexInvExcept heap (s.removeNode heap q) node := by
  have hid := h.toIndexSound.removeNode_id q
  have hname := h.toIndexSound.removeNode_name q
  refine ⟨⟨fun k p hp => h.id_key k p ((hid k p).1 hp).1,
    fun n p hp => h.name_key n p ((hname n p).1 hp).1⟩, ?_, ?_⟩
  · intro k p hpn hp hne
    obtain ⟨hk, hpq⟩ := (hid k p).1 hp
    exact (hname _ p).2 ⟨h.id_to_name k p hpn hk hne, hpq⟩
  · intro n p hpn hp hne
    obtain ⟨hn, hpq⟩ := (hname n p).1 hp
    exact (hid _ p).2 ⟨h.name_to_id n p hpn hn hne, hpq⟩

/-- **`add_node` restores the invariant** when only the added node is missing somewhere. -/
theorem IndexInvExcept.addNode (h : IndexInvExcept heap s node) :
    IndexInv heap (s.addNode heap node) := by
  refine ⟨⟨?_, ?_⟩, ?_, ?_⟩
  · intro k p hp
    rcases (h.addNode_id k p).1 hp with ⟨rfl, rfl, hk0⟩ | ⟨_, hp', _⟩
    · exact ⟨hk0, rfl⟩
    · exact h.id_key k p hp'
  · intro n p hp
    rcases (h.addNode_name n p).1 hp with ⟨rfl, rfl, hn0⟩ | ⟨_, hp', _⟩
    · exact ⟨hn0, rfl⟩
    · exact h.name_key n p hp'
  · intro k p hp hne
    rw [h.addNode_name]
    rcases (h.addNode_id k p).1 hp with ⟨rfl, _, _⟩ | ⟨hpn, hp', hnot⟩
    · exact Or.inl ⟨rfl, rfl, hne⟩
    · exact Or.inr ⟨hpn, h.id_to_name k p hpn hp' hne, hnot⟩
  · intro n p hp hne
    rw [h.addNode_id]
    rcases (h.addNode_name n p).1 hp with ⟨rfl, _, _⟩ | ⟨hpn, hp', hnot⟩
    · exact Or.inl ⟨rfl, rfl, hne⟩
    · exact Or.inr ⟨hpn, h.name_to_id n p hpn hp' hne, hnot⟩

theorem IndexInv.addNode (h : IndexInv heap s) (node : NodePtr) :
    IndexInv heap (s.addNode heap node) :=
  (h.except node).addNode

theorem IndexInv.removeNode (h : IndexInv heap s) (q : NodePtr) :
    IndexInv heap (s.removeNode heap q) := by
  -- the node removed is in neither map afterwards, so it is the harmless exception
  refine ((h.except q).removeNode q).inv ?_ ?_
  · exact fun k hk => absurd rfl ((h.removeNode_id q k q).1 hk).2
  · exact fun n hn => absurd rfl ((h.removeNode_name q n q).1 hn).2

/-- `remove_node` by id removes the node with this id. -/
theorem IndexInv.removeNodeById_eq (h : IndexInv heap s) {k : Nat} {p : NodePtr}
    (hp : s.getNodeById k = some p) : s.removeNodeById heap k = s.removeNode heap p := by
  obtain ⟨hk0, hkey⟩ := h.id_key k p hp
  simp only [EtcdDiscoveryNode.id] at hkey
  simp only [EtcdDiscoverySet.getNodeById] at hp
  have hp' : s.nodeById.lookup (heap p).nodeInfo.id = some p := hkey ▸ hp
  simp [EtcdDiscoverySet.removeNodeById, EtcdDiscoverySet.removeNode, EtcdDiscoverySet.clearCache,
    hp, hp', hkey, hk0, eraseIfIs]

/-- `remove_node` by name removes the node with this name. -/
theorem IndexInv.removeNodeByName_eq (h : IndexInv heap s) {n : Bytes} {p : NodePtr}
    (hp : s.getNodeByName n = some p) : s.removeNodeByName heap n = s.removeNode heap p := by
  obtain ⟨hn0, hkey⟩ := h.name_key n p hp
  simp only [EtcdDiscoveryNode.name] at hkey
  simp only [EtcdDiscoverySet.getNodeByName] at hp
  have hp' : s.nodeByName.lookup (heap p).nodeInfo.name = some p := hkey ▸ hp
  simp [EtcdDiscoverySet.removeNodeByName, EtcdDiscoverySet.removeNode,
    EtcdDiscoverySet.clearCache, hp, hp', hkey, hn0, eraseIfIs]

/-- A live node is already filed under its keys, so adding it again displaces nothing. -/
theorem IndexInv.not_displaces_of_live (h : IndexInv heap s) (hl : s.Live node) (q : NodePtr) :
    ¬ s.Displaces heap node q := by
  rintro ⟨hqn, ⟨hid, hq⟩ | ⟨hname, hq⟩⟩
  · rcases hl with ⟨k, hk⟩ | ⟨n, hn⟩
    · rw [(h.id_key k node hk).2, hk] at hq
      exact hqn (Option.some.inj hq).symm
    · rw [h.name_to_id n node hn hid] at hq
      exact hqn (Option.some.inj hq).symm
  · rcases hl with ⟨k, hk⟩ | ⟨n, hn⟩
    · rw [h.id_to_name k node hk hname] at hq
      exact hqn (Option.some.inj hq).symm
    · rw [(h.name_key n node hn).2, hn] at hq
      exact hqn (Option.some.inj hq).symm

/-- Removing a node that is not live does nothing. -/
theorem EtcdDiscoverySet.removeNode_of_not_live (hl : ¬ s.Live node) :
    s.removeNode heap node = s := by
  have hid : ¬ s.nodeById.lookup (heap node).nodeInfo.id = some node := fun h => hl (Or.inl ⟨_, h⟩)
  have hname : ¬ s.nodeByName.lookup (heap node).nodeInfo.name = some node :=
    fun h => hl (Or.inr ⟨_, h⟩)
  simp [EtcdDiscoverySet.removeNode, eraseIfIs, hid, hname]

end Operations

end LibAtapp
