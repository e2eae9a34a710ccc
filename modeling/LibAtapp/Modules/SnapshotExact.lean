import LibAtapp.Modules.SnapshotEvents

set_option autoImplicit false

/-! # Exactness of snapshots

After a snapshot the discovery set should hold exactly the nodes of the snapshot. It does unless
one of two things happens. A node of the snapshot may have the id of one old node and the name of
another one, neither of which an earlier node of the snapshot replaced: then the old node is
overwritten in place and leaves the entry of its old name behind. Or an old node with an id that is
not in the snapshot may have a name that is: then its deletion at the end takes away the new node
of this name. The main result says that the set is exact if and only if neither happens. -/

namespace LibAtapp

namespace ServiceDiscoveryModule

variable {cfg : HashConfig} {codec : DiscoveryCodec} {order : HashMapOrder}
  {m : ServiceDiscoveryModule} {context : Nat} {event : NodeInfoT}

/-! ## When a Put rekeys a node in place -/

/-- One info in the set has the id of the node and another name, and another one has its name. -/
def Crosses (old : Set AtappDiscovery) (node : AtappDiscovery) : Prop :=
  ∃ a ∈ old, ∃ b ∈ old, a.id = node.id ∧ b.name = node.name ∧ a.name ≠ [] ∧ a.name ≠ node.name

/-- A Put with an id and a name that rekeys a node in place found it by its id, beside another node
    found by name. -/
theorem found_of_rekeysInPlace (h : IndexInv m.heap m.globalDiscovery)
    (hone : OneContext context m) (hctx : event.contextAddr = context)
    (hput : event.action = .put) (hid : event.nodeDiscovery.id ≠ 0)
    (hname : event.nodeDiscovery.name ≠ []) (hr : m.RekeysInPlace event) :
    ∃ p q, m.decision event = .overwrite p ∧ m.byId event.nodeDiscovery.id = some p ∧
      m.byName event.nodeDiscovery.name = some q ∧ (m.heap p).name ≠ [] ∧
      (m.heap p).name ≠ event.nodeDiscovery.name := by
  obtain ⟨p, hdec, hkeys⟩ := hr
  have hfound := (found_of_overwrite hdec).1
  -- a node found by both keys has them, so the lookups differ and neither is empty
  have hdiffer : m.byId event.nodeDiscovery.id ≠ m.byName event.nodeDiscovery.name := by
    intro heq
    have hp : m.byId event.nodeDiscovery.id = some p := hfound.elim id (fun hp => heq.trans hp)
    have hpid := (h.id_key _ p hp).2
    have hpname := (h.name_key _ p (heq ▸ hp)).2
    rcases hkeys with ⟨_, hne⟩ | ⟨_, hne⟩
    · exact hne hpid
    · exact hne hpname
  have hchoose : m.chooseNewInst event (m.byId event.nodeDiscovery.id)
      (m.byName event.nodeDiscovery.name) = some (some p) := by
    simp only [decision, if_neg hdiffer, hput] at hdec
    split at hdec
    · cases hdec
    · cases hdec
    · next q hq =>
      rw [hq, Decision.overwrite.inj hdec]
  cases hq : m.byName event.nodeDiscovery.name with
  | none => simp [chooseNewInst, hq, hname] at hchoose
  | some q =>
      cases hp : m.byId event.nodeDiscovery.id with
      | none => simp [chooseNewInst, hp, hid] at hchoose
      | some p' =>
          have hpid : (m.heap p').id = event.nodeDiscovery.id := (h.id_key _ p' hp).2
          have hne : (m.heap p').name ≠ event.nodeDiscovery.name := by
            intro heq
            have hp'' := (byName_iff h (Or.inl ⟨_, hp⟩) hname).2 heq
            exact hdiffer (hp.trans hp''.symm)
          -- its content differs from that of the event, so it is the node that is overwritten
          have hover : m.overwritable event p' = true := by
            have hcontent : AtappDiscovery.protobufEqual (m.heap p').nodeInfo
                event.nodeDiscovery = false := by
              rw [← Bool.not_eq_true]
              exact fun heq => hne (AtappDiscovery.protobufEqual_keys heq).2
            simp [overwritable, hcontent, sameContext_of_found hone hctx (Or.inl hp)]
          have hpp : p' = p := by
            simpa [chooseNewInst, hp, hq, hover] using hchoose
          subst hpp
          refine ⟨p', q, hdec, rfl, rfl, ?_, hne⟩
          rcases hkeys with ⟨_, hne'⟩ | ⟨h0, _⟩
          · exact absurd hpid hne'
          · exact h0

/-- **A Put rekeys a node in place exactly when it crosses two infos of the set.** -/
theorem rekeysInPlace_iff (h : IndexInv m.heap m.globalDiscovery)
    (hone : OneContext context m) (hctx : event.contextAddr = context)
    (hput : event.action = .put) (hid : event.nodeDiscovery.id ≠ 0)
    (hname : event.nodeDiscovery.name ≠ []) :
    m.RekeysInPlace event ↔ Crosses m.contents event.nodeDiscovery := by
  constructor
  · intro hr
    obtain ⟨p, q, _, hp, hq, h0, hne⟩ := found_of_rekeysInPlace h hone hctx hput hid hname hr
    exact ⟨_, ⟨p, Or.inl ⟨_, hp⟩, rfl⟩, _, ⟨q, Or.inr ⟨_, hq⟩, rfl⟩, (h.id_key _ p hp).2,
      (h.name_key _ q hq).2, h0, hne⟩
  · rintro ⟨a, ⟨p, hplive, hpa⟩, b, ⟨q, hqlive, hqb⟩, haid, hbname, h0, hne⟩
    subst hpa hqb
    have hp : m.byId event.nodeDiscovery.id = some p := (byId_iff h hplive hid).2 haid
    have hq : m.byName event.nodeDiscovery.name = some q := (byName_iff h hqlive hname).2 hbname
    have hpq : p ≠ q := fun heq => hne (by rw [heq]; exact hbname)
    have hover : m.overwritable event p = true := by
      have hcontent : AtappDiscovery.protobufEqual (m.heap p).nodeInfo
          event.nodeDiscovery = false := by
        rw [← Bool.not_eq_true]
        exact fun heq => hne (AtappDiscovery.protobufEqual_keys heq).2
      simp [overwritable, hcontent, sameContext_of_found hone hctx (Or.inl hp)]
    refine ⟨p, ?_, Or.inr ⟨h0, hne⟩⟩
    simp [decision, hput, hp, hq, hpq, chooseNewInst, hover]

/-! ## The condition on a snapshot -/

/-- The nodes of a snapshot have an id and a name, and no two of them share one. -/
structure DistinctNodes (nodes : List AtappDiscovery) : Prop where
  keys : ∀ node ∈ nodes, node.id ≠ 0 ∧ node.name ≠ []
  distinct : nodes.Pairwise (fun a b => a.id ≠ b.id ∧ a.name ≠ b.name)

/-- **The condition.** No node of the snapshot crosses two old infos that no earlier node of the
    snapshot has a key of, and no old info with an id that is missing from the snapshot has a name
    of the snapshot. -/
structure Mergeable (old : Set AtappDiscovery) (nodes : List AtappDiscovery) : Prop where
  no_crossing : ∀ before node after, nodes = before ++ node :: after → ∀ a ∈ old, ∀ b ∈ old,
    a.id = node.id → b.name = node.name → a.name ≠ [] → a.name ≠ node.name →
      ∃ earlier ∈ before, a.SharesKey earlier ∨ b.SharesKey earlier
  no_taken_name : ∀ a ∈ old, a.id ≠ 0 → (∀ node ∈ nodes, node.id ≠ a.id) →
    ∀ node ∈ nodes, node.name ≠ a.name

theorem DistinctNodes.not_sharesKey {nodes : List AtappDiscovery} (h : DistinctNodes nodes) :
    (nodes.map AtappDiscovery.canonical).Pairwise (fun a b => ¬ a.SharesKey b) := by
  rw [List.pairwise_map]
  refine h.distinct.imp ?_
  intro a b ⟨hid, hname⟩ hshares
  rcases hshares with ⟨_, heq⟩ | ⟨_, heq⟩
  · exact hid heq
  · exact hname heq

theorem DistinctNodes.of_append {front back : List AtappDiscovery}
    (h : DistinctNodes (front ++ back)) : DistinctNodes front where
  keys := fun node hnode => h.keys node (List.mem_append_left _ hnode)
  distinct := (List.pairwise_append.1 h.distinct).1

/-- Crossing two infos of the set that earlier nodes of a snapshot left, told of the set before. -/
theorem crosses_putAll_iff {old : Set AtappDiscovery} {before after : List AtappDiscovery}
    {node : AtappDiscovery} (h : DistinctNodes (before ++ node :: after)) :
    Crosses (KeyedSet.putAll AtappDiscovery.SharesKey old (before.map AtappDiscovery.canonical))
        node ↔
      ∃ a ∈ old, ∃ b ∈ old, a.id = node.id ∧ b.name = node.name ∧ a.name ≠ [] ∧
        a.name ≠ node.name ∧ ∀ earlier ∈ before, ¬ (a.SharesKey earlier ∨ b.SharesKey earlier) := by
  have hmem : ∀ y, y ∈ KeyedSet.putAll AtappDiscovery.SharesKey old
      (before.map AtappDiscovery.canonical) ↔ y ∈ before.map AtappDiscovery.canonical ∨
        (y ∈ old ∧ ∀ earlier ∈ before, ¬ y.SharesKey earlier) := by
    intro y
    rw [KeyedSet.mem_putAll h.of_append.not_sharesKey]
    simp
  -- the infos it crosses are none of the earlier nodes, which have other keys
  have hearlier : ∀ earlier ∈ before, earlier.id ≠ node.id ∧ earlier.name ≠ node.name :=
    fun earlier he =>
      (List.pairwise_append.1 h.distinct).2.2 earlier he node List.mem_cons_self
  constructor
  · rintro ⟨a, ha, b, hb, haid, hbname, h0, hne⟩
    have ha' := ((hmem a).1 ha).resolve_left (fun hin => by
      obtain ⟨earlier, he, heq⟩ := List.mem_map.1 hin
      exact (hearlier earlier he).1 ((congrArg AtappDiscovery.id heq).trans haid))
    have hb' := ((hmem b).1 hb).resolve_left (fun hin => by
      obtain ⟨earlier, he, heq⟩ := List.mem_map.1 hin
      exact (hearlier earlier he).2 ((congrArg AtappDiscovery.name heq).trans hbname))
    exact ⟨a, ha'.1, b, hb'.1, haid, hbname, h0, hne,
      fun earlier he => not_or.2 ⟨ha'.2 earlier he, hb'.2 earlier he⟩⟩
  · rintro ⟨a, ha, b, hb, haid, hbname, h0, hne, hclear⟩
    exact ⟨a, (hmem a).2 (Or.inr ⟨ha, fun earlier he => (not_or.1 (hclear earlier he)).1⟩),
      b, (hmem b).2 (Or.inr ⟨hb, fun earlier he => (not_or.1 (hclear earlier he)).2⟩),
      haid, hbname, h0, hne⟩

/-! ## The set after a snapshot -/

/-- The module after the three steps of a snapshot. -/
def mergeSnapshot (cfg : HashConfig) (order : HashMapOrder) (context : Nat)
    (m : ServiceDiscoveryModule) (inputs : List (NodeInfoT × EtcdDataVersion)) :
    ServiceDiscoveryModule :=
  let nodes := inputs.map (fun input => input.1.nodeDiscovery)
  (leftOver order (nodes.foldl OldNodes.removeIndex (m.collectOldNodes cfg).2)).foldl
    (cleanupOldNode cfg context) (Run.run (step cfg) (m.collectOldNodes cfg).1 inputs)

variable {inputs : List (NodeInfoT × EtcdDataVersion)}

/-- Every info of the set that has no key of the snapshot is that of a left-over node. -/
theorem exists_leftOver (hv : Valid cfg m) {nodes : List AtappDiscovery} {old : AtappDiscovery}
    (hmem : old ∈ m.contents) (hclear : ∀ node ∈ nodes, ¬ old.SharesKey node) :
    ∃ p ∈ leftOver order (nodes.foldl OldNodes.removeIndex (m.collectOldNodes cfg).2),
      (m.heap p).nodeInfo.canonical = old := by
  have hkeyed := keyed_of_mem_contents hv.index hmem
  obtain ⟨p, hlive, hp⟩ := hmem
  refine ⟨p, (mem_leftOver_collected hv nodes).2 ⟨hlive, ?_⟩, hp⟩
  subst hp
  by_cases hid : (m.heap p).nodeInfo.id = 0
  · have h0 : (m.heap p).nodeInfo.name ≠ [] := hkeyed.resolve_left (fun h => h hid)
    exact Or.inr ⟨hid, h0, fun node hnode heq => hclear node hnode (Or.inr ⟨h0, heq.symm⟩)⟩
  · exact Or.inl ⟨hid, fun node hnode heq => hclear node hnode (Or.inl ⟨hid, heq.symm⟩)⟩

/-- When no Put of the snapshot rekeys a node in place, the set is exact if and only if no
    left-over node has a name of the snapshot. -/
theorem mergeSnapshot_of_stepsMeet (hv : Valid cfg m) (hone : OneContext context m)
    (hputs : Puts context inputs)
    (hdistinct : DistinctNodes (inputs.map (fun input => input.1.nodeDiscovery)))
    (hr : Run.StepsMeet (step cfg) (fun m input => ¬ m.RekeysInPlace input.1)
      (m.collectOldNodes cfg).1 inputs) :
    (mergeSnapshot cfg order context m inputs).HoldsExactly
        (inputs.map (fun input => input.1.nodeDiscovery)) ↔
      ∀ a ∈ m.contents, a.id ≠ 0 →
        (∀ node ∈ inputs.map (fun input => input.1.nodeDiscovery), node.id ≠ a.id) →
        ∀ node ∈ inputs.map (fun input => input.1.nodeDiscovery), node.name ≠ a.name := by
  obtain ⟨hv1, hone1, hcontents1, hheap1, hnext1⟩ := collectOldNodes_module hv hone
  obtain ⟨hv2, hone2, hcontents2, hkept⟩ := run_puts hv1 hone1 hputs hr
  have hleft := fun p => @mem_leftOver_collected cfg order m hv
    (inputs.map (fun input => input.1.nodeDiscovery)) p
  have hcover := fun old => @exists_leftOver cfg order m hv
    (inputs.map (fun input => input.1.nodeDiscovery)) old
  simp only [mergeSnapshot]
  generalize inputs.map (fun input => input.1.nodeDiscovery) = nodes at *
  generalize leftOver order (nodes.foldl OldNodes.removeIndex (m.collectOldNodes cfg).2) = left
    at hleft hcover ⊢
  -- the left-over nodes still have their content and their context
  have hsame : ∀ p ∈ left, m.heap.SameContent
      (Run.run (step cfg) (m.collectOldNodes cfg).1 inputs).heap p := by
    intro p hp
    obtain ⟨hlive, hun⟩ := (hleft p).1 hp
    rw [hheap1] at hkept
    exact hkept p (hnext1 ▸ hv.allocated p hlive) hun
  have hcontext : ∀ p ∈ left, ((Run.run (step cfg) (m.collectOldNodes cfg).1 inputs).heap
      p).contextAddr = context := by
    intro p hp
    rw [(hsame p hp).context]
    exact hone p ((hleft p).1 hp).1
  obtain ⟨hv3, hcontents3⟩ := run_cleanup hv2 hone2 hcontext
  have hinfos : left.map (fun p => ((Run.run (step cfg) (m.collectOldNodes cfg).1 inputs).heap
      p).nodeInfo) = left.map (fun p => (m.heap p).nodeInfo) :=
    List.map_congr_left (fun p hp => (hsame p hp).info)
  rw [holdsExactly_iff hv3.index (fun node hnode => Or.inl (hdistinct.keys node hnode).1),
    hcontents3, hcontents2, hcontents1, hinfos,
    KeyedSet.removeAll_putAll_eq_iff hdistinct.not_sharesKey]
  · constructor
    · intro hno a ha h0 hmissing node hnode hname
      obtain ⟨p, hp, hpa⟩ : ∃ p ∈ left, (m.heap p).nodeInfo.canonical = a := by
        obtain ⟨p, hlive, hpa⟩ := ha
        subst hpa
        exact ⟨p, (hleft p).2 ⟨hlive, Or.inl ⟨h0, hmissing⟩⟩, rfl⟩
      subst hpa
      exact hno _ (List.mem_map_of_mem hnode) _ (List.mem_map_of_mem hp)
        (Or.inr ⟨(hdistinct.keys node hnode).2, hname⟩)
    · intro hno x hx y hy hshares
      obtain ⟨node, hnode, hxn⟩ := List.mem_map.1 hx
      obtain ⟨p, hp, hyp⟩ := List.mem_map.1 hy
      subst hxn hyp
      obtain ⟨hlive, hun⟩ := (hleft p).1 hp
      have hmem : (m.heap p).nodeInfo.canonical ∈ m.contents := ⟨p, hlive, rfl⟩
      rcases hshares with ⟨h0, heq⟩ | ⟨h0, heq⟩
      · rcases hun with ⟨_, hmissing⟩ | ⟨hzero, _⟩
        · exact hmissing node hnode heq
        · exact h0 (heq.trans hzero)
      · rcases hun with ⟨hne, hmissing⟩ | ⟨_, _, hmissing⟩
        · exact hno _ hmem hne hmissing node hnode heq
        · exact hmissing node hnode heq
  · intro y hy hclear
    obtain ⟨p, hp, hpy⟩ := hcover y hy (fun node hnode hshares =>
      hclear _ (List.mem_map_of_mem hnode) hshares)
    refine ⟨_, List.mem_map_of_mem hp, ?_⟩
    subst hpy
    exact AtappDiscovery.sharesKey_self.2 (keyed_of_mem_contents hv.index hy)

/-- The cleanup does not mend a spoiled set. -/
theorem spoiled_cleanup {node : AtappDiscovery} {name : Bytes} {c : Nat}
    (h : Spoiled c node name m) (h0 : node.id ≠ 0) (hne : name ≠ node.name)
    (left : List NodePtr) :
    Spoiled c node name (left.foldl (cleanupOldNode cfg context) m) := by
  induction left generalizing m with
  | nil => exact h
  | cons p left ih =>
      refine ih ?_
      unfold cleanupOldNode
      split
      · exact h
      · exact spoiled_delete h rfl h0 hne _

/-- Puts with other keys do not mend a spoiled set. -/
theorem spoiled_run_puts {node : AtappDiscovery} {name : Bytes}
    (h : Spoiled context node name m) (h0 : node.id ≠ 0) (hname0 : name ≠ [])
    (hputs : Puts context inputs)
    (hother : ∀ input ∈ inputs, input.1.nodeDiscovery.id ≠ node.id ∧
      input.1.nodeDiscovery.name ≠ node.name) :
    Spoiled context node name (Run.run (step cfg) m inputs) := by
  induction inputs generalizing m with
  | nil => exact h
  | cons input inputs ih =>
      obtain ⟨hctx, hput, _⟩ := hputs input List.mem_cons_self
      obtain ⟨hid, hname⟩ := hother input List.mem_cons_self
      exact ih (spoiled_put h hctx hput hid hname h0 hname0 input.2)
        (fun i hi => hputs i (List.mem_cons_of_mem _ hi))
        (fun i hi => hother i (List.mem_cons_of_mem _ hi))

/-- When a Put of the snapshot rekeys a node in place, the set is not exact, and the Put crosses two
    old infos. -/
theorem mergeSnapshot_of_not_stepsMeet (order : HashMapOrder) (hv : Valid cfg m)
    (hone : OneContext context m) (hputs : Puts context inputs)
    (hdistinct : DistinctNodes (inputs.map (fun input => input.1.nodeDiscovery)))
    (hr : ¬ Run.StepsMeet (step cfg) (fun m input => ¬ m.RekeysInPlace input.1)
      (m.collectOldNodes cfg).1 inputs) :
    ¬ (mergeSnapshot cfg order context m inputs).HoldsExactly
        (inputs.map (fun input => input.1.nodeDiscovery)) ∧
      ¬ Mergeable m.contents (inputs.map (fun input => input.1.nodeDiscovery)) := by
  obtain ⟨hv1, hone1, hcontents1, _⟩ := collectOldNodes_module hv hone
  obtain ⟨front, input, back, heq, hfront, hrekey⟩ :=
    Run.exists_first_of_not_stepsMeet (step cfg) hr
  rw [not_not] at hrekey
  have hnodes : inputs.map (fun input => input.1.nodeDiscovery) =
      front.map (fun input => input.1.nodeDiscovery) ++
        input.1.nodeDiscovery :: back.map (fun input => input.1.nodeDiscovery) := by
    rw [heq, List.map_append, List.map_cons]
  have hin : input ∈ inputs := heq ▸ List.mem_append_right _ List.mem_cons_self
  obtain ⟨hctx, hput, hid, hname⟩ := hputs input hin
  obtain ⟨hv2, hone2, hcontents2, _⟩ := run_puts hv1 hone1
    (fun i hi => hputs i (heq ▸ List.mem_append_left _ hi)) hfront
  rw [hnodes] at hdistinct ⊢
  constructor
  · obtain ⟨p, _, hdec, hp, _, h0, hne⟩ :=
      found_of_rekeysInPlace hv2.index hone2 hctx hput hid hname hrekey
    have hspoiled := @spoiled_of_overwrite cfg _ _ _ hv2.index hdec hp h0 hne input.2
    rw [hctx] at hspoiled
    have hother : ∀ i ∈ back, i.1.nodeDiscovery.id ≠ input.1.nodeDiscovery.id ∧
        i.1.nodeDiscovery.name ≠ input.1.nodeDiscovery.name := by
      intro i hi
      have hpair := (List.pairwise_cons.1 (List.pairwise_append.1 hdistinct.distinct).2.1).1
        _ (List.mem_map_of_mem hi)
      exact ⟨hpair.1.symm, hpair.2.symm⟩
    have hlater : Spoiled context input.1.nodeDiscovery
        ((Run.run (step cfg) (m.collectOldNodes cfg).1 front).heap p).name
        (Run.run (step cfg) (m.collectOldNodes cfg).1 inputs) := by
      rw [heq, Run.run_append, Run.run_cons]
      exact spoiled_run_puts hspoiled hid h0
        (fun i hi => hputs i (heq ▸ List.mem_append_right _ (List.mem_cons_of_mem _ hi))) hother
    exact (spoiled_cleanup hlater hid hne _).not_holdsExactly
      (List.mem_append_right _ List.mem_cons_self) hne h0
  · intro hmergeable
    have hcrosses := (rekeysInPlace_iff hv2.index hone2 hctx hput hid hname).1 hrekey
    rw [hcontents2, hcontents1] at hcrosses
    obtain ⟨a, ha, b, hb, haid, hbname, h0, hne, hclear⟩ :=
      (crosses_putAll_iff hdistinct).1 hcrosses
    obtain ⟨earlier, he, hshares⟩ :=
      hmergeable.no_crossing _ _ _ rfl a ha b hb haid hbname h0 hne
    exact hclear earlier he hshares

/-- **A snapshot is stored exactly if and only if it is mergeable.** -/
theorem mergeSnapshot_holdsExactly_iff (hv : Valid cfg m) (hone : OneContext context m)
    (hputs : Puts context inputs)
    (hdistinct : DistinctNodes (inputs.map (fun input => input.1.nodeDiscovery))) :
    (mergeSnapshot cfg order context m inputs).HoldsExactly
        (inputs.map (fun input => input.1.nodeDiscovery)) ↔
      Mergeable m.contents (inputs.map (fun input => input.1.nodeDiscovery)) := by
  by_cases hr : Run.StepsMeet (step cfg) (fun m input => ¬ m.RekeysInPlace input.1)
      (m.collectOldNodes cfg).1 inputs
  · rw [mergeSnapshot_of_stepsMeet hv hone hputs hdistinct hr]
    refine ⟨fun hno => ⟨?_, hno⟩, fun h => h.no_taken_name⟩
    intro before node after heq a ha b hb haid hbname h0 hne
    by_contra hclear
    -- no Put rekeys a node in place, so none crosses two infos
    obtain ⟨front, rest, hinputs, hfront, hrest⟩ := List.map_eq_append_iff.1 heq
    obtain ⟨input, back, hrest', hinput, hback⟩ := List.map_eq_cons_iff.1 hrest
    subst hrest' hfront hinput
    rw [hinputs] at hr hputs hdistinct
    obtain ⟨hv1, hone1, hcontents1, _⟩ := collectOldNodes_module hv hone
    obtain ⟨hfrontmeet, hnot⟩ := hr.at_split
    obtain ⟨hctx, hput, hid, hname⟩ :=
      hputs input (List.mem_append_right _ List.mem_cons_self)
    obtain ⟨hv2, hone2, hcontents2, _⟩ := run_puts hv1 hone1
      (fun i hi => hputs i (List.mem_append_left _ hi)) hfrontmeet
    refine hnot ((rekeysInPlace_iff hv2.index hone2 hctx hput hid hname).2 ?_)
    rw [List.map_append, List.map_cons] at hdistinct
    rw [hcontents2, hcontents1, crosses_putAll_iff hdistinct]
    exact ⟨a, ha, b, hb, haid, hbname, h0, hne, fun earlier he hshares =>
      hclear ⟨earlier, he, hshares⟩⟩
  · obtain ⟨hnot, hnot'⟩ :=
      mergeSnapshot_of_not_stepsMeet order hv hone hputs hdistinct hr
    exact ⟨fun h => absurd h hnot, fun h => absurd h hnot'⟩

end ServiceDiscoveryModule

/-! ## The callback -/

namespace DiscoveryWatcherState

open ServiceDiscoveryModule

variable {cfg : HashConfig} {codec : DiscoveryCodec} {order : HashMapOrder}
  {st : DiscoveryWatcherState}

/-- The election leaves the module and the context's address. -/
theorem electSnapshot_frame (st : DiscoveryWatcherState) (snapshot : Bool) :
    (st.electSnapshot snapshot).1.mod = st.mod ∧
      (st.electSnapshot snapshot).1.ctx.addr = st.ctx.addr := by
  unfold electSnapshot insertSnapshotIndex
  split
  · split <;> exact ⟨rfl, rfl⟩
  · exact ⟨rfl, rfl⟩

/-- The election does not look at the header. -/
theorem electSnapshot_header (header : EtcdResponseHeader) (snapshot : Bool) :
    ({ st with ctx := { st.ctx with lastEtcdEventDiscoveryHeader := header } }.electSnapshot
      snapshot).2 = (st.electSnapshot snapshot).2 := by
  unfold electSnapshot insertSnapshotIndex otherFirst
  simp only
  split
  · split <;> rfl
  · rfl

/-- The watcher that loads the snapshots merges one in three steps. -/
theorem handleResponse_mod (header : EtcdResponseHeader) {body : WatchResponse}
    (helected : (st.electSnapshot body.snapshot).2 = true) :
    (st.handleResponse cfg codec order header body).mod =
      mergeSnapshot cfg order st.ctx.addr st.mod
        (decodedEvents codec st.ctx.addr body.events) := by
  rw [← electSnapshot_header header] at helected
  obtain ⟨hmod, haddr⟩ := electSnapshot_frame
    { st with ctx := { st.ctx with lastEtcdEventDiscoveryHeader := header } } body.snapshot
  simp only [handleResponse, helected, if_true, hmod, haddr]
  rw [foldl_handleEvent, cleanupOldNodes_eq]
  rfl

/-- **Exactness of snapshots.** Of every discovery set that any events and queries reach, with
    indexes that agree and all nodes in one context, and for every snapshot of distinct nodes that
    the elected watcher of the context handles: afterwards the set holds exactly the nodes of the
    snapshot if and only if the snapshot is mergeable. -/
theorem handleResponse_holdsExactly_iff (cfg : HashConfig) (codec : DiscoveryCodec)
    (order : HashMapOrder) (calls : List ModuleCall) (st : DiscoveryWatcherState)
    (hreach : st.mod = Run.run (call cfg) {} calls)
    (hindex : IndexInv st.mod.heap st.mod.globalDiscovery)
    (hone : OneContext st.ctx.addr st.mod) (header : EtcdResponseHeader) (body : WatchResponse)
    (helected : (st.electSnapshot body.snapshot).2 = true)
    (hput : ∀ evtData ∈ body.events, evtData.evtType = .put)
    (hdistinct : DistinctNodes (responseNodes codec st.ctx.addr body.events)) :
    (st.handleResponse cfg codec order header body).mod.HoldsExactly
        (responseNodes codec st.ctx.addr body.events) ↔
      Mergeable st.mod.contents (responseNodes codec st.ctx.addr body.events) := by
  have hsound : Sound cfg st.mod := hreach ▸ sound_run cfg calls
  rw [handleResponse_mod header helected]
  refine mergeSnapshot_holdsExactly_iff (hsound.valid hindex) hone (fun input hinput => ?_)
    hdistinct
  obtain ⟨hctx, _, haction⟩ := mem_decodedEvents hinput
  obtain ⟨hid, hname⟩ := hdistinct.keys _ (List.mem_map_of_mem hinput)
  exact ⟨hctx, haction hput, hid, hname⟩

/-! ## Snapshots of two servers -/

/-- The maps are walked in the order of their entries. -/
def entryOrder : HashMapOrder where
  names map := map.entries.map Sigma.snd
  ids map := map.entries.map Sigma.snd
  names_perm _ := List.Perm.refl _
  ids_perm _ := List.Perm.refl _

/-- The servers `a` with id 1 and `b` with id 2 are registered in context 5. -/
def twoServers : List (NodeInfoT × EtcdDataVersion) :=
  [({ nodeDiscovery := { id := 1, name := ascii "a" }, contextAddr := 5 }, {}),
    ({ nodeDiscovery := { id := 2, name := ascii "b" }, contextAddr := 5 }, {})]

/-- The elected watcher of context 5 after events. -/
def watcherAfter (inputs : List (NodeInfoT × EtcdDataVersion)) : DiscoveryWatcherState where
  mod := Run.run (step DiscoveryState.seedConfig) {} inputs
  ctx := { addr := 5 }
  wrapper := { snapshotIndex := 1 }

/-- A snapshot response with the infos. -/
def snapshotOf (nodes : List AtappDiscovery) : WatchResponse where
  snapshot := true
  events := nodes.map (fun node =>
    { kv := { key := ascii "/by_id/" ++ decimal node.id, value := jsonText node } })

/-- The servers exchange their names. -/
def exchangedNames : List AtappDiscovery :=
  [{ id := 1, name := ascii "b" }, { id := 2, name := ascii "a" }]

/-- Server 2 keeps its name, and a third server replaces the first one. -/
def thirdServer : List AtappDiscovery :=
  [{ id := 2, name := ascii "b" }, { id := 3, name := ascii "c" }]

/-- What `twoServers` leaves is valid, and all in context 5. -/
theorem twoServers_valid : Valid DiscoveryState.seedConfig (watcherAfter twoServers).mod ∧
    OneContext 5 (watcherAfter twoServers).mod := by
  have hempty : OneContext 5 {} := by
    intro p hlive
    rcases hlive with ⟨k, hk⟩ | ⟨n, hn⟩
    · simp [EtcdDiscoverySet.getNodeById] at hk
    · simp [EtcdDiscoverySet.getNodeByName] at hn
  have hputs : Puts 5 twoServers := by
    unfold Puts
    decide
  have hmeet : Run.StepsMeet (step DiscoveryState.seedConfig)
      (fun m input => ¬ m.RekeysInPlace input.1) {} twoServers := by decide +kernel
  obtain ⟨hv, hone, _⟩ := run_puts (valid_empty _) hempty hputs hmeet
  exact ⟨hv, hone⟩

/-- The result at a snapshot that replaces the first server. -/
theorem handleResponse_thirdServer :
    ((watcherAfter twoServers).handleResponse DiscoveryState.seedConfig (tableCodec thirdServer)
        entryOrder {} (snapshotOf thirdServer)).mod.HoldsExactly
        (responseNodes (tableCodec thirdServer) 5 (snapshotOf thirdServer).events) ↔
      Mergeable (watcherAfter twoServers).mod.contents
        (responseNodes (tableCodec thirdServer) 5 (snapshotOf thirdServer).events) :=
  handleResponse_holdsExactly_iff _ _ _
    (twoServers.map (fun input => ModuleCall.event input.1 input.2)) (watcherAfter twoServers) rfl
    twoServers_valid.1.index twoServers_valid.2 {} (snapshotOf thirdServer) (by decide +kernel)
    (by decide) ⟨by decide +kernel, by decide +kernel⟩

/-- After two servers exchanged their names, the snapshot leaves only one of them. -/
theorem handleResponse_exchangedNames :
    ¬ ∀ (cfg : HashConfig) (codec : DiscoveryCodec) (order : HashMapOrder)
      (calls : List ModuleCall) (st : DiscoveryWatcherState) (header : EtcdResponseHeader)
      (body : WatchResponse), st.mod = Run.run (call cfg) {} calls →
      OneContext st.ctx.addr st.mod → (st.electSnapshot body.snapshot).2 = true →
      (∀ evtData ∈ body.events, evtData.evtType = .put) →
      DistinctNodes (responseNodes codec st.ctx.addr body.events) →
      (st.handleResponse cfg codec order header body).mod.HoldsExactly
        (responseNodes codec st.ctx.addr body.events) := by
  intro h
  have hexact := h DiscoveryState.seedConfig (tableCodec exchangedNames) entryOrder
    (twoServers.map (fun input => ModuleCall.event input.1 input.2)) (watcherAfter twoServers) {}
    (snapshotOf exchangedNames) rfl twoServers_valid.2 (by decide +kernel) (by decide)
    ⟨by decide +kernel, by decide +kernel⟩
  obtain ⟨_, p, hid, _⟩ := hexact.holds { id := 1, name := ascii "b" } (by decide +kernel)
  have hnone : ((watcherAfter twoServers).handleResponse DiscoveryState.seedConfig
      (tableCodec exchangedNames) entryOrder {} (snapshotOf exchangedNames)).mod.byId 1 = none := by
    decide +kernel
  rw [hid (by decide)] at hnone
  cases hnone

end DiscoveryWatcherState

end LibAtapp
