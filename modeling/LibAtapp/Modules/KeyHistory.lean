import LibAtapp.Modules.DiscoveryWatcher
import LibAtapp.Modules.HeldNodes
import LibAtapp.Modules.KeyPaths

set_option autoImplicit false

/-! # The discovery set and the live keys

A watcher hands the changes of the keys in a directory to the discovery set: a Put carries the node
of the key, a Delete only the key, from which an id and a name are read. The set should hold the
nodes of the live keys. The handler looks nodes up by id and by name and does not know the key a
node came from, so a Delete of one key also removes the node of another live key that has the same
id or the same name. The main result is that the set follows the live keys in every run in which no
Delete meets such a key. -/

namespace LibAtapp

/-! ## Histories of keys -/

/-- A change of the key of an app. The key and value hold the revisions and, of a Put, the value. -/
inductive KeyEvent where
  | put (app : App) (kv : EtcdKeyValue)
  | delete (app : App) (kv : EtcdKeyValue)

/-- What a watcher watches, and how it decodes values. -/
structure WatchedDirectory where
  codec : DiscoveryCodec
  contextAddr : Nat
  dir : KeyDir
  path : Bytes

/-- The live keys with the nodes that they carry. -/
abbrev LiveKeys := AList (fun _ : Bytes => AtappDiscovery)

/-- The discovery module and the live keys. -/
structure KeyHistory where
  module : ServiceDiscoveryModule := {}
  live : LiveKeys := ∅

namespace WatchedDirectory

variable (w : WatchedDirectory)

/-- The key of an app. -/
def key (app : App) : Bytes := ServiceDiscoveryModule.keyPath w.dir app w.path

/-- The event that the watcher receives. A Delete carries no value. -/
def watchEvent : KeyEvent → WatchEvent
  | .put app kv => { evtType := .put, kv := { kv with key := w.key app } }
  | .delete app kv => { evtType := .delete, kv := { kv with key := w.key app, value := [] } }

/-- The node that is decoded from an event. -/
def decoded (event : KeyEvent) : AtappDiscovery :=
  (ServiceDiscoveryModule.decodeEvent w.codec w.contextAddr
    (w.watchEvent event)).1.nodeDiscovery

/-- A Put carries the id and the name of its app. -/
def CarriesApp (event : KeyEvent) : Prop :=
  match event with
  | .put app _ => (w.decoded event).id = app.id ∧ (w.decoded event).name = app.appName
  | .delete _ _ => True

instance : ∀ event, Decidable (w.CarriesApp event)
  | .put _ _ => inferInstanceAs (Decidable (_ ∧ _))
  | .delete _ _ => inferInstanceAs (Decidable True)

end WatchedDirectory

namespace KeyHistory

variable (cfg : HashConfig) (w : WatchedDirectory)

/-- One event: the discovery module handles it, and the live keys change. -/
def step (st : KeyHistory) (event : KeyEvent) : KeyHistory where
  module := (ServiceDiscoveryModule.handleEvent cfg w.codec w.contextAddr false (st.module, {})
    (w.watchEvent event)).1
  live :=
    match event with
    | .put app _ => st.live.insert (w.key app) (w.decoded event)
    | .delete app _ => st.live.erase (w.key app)

/-- No two live keys share an id or a name. -/
def NoOverlap (live : LiveKeys) : Prop :=
  ∀ a ∈ live.entries, ∀ b ∈ live.entries, a.2.SharesKey b.2 → a.1 = b.1

instance (live : LiveKeys) : Decidable (NoOverlap live) :=
  inferInstanceAs (Decidable (∀ a ∈ live.entries, ∀ b ∈ live.entries, _))

/-- **The condition on an event.** A Put carries an id or a name. Of the live keys exactly the
    deleted one shares an id or a name with what is decoded from a Delete, and no other one shares
    the id or the name of the deleted key's app. -/
def MeetsOwnKey (st : KeyHistory) (event : KeyEvent) : Prop :=
  match event with
  | .put _ _ => (w.decoded event).Keyed
  | .delete app _ => ∀ a ∈ st.live.entries,
    (a.2.SharesKey (w.decoded event) ↔ a.1 = w.key app) ∧
      (a.2.SharesKey { id := app.id, name := app.appName } → a.1 = w.key app)

instance (st : KeyHistory) : ∀ event, Decidable (MeetsOwnKey w st event)
  | .put _ _ => inferInstanceAs (Decidable (AtappDiscovery.Keyed _))
  | .delete _ _ => inferInstanceAs (Decidable (∀ a ∈ st.live.entries, _))

/-! ## The live keys as a registry -/

variable {cfg} {w}

/-- The infos of the live keys, with field presence forgotten. -/
def registry (live : LiveKeys) (k : Bytes) : Option AtappDiscovery :=
  (live.lookup k).map AtappDiscovery.canonical

theorem registry_insert (live : LiveKeys) (k : Bytes) (node : AtappDiscovery) :
    registry (live.insert k node) = Function.update (registry live) k (some node.canonical) := by
  funext k'
  by_cases h : k' = k
  · subst h
    simp [registry]
  · rw [Function.update_of_ne h, registry, registry, AList.lookup_insert_ne h]

theorem registry_erase (live : LiveKeys) (k : Bytes) :
    registry (live.erase k) = Function.update (registry live) k none := by
  funext k'
  by_cases h : k' = k
  · subst h
    simp [registry]
  · rw [Function.update_of_ne h, registry, registry, AList.lookup_erase_ne h]

theorem mem_image_registry {live : LiveKeys} {node : AtappDiscovery} :
    node ∈ KeyedSet.image (registry live) ↔
      node ∈ (live.entries.map Sigma.snd).map AtappDiscovery.canonical := by
  simp only [KeyedSet.image, registry, Set.mem_ofPred_eq, Option.map_eq_some_iff, List.mem_map]
  constructor
  · rintro ⟨k, x, hx, heq⟩
    exact ⟨x, ⟨⟨k, x⟩, AList.mem_lookup_iff.1 hx, rfl⟩, heq⟩
  · rintro ⟨x, ⟨entry, hentry, hx⟩, heq⟩
    subst hx
    exact ⟨entry.1, entry.2, AList.mem_lookup_iff.2 hentry, heq⟩

/-! ## The invariant -/

/-- Every live key carries the id and the name of its app, and where no two of them overlap, the
    set holds exactly their nodes. -/
structure Follows (cfg : HashConfig) (w : WatchedDirectory) (st : KeyHistory) : Prop where
  carries : ∀ k node, st.live.lookup k = some node →
    node.Keyed ∧ ∃ app, k = w.key app ∧ node.id = app.id ∧ node.name = app.appName
  synced : NoOverlap st.live →
    ServiceDiscoveryModule.Valid cfg st.module ∧
      ServiceDiscoveryModule.OneContext w.contextAddr st.module ∧
      st.module.contents = KeyedSet.image (registry st.live)

theorem Follows.holdsExactly {st : KeyHistory} (h : Follows cfg w st) (hno : NoOverlap st.live) :
    st.module.HoldsExactly (st.live.entries.map Sigma.snd) := by
  obtain ⟨hv, _, hcontents⟩ := h.synced hno
  refine (ServiceDiscoveryModule.holdsExactly_iff hv.index (fun node hnode => ?_)).2 ?_
  · obtain ⟨entry, hentry, heq⟩ := List.mem_map.1 hnode
    subst heq
    exact (h.carries entry.1 entry.2 (AList.mem_lookup_iff.2 hentry)).1
  · rw [hcontents]
    ext node
    exact mem_image_registry

theorem follows_empty : Follows cfg w {} where
  carries := fun k node hk => by simp at hk
  synced := fun _ => by
    have hv := ServiceDiscoveryModule.valid_empty cfg
    have hnone : ∀ p, ¬ (EtcdDiscoverySet.Live {} p) := by
      intro p hlive
      rcases hlive with ⟨k, hk⟩ | ⟨n, hn⟩
      · simp [EtcdDiscoverySet.getNodeById] at hk
      · simp [EtcdDiscoverySet.getNodeByName] at hn
    refine ⟨hv, fun p hp => absurd hp (hnone p), ?_⟩
    ext node
    constructor
    · rintro ⟨p, hp, _⟩
      exact absurd hp (hnone p)
    · rintro ⟨k, hk⟩
      simp [registry] at hk

/-- The module after an event: skipped without a key, else merged. -/
theorem step_module (st : KeyHistory) (event : KeyEvent) :
    (st.step cfg w event).module =
      if (w.decoded event).Keyed then
        st.module.step cfg
          (ServiceDiscoveryModule.decodeEvent w.codec w.contextAddr (w.watchEvent event))
      else st.module := by
  simp only [step, ServiceDiscoveryModule.handleEvent, WatchedDirectory.decoded,
    AtappDiscovery.Keyed]
  by_cases hid : (ServiceDiscoveryModule.decodeEvent w.codec w.contextAddr
      (w.watchEvent event)).1.nodeDiscovery.id = 0 <;>
    by_cases hname : (ServiceDiscoveryModule.decodeEvent w.codec w.contextAddr
      (w.watchEvent event)).1.nodeDiscovery.name = [] <;> simp [hid, hname]

/-! ## One event -/

theorem noOverlap_iff {live : LiveKeys} : NoOverlap live ↔
    ∀ k a, live.lookup k = some a → ∀ k' b, live.lookup k' = some b → a.SharesKey b → k = k' := by
  constructor
  · intro h k a ha k' b hb
    exact h ⟨k, a⟩ (AList.mem_lookup_iff.1 ha) ⟨k', b⟩ (AList.mem_lookup_iff.1 hb)
  · intro h a ha b hb
    exact h a.1 a.2 (AList.mem_lookup_iff.2 ha) b.1 b.2 (AList.mem_lookup_iff.2 hb)

/-- The node of the key of an app has the id and the name of the app. -/
theorem Follows.node_of_key {st : KeyHistory} (h : Follows cfg w st) {app : App}
    {node : AtappDiscovery} (hnode : st.live.lookup (w.key app) = some node) :
    node.Keyed ∧ node.id = app.id ∧ node.name = app.appName := by
  obtain ⟨hkeyed, app', hkey, hid, hname⟩ := h.carries _ node hnode
  have happ : app = app' := ServiceDiscoveryModule.keyPath_inj hkey
  subst happ
  exact ⟨hkeyed, hid, hname⟩

/-- A Put whose info only clashes with that of its own key does not rekey a node in place. -/
theorem not_rekeysInPlace_of_ownedBy {m : ServiceDiscoveryModule} {live : LiveKeys} {k : Bytes}
    {event : NodeInfoT} (h : IndexInv m.heap m.globalDiscovery)
    (hcontents : m.contents = KeyedSet.image (registry live))
    (hown : KeyedSet.OwnedBy AtappDiscovery.SharesKey (registry live) k
      event.nodeDiscovery.canonical)
    (hkey : ∀ node, live.lookup k = some node →
      node.id = event.nodeDiscovery.id ∧ node.name = event.nodeDiscovery.name) :
    ¬ m.RekeysInPlace event := by
  rintro ⟨p, hdec, hkeys⟩
  have hfound : m.Found event.nodeDiscovery p :=
    (ServiceDiscoveryModule.found_of_overwrite hdec).1
  have hshares := (ServiceDiscoveryModule.found_iff_sharesKey h hfound.live _).1 hfound
  have hmem : (m.heap p).nodeInfo.canonical ∈ m.contents := ⟨p, hfound.live, rfl⟩
  rw [hcontents] at hmem
  -- the node that is overwritten is that of the same key
  obtain ⟨k', hk'⟩ := hmem
  have heq : k' = k := (hown k' _ hk').1 hshares
  subst heq
  obtain ⟨node, hnode, hcanon⟩ := Option.map_eq_some_iff.1 hk'
  obtain ⟨hid, hname⟩ := hkey node hnode
  have hpid : (m.heap p).id = event.nodeDiscovery.id :=
    (congrArg AtappDiscovery.id hcanon).symm.trans hid
  have hpname : (m.heap p).name = event.nodeDiscovery.name :=
    (congrArg AtappDiscovery.name hcanon).symm.trans hname
  rcases hkeys with ⟨_, hne⟩ | ⟨_, hne⟩
  · exact hne hpid
  · exact hne hpname

/-- **A Put** keeps the set in step with the live keys. -/
theorem follows_put {st : KeyHistory} (h : Follows cfg w st) {app : App} {kv : EtcdKeyValue}
    (hcarries : w.CarriesApp (.put app kv)) (hkeyed : (w.decoded (.put app kv)).Keyed) :
    Follows cfg w (st.step cfg w (.put app kv)) := by
  obtain ⟨hid, hname⟩ := hcarries
  refine ⟨fun k node hk => ?_, fun hno' => ?_⟩
  · by_cases hkey : k = w.key app
    · subst hkey
      simp only [step, AList.lookup_insert, Option.some.injEq] at hk
      subst hk
      exact ⟨hkeyed, app, rfl, hid, hname⟩
    · simp only [step, AList.lookup_insert_ne hkey] at hk
      exact h.carries k node hk
  · simp only [step] at hno'
    rw [noOverlap_iff] at hno'
    have hnew : (st.live.insert (w.key app) (w.decoded (.put app kv))).lookup (w.key app) =
        some (w.decoded (.put app kv)) := AList.lookup_insert _
    have hold : ∀ k a, st.live.lookup k = some a → k ≠ w.key app →
        (st.live.insert (w.key app) (w.decoded (.put app kv))).lookup k = some a :=
      fun k a ha hne => (AList.lookup_insert_ne hne).trans ha
    have hsame : ∀ a, st.live.lookup (w.key app) = some a →
        a.id = (w.decoded (.put app kv)).id ∧ a.name = (w.decoded (.put app kv)).name := by
      intro a ha
      obtain ⟨_, haid, haname⟩ := h.node_of_key ha
      exact ⟨haid.trans hid.symm, haname.trans hname.symm⟩
    -- the live keys did not overlap before: an old node of the key has the same id and name
    have hno : NoOverlap st.live := by
      rw [noOverlap_iff]
      intro k a ha k' b hb hshares
      by_cases hk : k = w.key app
      · by_cases hk' : k' = w.key app
        · exact hk.trans hk'.symm
        · subst hk
          obtain ⟨haid, haname⟩ := hsame a ha
          exact hno' _ _ hnew k' b (hold k' b hb hk') (hshares.congr_left haid haname)
      · by_cases hk' : k' = w.key app
        · subst hk'
          obtain ⟨hbid, hbname⟩ := hsame b hb
          exact hno' k a (hold k a ha hk) _ _ hnew (hshares.symm.congr_left hbid hbname).symm
        · exact hno' k a (hold k a ha hk) k' b (hold k' b hb hk') hshares
    have hown : KeyedSet.OwnedBy AtappDiscovery.SharesKey (registry st.live) (w.key app)
        (w.decoded (.put app kv)).canonical := by
      intro k y hy
      obtain ⟨a, ha, hcanon⟩ := Option.map_eq_some_iff.1 hy
      subst hcanon
      constructor
      · intro hshares
        by_contra hne
        exact hne (hno' k a (hold k a ha hne) _ _ hnew hshares)
      · intro hk
        subst hk
        obtain ⟨haid, haname⟩ := hsame a ha
        have hself := AtappDiscovery.sharesKey_self.2 hkeyed
        exact hself.congr_left haid.symm haname.symm
    obtain ⟨hv, hone, hcontents⟩ := h.synced hno
    have hr := not_rekeysInPlace_of_ownedBy hv.index hcontents hown hsame
    obtain ⟨hv', hone', hcontents'⟩ := ServiceDiscoveryModule.contents_put hv hone
      (ServiceDiscoveryModule.decodeEvent_contextAddr w.codec w.contextAddr _) rfl hkeyed hr
      (ServiceDiscoveryModule.decodeEvent w.codec w.contextAddr
        (w.watchEvent (.put app kv))).2
    have hlive : KeyedSet.put AtappDiscovery.SharesKey st.module.contents
        (w.decoded (.put app kv)).canonical =
          KeyedSet.image (registry (st.live.insert (w.key app) (w.decoded (.put app kv)))) := by
      rw [hcontents, KeyedSet.put_image hown, registry_insert]
    rw [step_module, if_pos hkeyed]
    exact ⟨hv', hone', hcontents'.trans hlive⟩

/-- **A Delete** that meets no other live key keeps the set in step with the live keys. -/
theorem follows_delete {st : KeyHistory} (h : Follows cfg w st) {app : App} {kv : EtcdKeyValue}
    (hmeets : MeetsOwnKey w st (.delete app kv)) :
    Follows cfg w (st.step cfg w (.delete app kv)) := by
  have hmeets' : ∀ k a, st.live.lookup k = some a →
      (a.SharesKey (w.decoded (.delete app kv)) ↔ k = w.key app) ∧
        (a.SharesKey { id := app.id, name := app.appName } → k = w.key app) :=
    fun k a ha => hmeets ⟨k, a⟩ (AList.mem_lookup_iff.1 ha)
  refine ⟨fun k node hk => ?_, fun hno' => ?_⟩
  · by_cases hkey : k = w.key app
    · subst hkey
      simp [step] at hk
    · simp only [step, AList.lookup_erase_ne hkey] at hk
      exact h.carries k node hk
  · simp only [step] at hno'
    rw [noOverlap_iff] at hno'
    have hold : ∀ k a, st.live.lookup k = some a → k ≠ w.key app →
        (st.live.erase (w.key app)).lookup k = some a :=
      fun k a ha hne => (AList.lookup_erase_ne hne).trans ha
    -- the deleted key did not overlap with another one
    have hdeleted : ∀ a, st.live.lookup (w.key app) = some a → ∀ k b, st.live.lookup k = some b →
        a.SharesKey b → k = w.key app := by
      intro a ha k b hb hshares
      obtain ⟨_, haid, haname⟩ := h.node_of_key ha
      exact (hmeets' k b hb).2 (hshares.congr_left haid haname).symm
    have hno : NoOverlap st.live := by
      rw [noOverlap_iff]
      intro k a ha k' b hb hshares
      by_cases hk : k = w.key app
      · subst hk
        exact (hdeleted a ha k' b hb hshares).symm
      · by_cases hk' : k' = w.key app
        · subst hk'
          exact hdeleted b hb k a ha hshares.symm
        · exact hno' k a (hold k a ha hk) k' b (hold k' b hb hk') hshares
    have hown : KeyedSet.OwnedBy AtappDiscovery.SharesKey (registry st.live) (w.key app)
        (w.decoded (.delete app kv)) := by
      intro k y hy
      obtain ⟨a, ha, hcanon⟩ := Option.map_eq_some_iff.1 hy
      subst hcanon
      exact (hmeets' k a ha).1
    obtain ⟨hv, hone, hcontents⟩ := h.synced hno
    have hlive : KeyedSet.remove AtappDiscovery.SharesKey st.module.contents
        (w.decoded (.delete app kv)) =
          KeyedSet.image (registry (st.live.erase (w.key app))) := by
      rw [hcontents, KeyedSet.remove_image hown, registry_erase]
    have hdelete : (ServiceDiscoveryModule.decodeEvent w.codec w.contextAddr
        (w.watchEvent (.delete app kv))).1.action = .delete := rfl
    rw [step_module]
    split
    · obtain ⟨hv', hone', hcontents'⟩ := ServiceDiscoveryModule.contents_delete hv hone
        (ServiceDiscoveryModule.decodeEvent_contextAddr w.codec w.contextAddr _) hdelete
        (ServiceDiscoveryModule.decodeEvent w.codec w.contextAddr
          (w.watchEvent (.delete app kv))).2
      exact ⟨hv', hone', hcontents'.trans hlive⟩
    · next hskip =>
      -- nothing clashes with a Delete without an id and a name
      refine ⟨hv, hone, Eq.trans ?_ hlive⟩
      ext node
      exact ⟨fun hnode => ⟨hnode, fun hshares => hskip hshares.keyed⟩, fun hnode => hnode.1⟩

theorem follows_step {st : KeyHistory} (h : Follows cfg w st) {event : KeyEvent}
    (hcarries : w.CarriesApp event) (hmeets : MeetsOwnKey w st event) :
    Follows cfg w (st.step cfg w event) := by
  cases event with
  | put app kv => exact follows_put h hcarries hmeets
  | delete app kv => exact follows_delete h hmeets

/-! ## Runs -/

/-- **The set follows the live keys.** In every history of Puts that carry the nodes of their keys
    and of Deletes that carry only keys, in which every event meets its own key alone, the set
    holds exactly the nodes of the live keys in every state in which no two of them share an id or
    a name. -/
theorem always_holdsExactly (cfg : HashConfig) (w : WatchedDirectory) (events : List KeyEvent)
    (hcarries : ∀ event ∈ events, w.CarriesApp event)
    (hmeets : Run.StepsMeet (step cfg w) (MeetsOwnKey w) {} events) :
    Run.Always (step cfg w)
      (fun st => NoOverlap st.live → st.module.HoldsExactly (st.live.entries.map Sigma.snd)) {}
      events := by
  have hfollows : ∀ (events : List KeyEvent) (st : KeyHistory), Follows cfg w st →
      (∀ event ∈ events, w.CarriesApp event) →
      Run.StepsMeet (step cfg w) (MeetsOwnKey w) st events →
      Run.Always (step cfg w) (Follows cfg w) st events := by
    intro events
    induction events with
    | nil => exact fun st h _ _ => (Run.always_nil _).2 h
    | cons event events ih =>
        intro st h hall hmeet
        refine (Run.always_cons _).2 ⟨h, ih _ ?_ (fun e he => hall e (List.mem_cons_of_mem _ he))
          hmeet.2⟩
        exact follows_step h (hall event List.mem_cons_self) hmeet.1
  exact (hfollows events {} follows_empty hcarries hmeets).mono _ (fun st h => h.holdsExactly)

/-- The watcher of the directory by id, in context 5. -/
def watchedById (nodes : List AtappDiscovery) : WatchedDirectory where
  codec := tableCodec nodes
  contextAddr := 5
  dir := .byId
  path := ascii "/"

/-- The registration of an info. -/
def registration (node : AtappDiscovery) : KeyEvent :=
  .put { appName := node.name, id := node.id } { value := jsonText node }

/-- The key of an info expires. -/
def expiry (node : AtappDiscovery) : KeyEvent :=
  .delete { appName := node.name, id := node.id } {}

/-- Server `a` with id 1, its restart with id 2, and server `b` with id 3. -/
def restartNodes : List AtappDiscovery :=
  [{ id := 1, name := ascii "a" }, { id := 2, name := ascii "a" }, { id := 3, name := ascii "b" }]

/-- The old key of server `a` expires before the server restarts. -/
def earlyExpiry : List KeyEvent :=
  [registration { id := 1, name := ascii "a" }, registration { id := 3, name := ascii "b" },
    expiry { id := 1, name := ascii "a" }, registration { id := 2, name := ascii "a" }]

/-- The old key of server `a` expires after the server restarted. -/
def lateExpiry : List KeyEvent :=
  [registration { id := 1, name := ascii "a" }, registration { id := 2, name := ascii "a" },
    expiry { id := 1, name := ascii "a" }]

theorem always_holdsExactly_earlyExpiry :
    Run.Always (step DiscoveryState.seedConfig (watchedById restartNodes))
      (fun st => NoOverlap st.live → st.module.HoldsExactly (st.live.entries.map Sigma.snd)) {}
      earlyExpiry :=
  always_holdsExactly DiscoveryState.seedConfig (watchedById restartNodes) earlyExpiry
    (by decide +kernel) (by decide +kernel)

/-- After `lateExpiry` only the new key of server `a` is live, and the set is empty. -/
theorem lateExpiry_loses_node :
    ¬ ∀ (cfg : HashConfig) (w : WatchedDirectory) (events : List KeyEvent),
      (∀ event ∈ events, w.CarriesApp event) →
      NoOverlap (Run.run (step cfg w) {} events).live →
      (Run.run (step cfg w) {} events).module.HoldsExactly
        ((Run.run (step cfg w) {} events).live.entries.map Sigma.snd) := by
  intro h
  have hexact := h DiscoveryState.seedConfig (watchedById restartNodes) lateExpiry
    (by decide +kernel) (by decide +kernel)
  obtain ⟨_, p, hid, _⟩ := hexact.holds { id := 2, name := ascii "a" } (by decide +kernel)
  have hnone : (Run.run (step DiscoveryState.seedConfig (watchedById restartNodes)) {}
      lateExpiry).module.byId 2 = none := by decide +kernel
  rw [hid (by decide)] at hnone
  cases hnone

end KeyHistory

end LibAtapp
