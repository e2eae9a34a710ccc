import LibAtapp.Etcdcli.KeyRange

set_option autoImplicit false

/-! # The keys of the discovery module

An app registers itself under keys that end in its name and its id. A registration is removed by a
delete request for the range `+1` of its key, that is for every key that begins with it, so the
request reaches every other key whose text goes on where the removed one ends. The main result
says exactly for which two apps this happens. -/

namespace LibAtapp

/-- The name and the id of an `app`. -/
structure App where
  appName : Bytes
  id : Nat
  deriving DecidableEq, Repr

/-- The app of an id, where each id has one name. -/
def App.named (names : Nat → Bytes) (id : Nat) : App where
  appName := names id
  id := id

/-- The directories of the discovery module. -/
inductive KeyDir where
  | byId
  | byName
  | topology
  deriving DecidableEq, Repr

/-- `ETCD_MODULE_BY_ID_DIR`, `ETCD_MODULE_BY_NAME_DIR` and `ETCD_MODULE_TOPOLOGY_DIR`. -/
def KeyDir.text : KeyDir → Bytes
  | .byId => ascii "by_id"
  | .byName => ascii "by_name"
  | .topology => ascii "topology"

/-- The last segment of the keys of an app. -/
def App.keyName (app : App) : Bytes := app.appName ++ ascii "-" ++ decimal app.id

namespace ServiceDiscoveryModule

/-- The key of an app in a directory under a configure path. -/
def keyPath (dir : KeyDir) (app : App) (path : Bytes) : Bytes :=
  path ++ dir.text ++ ascii "/" ++ app.keyName

/-- `get_discovery_by_id_path`. -/
def getDiscoveryByIdPath (app : App) (path : Bytes) : Bytes := keyPath .byId app path

/-- `get_discovery_by_name_path`. -/
def getDiscoveryByNamePath (app : App) (path : Bytes) : Bytes := keyPath .byName app path

/-- `get_topology_path`. -/
def getTopologyPath (app : App) (path : Bytes) : Bytes := keyPath .topology app path

end ServiceDiscoveryModule

/-- The range of the delete request of `etcd_cluster::remove_keepalive_path`. -/
def EtcdCluster.removeKeepaliveRange (path : Bytes) : KeyRange :=
  EtcdPacker.packKeyRange path (ascii "+1")

namespace ServiceDiscoveryModule

theorem minus_not_mem_decimal (n : Nat) : (0x2d : Byte) ∉ decimal n := by
  intro h
  have hlow := (digit_of_mem_decimal h).1
  exact absurd hlow (by decide)

/-- Whether the text of one app's key is found at the start of another's. -/
theorem keyName_prefix_iff (first second : App) :
    first.keyName <+: second.keyName ↔
      (first.appName = second.appName ∧ decimal first.id <+: decimal second.id) ∨
        first.keyName <+: second.appName := by
  have hsep : ∀ app : App, app.keyName = app.appName ++ 0x2d :: decimal app.id := by
    intro app
    show app.appName ++ [0x2d] ++ decimal app.id = _
    rw [List.append_assoc]
    rfl
  rw [hsep first, hsep second]
  exact PrefixRange.sep_prefix_sep_iff (minus_not_mem_decimal _) (minus_not_mem_decimal _) _ _

/-- No directory name begins with another. -/
theorem eq_of_prefix_text {dir dir' : KeyDir} (h : dir.text <+: dir'.text) : dir = dir' := by
  cases dir <;> cases dir' <;> first
    | rfl
    | exact absurd h (by decide)

/-- A key begins with another only in the same directory. -/
theorem keyPath_prefix_iff (path : Bytes) (dir dir' : KeyDir) (first second : App) :
    keyPath dir first path <+: keyPath dir' second path ↔
      dir = dir' ∧ first.keyName <+: second.keyName := by
  simp only [keyPath, List.append_assoc, List.prefix_append_right_inj]
  constructor
  · intro h
    have hdir : dir = dir' := by
      rcases List.prefix_or_prefix_of_prefix ((List.prefix_append _ _).trans h)
        (List.prefix_append _ _) with hd | hd
      · exact eq_of_prefix_text hd
      · exact (eq_of_prefix_text hd).symm
    subst hdir
    simp only [List.prefix_append_right_inj] at h
    exact ⟨rfl, h⟩
  · rintro ⟨hdir, h⟩
    subst hdir
    simpa only [List.prefix_append_right_inj] using h

/-- Different apps have different keys. -/
theorem keyPath_inj {dir : KeyDir} {path : Bytes} {first second : App}
    (h : keyPath dir first path = keyPath dir second path) : first = second := by
  have hname : first.keyName = second.keyName := List.append_cancel_left h
  have hlonger : ∀ app : App, ¬ app.keyName <+: app.appName := by
    intro app hle
    have hlen := hle.length_le
    rw [App.keyName, List.length_append, List.length_append] at hlen
    have hminus : (ascii "-").length = 1 := by decide
    omega
  have happ : first.appName = second.appName := by
    rcases (keyName_prefix_iff first second).1 (hname ▸ List.prefix_rfl) with h' | h'
    · exact h'.1
    · rw [hname] at h'
      exact absurd h' (hlonger second)
  have hid : first.id = second.id := by
    refine decimal_inj ?_
    rw [App.keyName, App.keyName, happ] at hname
    exact List.append_cancel_left hname
  cases first
  cases second
  simp only at happ hid
  rw [happ, hid]

/-- Where each id has one name, different ids have different keys. -/
theorem named_of_keyPath {dir : KeyDir} {path : Bytes} {names : Nat → Bytes} {id id' : Nat}
    (h : keyPath dir (App.named names id) path = keyPath dir (App.named names id') path) :
    id = id' :=
  congrArg App.id (keyPath_inj h)

/-- **The delete request for one app's key reaches another key exactly when both are in one
    directory and either the apps have one name and the decimal id of the first begins that of the
    second, or the second name begins with the first name, a minus and the first id.** -/
theorem removeKeepaliveRange_excludes_iff (path : Bytes) (dir dir' : KeyDir) (first second : App) :
    ¬ (EtcdCluster.removeKeepaliveRange (keyPath dir first path)).Contains
        (keyPath dir' second path) ↔
      ¬ (dir = dir' ∧
        ((first.appName = second.appName ∧ decimal first.id <+: decimal second.id) ∨
          first.keyName <+: second.appName)) := by
  have hbyte : ∃ c ∈ keyPath dir first path, c ≠ (0xff : Byte) :=
    ⟨0x2d, List.mem_append_right _ (List.mem_append_left _ (List.mem_append_right _ (by decide))),
      by decide⟩
  rw [EtcdCluster.removeKeepaliveRange, EtcdPacker.contains_packKeyRange_plusOne hbyte,
    keyPath_prefix_iff, keyName_prefix_iff]

/-- Removing the registration of app `n` with id 1 also deletes the key of app `n` with id 10. -/
theorem removeKeepaliveRange_contains_other :
    ¬ ∀ (path : Bytes) (dir dir' : KeyDir) (first second : App), first ≠ second →
      ¬ (EtcdCluster.removeKeepaliveRange (keyPath dir first path)).Contains
        (keyPath dir' second path) := by
  intro h
  exact h (ascii "/") .byId .byId ⟨ascii "n", 1⟩ ⟨ascii "n", 10⟩ (by decide) (by decide)

end ServiceDiscoveryModule

end LibAtapp
