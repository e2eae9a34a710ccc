import LibAtapp.Etcdcli.Cluster

set_option autoImplicit false

/-! # Dropping a failing host

When a request fails, `retry_request_member_update` drops the selected host if the request went to
it, selects another host and asks for the members again if it is time. Without automatic updates of
the hosts an empty list is filled again with the configured hosts. -/

namespace LibAtapp

/-! ## Texts -/

/-- A text with something behind it begins like the text. -/
theorem take_cString_append (text api : Bytes) :
    (cString (text ++ api)).take text.length = (cString text).take text.length := by
  induction text with
  | nil => rfl
  | cons c text ih =>
    by_cases hc : c = 0
    · simp [cString, hc]
    · simp only [cString, List.cons_append, List.takeWhile_cons, hc, ne_eq, not_false_eq_true,
        decide_true, if_true, List.length_cons, List.take_succ_cons]
      exact congrArg _ ih

namespace EtcdCluster

theorem strncaseEq_append (text api : Bytes) :
    Conf.strncaseEq text (text ++ api) text.length = true := by
  rw [Conf.strncaseEq, take_cString_append]
  exact beq_self_eq_true _

theorem pickHost_mem {hosts : List Bytes} (h : hosts ≠ []) (draw : Nat) :
    pickHost hosts draw ∈ hosts := by
  have hlt : draw % hosts.length < hosts.length := Nat.mod_lt _ (List.length_pos_iff.2 h)
  rw [pickHost, List.getD_eq_getElem?_getD, List.getElem?_eq_getElem hlt]
  exact List.getElem_mem hlt

/-! ## Asking for the members -/

/-- The hosts and the selected host are those of before, or an empty list was filled with the
    configured hosts, because hosts are not updated automatically. -/
structure Refilled (self : EtcdCluster) (now : Int) (after : ClusterConf) : Prop where
  manual : self.conf.autoUpdateHosts = false
  configured : self.conf.confHosts ≠ []
  due : self.conf.etcdMembersNextUpdateTime < now
  hosts : after.hosts = self.conf.confHosts
  selected : after.pathNode ∈ self.conf.confHosts

theorem createRequestMemberUpdate_conf (self : EtcdCluster) {now : Int}
    (hdue : self.conf.etcdMembersNextUpdateTime < now) (draw : Nat) (outcome : StartOutcome) :
    ∃ after sent, self.createRequestMemberUpdate now draw outcome = some (after, sent) ∧
      (after.conf.hosts = self.conf.hosts ∧ after.conf.pathNode = self.conf.pathNode ∨
        self.conf.hosts = [] ∧ Refilled self now after.conf) := by
  unfold createRequestMemberUpdate
  by_cases hmulti : (!self.curlMulti) = true
  · exact ⟨self, false, if_pos hmulti, Or.inl ⟨rfl, rfl⟩⟩
  by_cases hclosing : self.closing = true
  · exact ⟨self, false, by rw [if_neg hmulti, if_pos hclosing], Or.inl ⟨rfl, rfl⟩⟩
  by_cases hnone : self.conf.confHosts = [] ∧ self.conf.hosts = []
  · exact ⟨self, false, by rw [if_neg hmulti, if_neg hclosing, if_pos hnone], Or.inl ⟨rfl, rfl⟩⟩
  rw [if_neg hmulti, if_neg hclosing, if_neg hnone]
  dsimp only
  by_cases htrust : (!self.conf.autoUpdateHosts) = true ∧ self.conf.confHosts ≠ []
  · rw [if_pos htrust]
    by_cases hempty : self.conf.hosts = []
    · rw [if_pos hempty]
      exact ⟨_, _, rfl, Or.inr ⟨hempty, by simpa using htrust.1, htrust.2, hdue, rfl,
        pickHost_mem htrust.2 draw⟩⟩
    · rw [if_neg hempty]
      exact ⟨_, _, rfl, Or.inl ⟨rfl, rfl⟩⟩
  · rw [if_neg htrust]
    cases outcome with
    | createFailed => exact ⟨_, _, rfl, Or.inl ⟨rfl, rfl⟩⟩
    | startFailed => exact ⟨_, _, rfl, Or.inl ⟨rfl, rfl⟩⟩
    | started => exact ⟨_, _, rfl, Or.inl ⟨rfl, rfl⟩⟩

/-! ## What a failed request does to the hosts -/

/-- The hosts after the first part of `retry_request_member_update`. -/
def hostsAfterFailure (self : EtcdCluster) (badUrl : Bytes) : List Bytes :=
  if self.conf.pathNode ≠ [] ∧ Conf.strncaseEq self.conf.pathNode badUrl self.conf.pathNode.length then
    SwapRemove.removeAll self.conf.pathNode self.conf.hosts
  else self.conf.hosts

/-- The selected host after the first part of `retry_request_member_update`. -/
def pathNodeAfterFailure (self : EtcdCluster) (badUrl : Bytes) (draw : Nat) : Bytes :=
  if self.conf.pathNode ≠ [] ∧
      ¬ Conf.strncaseEq self.conf.pathNode badUrl self.conf.pathNode.length then self.conf.pathNode
  else pickHost (self.hostsAfterFailure badUrl) draw

/-- Where the selected host is kept, so are the hosts. -/
theorem hostsAfterFailure_of_kept {self : EtcdCluster} {badUrl : Bytes}
    (hkept : self.conf.pathNode ≠ [] ∧
      ¬ Conf.strncaseEq self.conf.pathNode badUrl self.conf.pathNode.length) :
    self.hostsAfterFailure badUrl = self.conf.hosts :=
  if_neg fun hdropped => hkept.2 hdropped.2

/-- A host is selected wherever one is left. -/
theorem pathNodeAfterFailure_mem {self : EtcdCluster} {badUrl : Bytes}
    (hselected : self.conf.pathNode = [] ∨ self.conf.pathNode ∈ self.conf.hosts)
    (hne : self.hostsAfterFailure badUrl ≠ []) (draw : Nat) :
    self.pathNodeAfterFailure badUrl draw ∈ self.hostsAfterFailure badUrl := by
  unfold pathNodeAfterFailure
  split
  · next hkept =>
    rw [hostsAfterFailure_of_kept hkept]
    exact hselected.resolve_left hkept.1
  · exact pickHost_mem hne draw

/-- Without hosts none is selected. -/
theorem pathNodeAfterFailure_nil {self : EtcdCluster} {badUrl : Bytes}
    (hselected : self.conf.pathNode = [] ∨ self.conf.pathNode ∈ self.conf.hosts)
    (hnil : self.hostsAfterFailure badUrl = []) (draw : Nat) :
    self.pathNodeAfterFailure badUrl draw = [] := by
  unfold pathNodeAfterFailure
  split
  · next hkept =>
    rw [hostsAfterFailure_of_kept hkept] at hnil
    rw [hnil] at hselected
    exact hselected.resolve_right List.not_mem_nil
  · rw [hnil]
    rfl

/-- `retry_request_member_update` leaves these hosts, or fills an empty list again. -/
theorem retryRequestMemberUpdate_conf (self : EtcdCluster) (badUrl : Bytes) (now : Int)
    (selectDraw draw : Nat) (outcome : StartOutcome) :
    ∃ after sent,
      self.retryRequestMemberUpdate badUrl now selectDraw draw outcome = some (after, sent) ∧
        (after.conf.hosts = self.hostsAfterFailure badUrl ∧
            after.conf.pathNode = self.pathNodeAfterFailure badUrl selectDraw ∨
          self.hostsAfterFailure badUrl = [] ∧ Refilled self now after.conf) := by
  unfold retryRequestMemberUpdate
  dsimp only
  generalize hmid : (if self.conf.pathNode = [] then self.selectClusterMember selectDraw
    else if Conf.strncaseEq self.conf.pathNode badUrl self.conf.pathNode.length = true then
      ({ self with conf := { self.conf with
          hosts := SwapRemove.removeAll self.conf.pathNode self.conf.hosts } }
        ).selectClusterMember selectDraw
    else self) = mid
  -- the first part only changes the hosts and the selected host
  have hconf : mid.conf = { self.conf with
      hosts := self.hostsAfterFailure badUrl
      pathNode := self.pathNodeAfterFailure badUrl selectDraw } := by
    rw [← hmid, pathNodeAfterFailure, hostsAfterFailure]
    by_cases hpath : self.conf.pathNode = []
    · simp [hpath, selectClusterMember]
    · by_cases heq : Conf.strncaseEq self.conf.pathNode badUrl self.conf.pathNode.length = true
      · simp [hpath, heq, selectClusterMember]
      · simp [hpath, heq]
  clear hmid
  have hnext : mid.conf.etcdMembersNextUpdateTime = self.conf.etcdMembersNextUpdateTime := by
    rw [hconf]
  generalize (if (!mid.running) = true ∧ mid.conf.etcdMembersInitRetryInterval > 0 then
      mid.conf.etcdMembersInitRetryInterval
    else if mid.conf.etcdMembersRetryInterval ≤ 0 then 60000
    else mid.conf.etcdMembersRetryInterval) = retryInterval
  split
  · exact ⟨_, _, rfl, Or.inl ⟨by simp [hconf], by simp [hconf]⟩⟩
  · split
    · exact ⟨_, _, rfl, Or.inl ⟨by simp [hconf], by simp [hconf]⟩⟩
    · next hdue =>
      obtain ⟨after, sent, hres, hsame | ⟨hempty, hrefilled⟩⟩ :=
        createRequestMemberUpdate_conf mid (show _ < now by omega) draw outcome
      · exact ⟨after, sent, hres, Or.inl ⟨by rw [hsame.1, hconf], by rw [hsame.2, hconf]⟩⟩
      · refine ⟨after, sent, hres, Or.inr ⟨by rw [hconf] at hempty; exact hempty, ?_⟩⟩
        obtain ⟨hmanual, hconfigured, hdue, hhosts, hselected⟩ := hrefilled
        rw [hconf] at hmanual hconfigured hdue hhosts hselected
        exact ⟨hmanual, hconfigured, hdue, hhosts, hselected⟩

/-- Only a failing host is dropped: if it is the selected one, the list holds the other hosts and
    no occurrence of it, else nothing changes; the selected host is one of the list. -/
structure OnlyFailingDropped (before after : ClusterConf) (h : Bytes) : Prop where
  dropped : h = before.pathNode → after.hosts.Perm (before.hosts.filter (· ≠ h))
  unchanged : h ≠ before.pathNode →
    after.hosts = before.hosts ∧ after.pathNode = before.pathNode
  selected : after.pathNode = [] ∨ after.pathNode ∈ after.hosts

/-- Only a failing host is dropped, where a list left without hosts may be filled with the
    configured hosts, and a cluster without selected host selects one: afterwards a host is selected
    wherever there is one. -/
structure FailingDropped (self : EtcdCluster) (now : Int) (after : ClusterConf) (h : Bytes) :
    Prop where
  dropped : h = self.conf.pathNode → self.conf.pathNode ≠ [] →
    after.hosts.Perm (self.conf.hosts.filter (· ≠ h)) ∨
      self.conf.hosts.filter (· ≠ h) = [] ∧ Refilled self now after
  unchanged : h ≠ self.conf.pathNode → self.conf.pathNode ≠ [] →
    after.hosts = self.conf.hosts ∧ after.pathNode = self.conf.pathNode
  unselected : self.conf.pathNode = [] → after.hosts = self.conf.hosts ∨
    self.conf.hosts = [] ∧ Refilled self now after
  selected : after.hosts ≠ [] → after.pathNode ∈ after.hosts
  noHost : after.hosts = [] → after.pathNode = []

/-- **Only the failing host is dropped**, for every list of hosts and every failed request to one
    of them, if the loop that drops the selected host moves no occurrence of it, and the url of a
    request to another host does not begin with the selected host. -/
theorem retryRequestMemberUpdate_dropped (self : EtcdCluster) {h : Bytes} (api : Bytes) (now : Int)
    (selectDraw draw : Nat) (outcome : StartOutcome)
    (hselected : self.conf.pathNode = [] ∨ self.conf.pathNode ∈ self.conf.hosts)
    (hmoved : h = self.conf.pathNode → h ∉ SwapRemove.moved h self.conf.hosts)
    (hother : h ≠ self.conf.pathNode → self.conf.pathNode ≠ [] →
      Conf.strncaseEq self.conf.pathNode (h ++ api) self.conf.pathNode.length = false) :
    ∃ after sent,
      self.retryRequestMemberUpdate (h ++ api) now selectDraw draw outcome = some (after, sent) ∧
        FailingDropped self now after.conf h := by
  obtain ⟨after, sent, hres, hconf⟩ :=
    retryRequestMemberUpdate_conf self (h ++ api) now selectDraw draw outcome
  refine ⟨after, sent, hres, fun heq hne => ?_, fun hdiff hpath => ?_, fun hpath => ?_, fun hne => ?_,
    fun hnil => ?_⟩
  case _ =>
    have hhosts : self.hostsAfterFailure (h ++ api) = SwapRemove.removeAll h self.conf.hosts := by
      rw [hostsAfterFailure, ← heq, if_pos ⟨heq ▸ hne, strncaseEq_append h api⟩]
    rw [hhosts] at hconf
    have hperm := SwapRemove.removeAll_perm h (hmoved heq)
    rcases hconf with ⟨hafter, -⟩ | ⟨hempty, hrefilled⟩
    · rw [hafter]
      exact Or.inl hperm
    · rw [hempty] at hperm
      exact Or.inr ⟨List.Perm.eq_nil hperm.symm, hrefilled⟩
  case _ =>
    have hno := hother hdiff hpath
    have hhosts : self.hostsAfterFailure (h ++ api) = self.conf.hosts := by
      simp [hostsAfterFailure, hno]
    have hnode : self.pathNodeAfterFailure (h ++ api) selectDraw = self.conf.pathNode := by
      simp [pathNodeAfterFailure, hno, hpath]
    rw [hhosts, hnode] at hconf
    refine hconf.resolve_right fun hempty => ?_
    rcases hselected with hnil | hmem
    · exact hpath hnil
    · rw [hempty.1] at hmem
      exact List.not_mem_nil hmem
  case _ =>
    have hhosts : self.hostsAfterFailure (h ++ api) = self.conf.hosts := by
      simp [hostsAfterFailure, hpath]
    rw [hhosts] at hconf
    exact hconf.imp_left fun hafter => hafter.1
  case _ =>
    rcases hconf with ⟨hhosts, hnode⟩ | ⟨-, hrefilled⟩
    · rw [hhosts] at hne ⊢
      rw [hnode]
      exact pathNodeAfterFailure_mem hselected hne selectDraw
    · obtain ⟨-, -, -, hhosts, hnode⟩ := hrefilled
      rw [hhosts]
      exact hnode
  case _ =>
    rcases hconf with ⟨hhosts, hnode⟩ | ⟨-, hrefilled⟩
    · rw [hnode]
      exact pathNodeAfterFailure_nil hselected (hhosts.symm.trans hnil) selectDraw
    · obtain ⟨-, hconfigured, -, hhosts, -⟩ := hrefilled
      exact absurd (hhosts.symm.trans hnil) hconfigured

/-- A cluster with these hosts, the first of them selected. -/
def hostsCluster (hosts : List Bytes) (autoUpdateHosts : Bool) : EtcdCluster where
  conf := { confHosts := hosts, hosts, pathNode := hosts.headD [], autoUpdateHosts }

/-- A request to the selected one of two hosts fails. -/
theorem retryRequestMemberUpdate_dropped_twoHosts :
    ∃ after sent,
      (hostsCluster [ascii "http://a:1", ascii "http://b:1"] true).retryRequestMemberUpdate
          (ascii "http://a:1" ++ apiKvGet) 1 0 0 .started = some (after, sent) ∧
        FailingDropped (hostsCluster [ascii "http://a:1", ascii "http://b:1"] true) 1 after.conf
          (ascii "http://a:1") :=
  retryRequestMemberUpdate_dropped _ apiKvGet 1 0 0 .started (by decide) (by decide) (by decide)

/-- The only host fails, and hosts are not updated automatically: it is the only host again. -/
theorem not_onlyFailingDropped_oneHost :
    ∃ after sent,
      (hostsCluster [ascii "http://a:1"] false).retryRequestMemberUpdate
          (ascii "http://a:1" ++ apiKvGet) 1 0 0 .started = some (after, sent) ∧
        ¬ OnlyFailingDropped (hostsCluster [ascii "http://a:1"] false).conf after.conf
          (ascii "http://a:1") := by
  refine ⟨_, _, rfl, fun honly => ?_⟩
  have hperm := honly.dropped rfl
  revert hperm
  decide +kernel

end EtcdCluster

end LibAtapp
