import LibAtapp.Atbus.DirectReconnect

set_option autoImplicit false

/-! # An entry that a disconnect spares

Before a target is bound to its proxy it leaves its old one, and where that one has nothing left to
do it is disconnected. The target has no proxy then and no endpoint, and no other entry has its
application handle: none of the calls from the disconnect removes its entry. -/

namespace LibAtapp.Atbus

namespace Connector

variable {s t u : Connector} {b o : Nat}

/-! ## What changes leave alone -/

/-- Changes for entries that there are bring no entry, no endpoint, no application handle and no
    proxy. -/
structure Frame (s t : Connector) : Prop where
  find : ∀ id o, t.find id = some o → s.find id = some o
  endpoint : ∀ id, s.hasEndpoint id = false → t.hasEndpoint id = false
  appHandle : ∀ o, (t.objects o).appHandle = (s.objects o).appHandle
  currentBusId : ∀ o, (t.objects o).currentBusId = (s.objects o).currentBusId
  proxyBusId : ∀ o, (s.objects o).proxyBusId = 0 → (t.objects o).proxyBusId = 0

namespace Frame

theorem refl (s : Connector) : Frame s s :=
  ⟨fun _ _ h => h, fun _ h => h, fun _ => rfl, fun _ => rfl, fun _ h => h⟩

theorem modify (h : Frame s t) (p : Nat) {f : ConnectionHandleData → ConnectionHandleData}
    (hf : ∀ h, (f h).appHandle = h.appHandle ∧ (f h).currentBusId = h.currentBusId ∧
      (h.proxyBusId = 0 → (f h).proxyBusId = 0)) : Frame s (t.modify p f) := by
  obtain ⟨hfind, hendpoint, happ, hid, hproxy⟩ := h
  refine ⟨hfind, hendpoint, fun o => ?_, fun o => ?_, fun o ho => ?_⟩
  all_goals
    rw [objects_modify]
    split_ifs with heq
  · rw [(hf _).1, heq, happ]
  · exact happ o
  · rw [(hf _).2.1, heq, hid]
  · exact hid o
  · subst heq
    exact (hf _).2.2 (hproxy o ho)
  · exact hproxy o ho

end Frame

theorem lookup_filter_of_none {α : Type} {pairs : List (Nat × α)} {id : Nat} (q : Nat × α → Bool)
    (h : pairs.lookup id = none) : (pairs.filter q).lookup id = none := by
  rw [List.lookup_eq_none_iff] at h ⊢
  exact fun pair hpair => h pair (List.mem_filter.1 hpair).1

theorem Changes.frame (h : Changes Scope.inner s t) : Frame s t := by
  refine h.relates Frame.refl ?_
  intro s t u hst hchange
  cases hchange with
  | disconnect id =>
    refine ⟨hst.find, fun id' h => ?_, hst.appHandle, hst.currentBusId, hst.proxyBusId⟩
    have hnone : t.endpoints.lookup id' = none := by
      simpa [hasEndpoint] using hst.endpoint id' h
    have hnone' := lookup_filter_of_none (fun endpoint => decide (endpoint.1 ≠ id)) hnone
    show ((t.endpoints.filter fun endpoint => endpoint.1 ≠ id).lookup id').isSome = false
    rw [hnone']
    rfl
  | erase id =>
    exact ⟨fun id' o ho => hst.find id' o (find_of_find_erase ho), hst.endpoint, hst.appHandle,
      hst.currentBusId, hst.proxyBusId⟩
  | abandon id => exact ⟨hst.find, hst.endpoint, hst.appHandle, hst.currentBusId, hst.proxyBusId⟩
  | connect address h =>
    exact ⟨hst.find, hst.endpoint, hst.appHandle, hst.currentBusId, hst.proxyBusId⟩
  | setProxy o id h =>
    rcases h with rfl | hnew
    · exact hst.modify o fun _ => ⟨rfl, rfl, fun _ => rfl⟩
    · exact absurd (hnew 0) not_false
  | setProxyFor o ids => exact hst.modify o fun _ => ⟨rfl, rfl, fun h => h⟩
  | becomeReady o h => exact hst.modify o fun _ => ⟨rfl, rfl, fun h => h⟩
  | becomeUnready o h => exact hst.modify o fun _ => ⟨rfl, rfl, fun h => h⟩
  | setAppReady o ready =>
    obtain ⟨appReady, h⟩ := setAppReady_eq t o ready
    rw [h]
    exact ⟨hst.find, hst.endpoint, hst.appHandle, hst.currentBusId, hst.proxyBusId⟩
  | dropTimer o h => exact hst.modify o fun _ => ⟨rfl, rfl, fun h => h⟩
  | retry o timeout h =>
    have hnext : Frame s (t.modify o fun h => { h with
        reconnectRetryTimes := (h.reconnectRetryTimes + 1) % 2 ^ 32
        reconnectNextTimepoint := t.runTimeout o }) :=
      hst.modify o fun _ => ⟨rfl, rfl, fun h => h⟩
    exact hnext.modify o fun _ => ⟨rfl, rfl, fun h => h⟩
  | waitDiscovery o h => exact hst.modify o fun _ => ⟨rfl, rfl, fun h => h⟩
  | setAppHandle id o a h hnew => cases hnew
  | create id handle h hnew => cases hnew
  | createLost id handle h hnew => cases hnew

/-- The entry of a target that is to be connected. Bus id 0 is that of no node. -/
structure Target (b o : Nat) (s : Connector) : Prop where
  found : s.find b = some o
  noEndpoint : s.hasEndpoint b = false
  handle : ∀ id p, s.find id = some p → id ≠ b →
    (s.objects p).appHandle = (s.objects o).appHandle → (s.objects p).appHandle = none
  noZero : s.find 0 = none

theorem Target.frame (h : Target b o s) (hframe : Frame s t) (hfind : t.find b = some o) :
    Target b o t := by
  obtain ⟨-, hendpoint, hhandle, hzero⟩ := h
  refine ⟨hfind, hframe.endpoint b hendpoint, fun id p hp hne heq => ?_, ?_⟩
  · rw [hframe.appHandle] at heq ⊢
    rw [hframe.appHandle] at heq
    exact hhandle id p (hframe.find id p hp) hne heq
  · cases hnone : t.find 0 with
    | none => rfl
    | some p =>
      rw [hframe.find 0 p hnone] at hzero
      cases hzero

/-- The target is not bound to a proxy. -/
structure Alone (b o : Nat) (s : Connector) : Prop extends Target b o s where
  noProxy : (s.objects o).proxyBusId = 0

theorem Alone.changes (h : Alone b o s) (hchanges : Changes Scope.inner s t)
    (hfind : t.find b = some o) : Alone b o t :=
  ⟨h.toTarget.frame hchanges.frame hfind, hchanges.frame.proxyBusId o h.noProxy⟩

/-- A function spares the entry of a target that is not bound, where calls may nest this deep. -/
def Spares (b depth : Nat) (s t : Connector) : Prop :=
  ∀ o, s.endpoints.length < depth → s.WellFormed → Alone b o s →
    Changes Scope.inner s t ∧ t.find b = some o

variable {depth : Nat}

namespace Spares

theorem refl (s : Connector) : Spares b depth s s := fun _ _ _ h => ⟨Changes.refl, h.found⟩

theorem trans (h : Spares b depth s t) (h' : Spares b depth t u) : Spares b depth s u := by
  intro o hdepth hs halone
  obtain ⟨hchanges, hfind⟩ := h o hdepth hs halone
  obtain ⟨hchanges', hfind'⟩ := h' o (Nat.lt_of_le_of_lt hchanges.endpoints_length hdepth)
    (hchanges.wellFormed hs) (halone.changes hchanges hfind)
  exact ⟨hchanges.trans hchanges', hfind'⟩

theorem of_quiet (h : Quiet s t) : Spares b depth s t := by
  intro o _ hs halone
  exact ⟨h.leads hs (.inl trivial), (h.find b).trans halone.found⟩

theorem of_change (h : Change Scope.inner s t) (hfind : t.find b = s.find b) :
    Spares b depth s t :=
  fun _ _ _ halone => ⟨Changes.single h, hfind.trans halone.found⟩

/-- A fold of functions that spare the target, as long as a property is kept that they need. -/
theorem foldl {α : Type} {I : Connector → Prop} {f : Connector → α → Connector}
    (hI : ∀ s t, Changes Scope.inner s t → I s → I t)
    (hf : ∀ s x, I s → Spares b depth s (f s x)) (xs : List α) (hs : I s) :
    Spares b depth s (xs.foldl f s) := by
  induction xs generalizing s with
  | nil => exact refl s
  | cons x xs ih =>
      intro o hdepth hwf halone
      have hnext := hf s x hs
      have hkept : I (f s x) := hI _ _ (hnext o hdepth hwf halone).1 hs
      exact (hnext.trans (ih hkept)) o hdepth hwf halone

end Spares

/-! ## The functions that remove entries -/

/-- What leaving a proxy changes before it may be disconnected. -/
theorem unbindConnectionHandleProxy_cases (reenter : Connector → Nat → Connector) (s : Connector)
    (target proxy : Nat) :
    ∃ left, Quiet s left ∧ left.objects target = { s.objects target with
        proxyBusId := (left.objects target).proxyBusId
        proxyForBusId := (left.objects target).proxyForBusId } ∧
      ((s.objects target).proxyBusId = (s.objects proxy).currentBusId →
        (left.objects target).proxyBusId = 0) ∧
      (s.unbindConnectionHandleProxy reenter target proxy = left ∨
        left.hasEndpoint (s.objects proxy).currentBusId = true ∧
          s.unbindConnectionHandleProxy reenter target proxy =
            left.disconnect reenter (s.objects proxy).currentBusId) := by
  simp only [unbindConnectionHandleProxy]
  set apart := if (s.objects target).proxyBusId = (s.objects proxy).currentBusId then
    s.modify target fun h => { h with proxyBusId := 0 } else s with hapart
  set left := apart.modify proxy fun h =>
    { h with proxyForBusId := h.proxyForBusId.erase (apart.objects target).currentBusId } with hleft
  have hquiet : Quiet s apart := by
    rw [hapart]
    split_ifs
    · exact .of_sameMap (Leads.of_change (.setProxy s target 0 (.inl rfl))) (modify_sameMap s _ _)
    · exact .refl s
  have hquiet' : Quiet apart left :=
    .of_sameMap (Leads.of_change (.setProxyFor apart proxy _)) (modify_sameMap apart _ _)
  have hobject : apart.objects target = { s.objects target with
      proxyBusId := (apart.objects target).proxyBusId } := by
    rw [hapart]
    split_ifs <;> simp
  have hobject' : left.objects target = { apart.objects target with
      proxyForBusId := (left.objects target).proxyForBusId } := by
    rw [hleft, objects_modify]
    split_ifs with heq
    · rw [heq]
    · rfl
  refine ⟨left, hquiet.trans hquiet', ?_, fun heq => ?_, ?_⟩
  · rw [hobject', hobject]
  · rw [hobject', hapart, if_pos heq, objects_modify_self]
  · split_ifs with hkept hupstream hendpoint
    · exact .inl rfl
    · exact .inl rfl
    · exact .inr ⟨hendpoint, rfl⟩
    · exact .inl rfl

section Reentrant

variable {reenter : Connector → Nat → Connector}
  (hreenter : ∀ s id, id ≠ b → Spares b depth s (reenter s id))

include hreenter

theorem disconnect_spares {id : Nat} (hendpoint : s.hasEndpoint id = true) :
    Spares b (depth + 1) s (s.disconnect reenter id) := by
  intro o hdepth hs halone
  -- the target has no endpoint to disconnect
  have hne : id ≠ b := by
    rintro rfl
    rw [halone.noEndpoint] at hendpoint
    cases hendpoint
  have hchange : Change Scope.inner s
      { s with endpoints := s.endpoints.filter fun endpoint => endpoint.1 ≠ id } :=
    .disconnect s id
  have hlt := endpoints_length_lt hendpoint
  have hkept := halone.changes (Changes.single hchange) halone.found
  obtain ⟨hchanges, hfind⟩ := hreenter _ id hne o (by
    show (s.endpoints.filter fun endpoint => endpoint.1 ≠ id).length < depth
    omega) (hchange.wellFormed hs) hkept
  exact ⟨(Changes.single hchange).trans hchanges, hfind⟩

theorem unbindConnectionHandleProxy_spares (s : Connector) (target proxy : Nat) :
    Spares b (depth + 1) s (s.unbindConnectionHandleProxy reenter target proxy) := by
  obtain ⟨left, hquiet, -, -, hnext⟩ :=
    unbindConnectionHandleProxy_cases reenter s target proxy
  rcases hnext with hkept | ⟨hendpoint, hgone⟩
  · rw [hkept]
    exact .of_quiet hquiet
  · rw [hgone]
    exact (Spares.of_quiet hquiet).trans (disconnect_spares hreenter hendpoint)

/-- Removing a downstream entry of a removed one spares the target, if removals do. -/
theorem removeDownstream_spares {n p id : Nat}
    (hremove : ∀ {s : Connector} {id : Nat}, id ≠ b → s.handles.length < n →
      Spares b (depth + 1) s (removeConnectionHandleIn reenter n s id))
    (hlen : s.handles.length < n) (hid : (s.objects p).currentBusId = id) (hzero : id ≠ 0)
    (downstream : Nat) :
    Spares b (depth + 1) s (match s.find downstream with
      | none => s
      | some target =>
        if (s.objects target).proxyBusId ≠ (s.objects p).currentBusId then s
        else
          let s := s.unbindConnectionHandleProxy reenter target p
          match (s.objects target).appHandle with
          | none => removeConnectionHandleIn reenter n (s.setHandleUnready target) downstream
          | some a =>
            match s.find (s.privateData a) with
            | none => s
            | some closed =>
              if (s.objects closed).appHandle = some a then
                removeConnectionHandleIn reenter n (s.setHandleUnready closed) (s.privateData a)
              else s) := by
  cases htarget : s.find downstream with
  | none => exact Spares.refl s
  | some target =>
    dsimp only
    split_ifs with hbound
    · exact Spares.refl s
    · intro o hdepth hs halone
      -- the target of the connection has no proxy, so this is another entry
      have hne : downstream ≠ b := by
        rintro rfl
        obtain rfl : o = target := Option.some.inj (halone.found.symm.trans htarget)
        rw [halone.noProxy, hid] at hbound
        exact hbound (Ne.symm hzero)
      have hunbind := unbindConnectionHandleProxy_spares hreenter s target p
      obtain ⟨hchanges, hfind⟩ := hunbind o hdepth hs halone
      have hlen' := Nat.lt_of_le_of_lt hchanges.handles_length hlen
      have happ := hchanges.frame.appHandle
      have hunready : ∀ (t : Connector) o, Spares b (depth + 1) t (t.setHandleUnready o) :=
        fun t o => .of_quiet (.setHandleUnready t o)
      have hremove' : ∀ (t : Connector) o {id}, id ≠ b → t.handles.length < n →
          Spares b (depth + 1) t
            (removeConnectionHandleIn reenter n (t.setHandleUnready o) id) := by
        intro t o id hne hlen
        refine (hunready t o).trans (hremove hne ?_)
        rw [(setHandleUnready_sameMap t o).handles]
        exact hlen
      refine (hunbind.trans ?_) o hdepth hs halone
      generalize s.unbindConnectionHandleProxy reenter target p = t at hchanges hfind hlen' happ ⊢
      cases hhandle : (t.objects target).appHandle with
      | none => exact hremove' t target hne hlen'
      | some a =>
        dsimp only
        cases hclosed : t.find (t.privateData a) with
        | none => exact Spares.refl t
        | some closed =>
          dsimp only
          split_ifs with hsame
          · refine hremove' t closed ?_ hlen'
            intro heq
            -- the two entries would have one handle
            rw [heq, hfind] at hclosed
            obtain rfl := Option.some.inj hclosed
            have hnone := halone.handle downstream target htarget hne (by
              rw [← happ, ← happ, hhandle, hsame])
            rw [← happ, hhandle] at hnone
            cases hnone
          · exact Spares.refl t

/-- The unbinding from the proxy, if the object had one. -/
theorem unbindProxyOf_spares (s : Connector) (p : Nat) :
    Spares b (depth + 1) s
      (if (s.objects p).proxyBusId ≠ 0 then
        match s.find (s.objects p).proxyBusId with
        | some proxy => s.unbindConnectionHandleProxy reenter p proxy
        | none => s
      else s) := by
  split_ifs
  · cases s.find (s.objects p).proxyBusId with
    | none => exact Spares.refl _
    | some proxy => exact unbindConnectionHandleProxy_spares hreenter _ p proxy
  · exact Spares.refl _

/-- A removal of another entry spares the target: the target has no proxy to be removed with, and
    shares its handle with no entry that has one. -/
theorem removeConnectionHandleIn_spares {n : Nat} {s : Connector} {id : Nat} (hne : id ≠ b)
    (hlen : s.handles.length < n) :
    Spares b (depth + 1) s (removeConnectionHandleIn reenter n s id) := by
  induction n generalizing s id with
  | zero => exact absurd hlen (Nat.not_lt_zero _)
  | succ n ih =>
      intro o hdepth hs halone
      refine (?_ : Spares b (depth + 1) s _) o hdepth hs halone
      cases hfind : s.find id with
      | none =>
        rw [removeConnectionHandleIn, hfind]
        exact Spares.refl s
      | some p =>
        have hid := (hs id p hfind).1
        have hzero : id ≠ 0 := by
          rintro rfl
          rw [halone.noZero] at hfind
          cases hfind
        have hlt := handles_length_erase_lt hfind
        have herase : Spares b (depth + 1) s (s.erase id) :=
          .of_change (.erase s id) (by rw [find_erase, if_neg (Ne.symm hne)])
        rw [removeConnectionHandleIn, hfind]
        have hkeeps : ∀ t u, Changes Scope.inner t u →
            (t.objects p).currentBusId = id ∧ t.handles.length < n →
            (u.objects p).currentBusId = id ∧ u.handles.length < n :=
          fun t u hchanges h => ⟨(hchanges.frame.currentBusId p).trans h.1,
            Nat.lt_of_le_of_lt hchanges.handles_length h.2⟩
        have hupstream := unbindProxyOf_spares hreenter (s.erase id) p
        obtain ⟨herased, hfound⟩ := herase o hdepth hs halone
        obtain ⟨hleft, -⟩ := hupstream o hdepth (herased.wellFormed hs)
          (halone.changes herased hfound)
        exact (herase.trans hupstream).trans (Spares.foldl hkeeps
          (fun t downstream ht =>
            removeDownstream_spares hreenter (fun hne hlt => ih hne hlt) ht.2 ht.1 hzero downstream)
          _ (hkeeps _ _ hleft ⟨hid, by omega⟩))

theorem removeConnectionHandle_spares {s : Connector} {id : Nat} (hne : id ≠ b) :
    Spares b (depth + 1) s (s.removeConnectionHandle reenter id) :=
  removeConnectionHandleIn_spares hreenter hne (Nat.lt_succ_self _)

/-- Giving up another entry. -/
theorem abandon_spares {s : Connector} {id : Nat} (hne : id ≠ b) :
    Spares b (depth + 1) s
      ({ s with abandoned := id :: s.abandoned }.removeConnectionHandle reenter id) :=
  (Spares.of_change (.abandon s id) rfl).trans (removeConnectionHandle_spares hreenter hne)

theorem ReconnectsOnly.spares {id : Nat} (h : ReconnectsOnly reenter id s t) (hne : id ≠ b) :
    Spares b (depth + 1) s t := by
  obtain ⟨u, hquiet, hnext⟩ := h
  rcases hnext with hkept | hgone
  · rw [hkept]
    exact .of_quiet hquiet
  · rw [hgone]
    exact (Spares.of_quiet hquiet).trans (abandon_spares hreenter hne)

theorem onRemoveEndpointWith_spares {s : Connector} {id : Nat} (hne : id ≠ b) :
    Spares b (depth + 1) s (s.onRemoveEndpointWith reenter id) := by
  intro o hdepth hs halone
  refine (?_ : Spares b (depth + 1) s _) o hdepth hs halone
  simp only [onRemoveEndpointWith]
  cases hfind : s.find id with
  | none => exact Spares.refl s
  | some p =>
    dsimp only
    by_cases hkeep : (!s.needKeepHandle p) = true
    · rw [if_pos hkeep]
      exact removeConnectionHandle_spares hreenter hne
    · rw [if_neg hkeep]
      set armed := if (s.objects p).reconnectNextTimepoint ≤ s.around.sysNow then
        s.setupReconnectTimer reenter id none else (s, true) with harmed
      have hcases : armed.2 = true ∧ Quiet s armed.1 ∨
          armed.2 = false ∧ Spares b (depth + 1) s armed.1 := by
        rw [harmed]
        split_ifs
        · rcases setupReconnectTimer_cases reenter hfind none with h | ⟨hgone, heq⟩
          · exact .inl h
          · right
            rw [heq]
            exact ⟨hgone, abandon_spares hreenter hne⟩
        · exact .inl ⟨rfl, .refl s⟩
      rcases hcases with ⟨hkept, hquiet⟩ | ⟨hgone, hspares⟩
      · have hnot : (!armed.2) = true ↔ False := by simp [hkept]
        simp only [hnot, if_false]
        have hwf := hquiet.leads.wellFormed hs
        have hspares : Spares b (depth + 1) s armed.1 := .of_quiet hquiet
        have hreconnect : Spares b (depth + 1) armed.1
            (armed.1.tryDirectReconnect reenter p).1 :=
          (tryDirectReconnect_reconnectsOnly reenter hwf ((hquiet.find id).trans hfind)).spares
            hreenter hne
        split_ifs
        · exact hspares
        · exact hspares
        · exact (hspares.trans hreconnect).trans (removeConnectionHandle_spares hreenter hne)
        · exact hspares.trans hreconnect
      · rw [if_pos (by simp [hgone])]
        exact hspares

/-- Binding the target to a proxy leaves its entry and its handle as they are. -/
theorem bindConnectionHandleProxy_target (hdepth : s.endpoints.length < depth + 1)
    (hs : s.WellFormed) (htarget : Target b o s) (proxy : Nat) :
    (s.bindConnectionHandleProxy reenter o proxy).find b = some o ∧
      ((s.bindConnectionHandleProxy reenter o proxy).objects o).appHandle =
        (s.objects o).appHandle := by
  have hbind : ∀ (t : Connector) (id : Nat) (ids : ConnectionHandleData → List Nat),
      t.find b = some o → (t.objects o).appHandle = (s.objects o).appHandle →
      let bound := (t.modify o fun h => { h with proxyBusId := id }).modify proxy fun h =>
        { h with proxyForBusId := ids h }
      bound.find b = some o ∧ (bound.objects o).appHandle = (s.objects o).appHandle := by
    intro t id ids hfind happ
    refine ⟨hfind, ?_⟩
    rw [objects_modify]
    split_ifs with heq
    · rw [← heq, objects_modify_self]
      exact happ
    · rw [objects_modify_self]
      exact happ
  simp only [bindConnectionHandleProxy]
  split_ifs with hbound hself hproxy
  · exact ⟨htarget.found, rfl⟩
  · exact ⟨htarget.found, rfl⟩
  · cases hold : s.find (s.objects o).proxyBusId with
    | none => exact hbind s _ _ htarget.found rfl
    | some old =>
      obtain ⟨left, hquiet, -, hapart, hnext⟩ :=
        unbindConnectionHandleProxy_cases reenter s o old
      have hchanges := hquiet.leads hs (.inl trivial)
      have hfound := (hquiet.find b).trans htarget.found
      rcases hnext with hkept | ⟨hendpoint, hgone⟩
      · dsimp only
        rw [hkept]
        exact hbind left _ _ hfound (hchanges.frame.appHandle o)
      · have halone : Alone b o left :=
          ⟨htarget.frame hchanges.frame hfound, hapart (hs _ old hold).1.symm⟩
        obtain ⟨hchanges', hfind⟩ := disconnect_spares hreenter hendpoint o
          (by rw [hquiet.endpoints]; exact hdepth) (hchanges.wellFormed hs) halone
        dsimp only
        rw [hgone]
        exact hbind _ _ _ hfind ((hchanges.trans hchanges').frame.appHandle o)
  · exact hbind s _ _ htarget.found rfl

end Reentrant

/-- The end of another endpoint, with all that it calls, spares the target. -/
theorem onRemoveEndpointIn_spares {id : Nat} (hne : id ≠ b) (s : Connector) :
    Spares b depth s (onRemoveEndpointIn depth s id) := by
  induction depth generalizing s id with
  | zero => exact fun _ hdepth => absurd hdepth (Nat.not_lt_zero _)
  | succ depth ih => exact onRemoveEndpointWith_spares (fun s id hne => ih hne s) hne

end Connector

end LibAtapp.Atbus
