import LibAtapp.Etcdcli.DiscoveryNode
import LibAtapp.Library.Run

set_option autoImplicit false

/-! # Rotation over the ingresses of a node

`next_ingress_gateway` goes round the gateways of a node, or round its listen addresses where it has
no gateway, with a position and a gateway of its own that survive `copy_from`. The position is
brought into range by every call, so the rotation follows the current lists. The gateway is not: a
node that has lost all its addresses still gives the last listen address that it gave before. -/

namespace LibAtapp

/-- The members of `etcd_discovery_node` that the rotation works on. -/
structure IngressNode where
  node : EtcdDiscoveryNode := {}
  ingressIndex : Int := 0
  ingressForListen : AtappGateway := {}

namespace IngressNode

variable (n : IngressNode)

/-- The gateways of the current info. -/
abbrev gateways : List AtappGateway := n.node.nodeInfo.gateways

/-- The listen addresses of the current info. -/
abbrev listen : List Bytes := n.node.nodeInfo.listen

/-- `copy_from`. -/
def copyFrom (cfg : HashConfig) (input : AtappDiscovery) (version : EtcdDataVersion)
    (contextAddr : Nat) : IngressNode :=
  { n with node := n.node.copyFrom cfg input version contextAddr }

/-- `reset_ingress_index`. -/
def resetIngressIndex : IngressNode := { n with ingressIndex := 0 }

/-- The position in a list of this size. -/
def wrapIndex (index size : Int) : Int := if index ≥ size then index.tmod size else index

/-- `next_ingress_gateway`. -/
def nextIngressGateway : IngressNode × AtappGateway :=
  let index := if n.ingressIndex < 0 then 0 else n.ingressIndex
  if n.gateways.length > 0 then
    let index := wrapIndex index n.gateways.length
    ({ n with ingressIndex := index + 1 }, n.gateways.getD index.toNat {})
  else if n.listen.length > 0 then
    let index := wrapIndex index n.listen.length
    let gateway := { n.ingressForListen with address := n.listen.getD index.toNat [] }
    ({ n with ingressIndex := index + 1, ingressForListen := gateway }, gateway)
  else ({ n with ingressIndex := index }, n.ingressForListen)

/-- `get_ingress_size`. -/
def getIngressSize : Nat := if n.gateways.length > 0 then n.gateways.length else n.listen.length

/-- What this many calls of `next_ingress_gateway` return. -/
def nextIngressGateways (n : IngressNode) : Nat → List AtappGateway
  | 0 => []
  | calls + 1 => n.nextIngressGateway.2 :: n.nextIngressGateway.1.nextIngressGateways calls

/-- The ingresses of the current info: its gateways, else one for each listen address. -/
def ingresses : List AtappGateway :=
  if n.gateways = [] then n.listen.map fun address => { address := address } else n.gateways

/-- The position is not negative, and the gateway of the node only has an address. -/
structure WellFormed : Prop where
  index : 0 ≤ n.ingressIndex
  listening : n.ingressForListen = { address := n.ingressForListen.address }

/-! ## One call -/

variable {n}

theorem wrapIndex_spec {index size : Int} (hindex : 0 ≤ index) (hsize : 0 < size) :
    (0 ≤ wrapIndex index size ∧ wrapIndex index size < size) ∧
      (index < size → wrapIndex index size = index) := by
  unfold wrapIndex
  split
  · next hge =>
    rw [Int.tmod_eq_emod_of_nonneg hindex]
    exact ⟨⟨Int.emod_nonneg _ (by omega), Int.emod_lt_of_pos _ hsize⟩, fun h => by omega⟩
  · exact ⟨⟨hindex, by omega⟩, fun _ => rfl⟩

theorem length_ingresses : n.ingresses.length = n.getIngressSize := by
  unfold ingresses getIngressSize
  by_cases h : n.gateways = []
  · simp [h]
  · rw [if_neg h, if_pos (List.length_pos_iff.2 h)]

/-- With ingresses, a call gives the one at its position, which it brings into range, and moves on by
    one. -/
theorem nextIngressGateway_spec (hn : n.WellFormed) (hsome : n.ingresses ≠ []) :
    ∃ i : Nat, n.ingresses[i]? = some n.nextIngressGateway.2 ∧
      n.nextIngressGateway.1.ingressIndex = i + 1 ∧
      (n.ingressIndex < n.getIngressSize → (i : Int) = n.ingressIndex) := by
  obtain ⟨hindex, hlistening⟩ := hn
  have hnonneg : ¬ n.ingressIndex < 0 := by omega
  unfold ingresses at hsome ⊢
  unfold nextIngressGateway getIngressSize
  simp only [if_neg hnonneg]
  by_cases hgateways : n.gateways = []
  · rw [if_pos hgateways] at hsome ⊢
    have hlisten : n.listen ≠ [] := fun h => hsome (by rw [h]; rfl)
    have hsize := List.length_pos_iff.2 hlisten
    have hzero : ¬ n.gateways.length > 0 := by simp [hgateways]
    rw [if_neg hzero, if_neg hzero, if_pos hsize]
    obtain ⟨⟨hlow, hhigh⟩, hsame⟩ := wrapIndex_spec hindex (Int.ofNat_lt.2 hsize)
    generalize wrapIndex n.ingressIndex n.listen.length = index at *
    refine ⟨index.toNat, ?_, by dsimp only; omega, fun h => by rw [← hsame h]; omega⟩
    rw [List.getElem?_map, List.getD_eq_getElem?_getD, List.getElem?_eq_getElem (by omega),
      hlistening]
    rfl
  · rw [if_neg hgateways] at hsome ⊢
    have hsize := List.length_pos_iff.2 hgateways
    rw [if_pos hsize, if_pos hsize]
    obtain ⟨⟨hlow, hhigh⟩, hsame⟩ := wrapIndex_spec hindex (Int.ofNat_lt.2 hsize)
    generalize wrapIndex n.ingressIndex n.gateways.length = index at *
    refine ⟨index.toNat, ?_, by dsimp only; omega, fun h => by rw [← hsame h]; omega⟩
    rw [List.getD_eq_getElem?_getD, List.getElem?_eq_getElem (by omega)]
    rfl

/-- Without ingresses, a call gives the gateway of the node. -/
theorem nextIngressGateway_of_nil (hn : n.WellFormed) (hnone : n.ingresses = []) :
    n.nextIngressGateway = (n, n.ingressForListen) := by
  have hnonneg : ¬ n.ingressIndex < 0 := not_lt.2 hn.index
  have hgateways : n.gateways = [] := by
    by_contra h
    rw [ingresses, if_neg h] at hnone
    exact h hnone
  rw [ingresses, if_pos hgateways, List.map_eq_nil_iff] at hnone
  simp [nextIngressGateway, hgateways, hnone, hnonneg]

/-- A call leaves the info of the node alone. -/
theorem node_nextIngressGateway : n.nextIngressGateway.1.node = n.node := by
  unfold nextIngressGateway
  dsimp only
  split
  · rfl
  · split <;> rfl

theorem WellFormed.nextIngressGateway (hn : n.WellFormed) :
    n.nextIngressGateway.1.WellFormed := by
  constructor
  · by_cases hsome : n.ingresses = []
    · rw [nextIngressGateway_of_nil hn hsome]
      exact hn.index
    · obtain ⟨i, -, hi, -⟩ := nextIngressGateway_spec hn hsome
      omega
  · unfold IngressNode.nextIngressGateway
    dsimp only
    split
    · exact hn.listening
    · split
      · rw [hn.listening]
      · exact hn.listening

/-- From a position in range on, the calls give the ingresses one after the other. -/
theorem nextIngressGateways_eq (calls : Nat) (n : IngressNode) (hn : n.WellFormed) {i : Nat}
    (hi : n.ingressIndex = i) (hle : i + calls ≤ n.getIngressSize) :
    n.nextIngressGateways calls = (n.ingresses.drop i).take calls := by
  induction calls generalizing n i with
  | zero => simp [nextIngressGateways]
  | succ calls ih =>
    have hlength := length_ingresses (n := n)
    have hlt : i < n.ingresses.length := by omega
    have hsome : n.ingresses ≠ [] := List.ne_nil_of_length_pos (by omega)
    obtain ⟨j, hj, hnext, hin⟩ := nextIngressGateway_spec hn hsome
    obtain rfl : j = i := by
      have hsame := hin (by omega)
      omega
    have hnode := node_nextIngressGateway (n := n)
    have hing : n.nextIngressGateway.1.ingresses = n.ingresses := by
      simp only [ingresses, gateways, listen, hnode]
    have hsize : n.nextIngressGateway.1.getIngressSize = n.getIngressSize := by
      simp only [getIngressSize, gateways, listen, hnode]
    rw [nextIngressGateways, ih _ hn.nextIngressGateway (i := j + 1) hnext (by omega), hing,
      List.drop_eq_getElem_cons hlt, List.take_succ_cons]
    rw [List.getElem?_eq_getElem hlt] at hj
    rw [Option.some.inj hj]

end IngressNode

/-! ## Runs -/

/-- A call on one node. -/
inductive IngressOp
  | copyFrom (input : AtappDiscovery) (version : EtcdDataVersion) (contextAddr : Nat)
  | resetIngressIndex
  | nextIngressGateway

namespace IngressNode

/-- One call. -/
def step (cfg : HashConfig) (n : IngressNode) : IngressOp → IngressNode
  | .copyFrom input version contextAddr => n.copyFrom cfg input version contextAddr
  | .resetIngressIndex => n.resetIngressIndex
  | .nextIngressGateway => n.nextIngressGateway.1

/-- What a call of `next_ingress_gateway` must return, and where it must leave the position. -/
structure FollowsAddresses (n : IngressNode) : Prop where
  gateway : n.gateways ≠ [] → n.nextIngressGateway.2 ∈ n.gateways
  listen : n.gateways = [] → n.listen ≠ [] →
    ∃ address ∈ n.listen, n.nextIngressGateway.2 = { address := address }
  empty : n.gateways = [] → n.listen = [] → n.nextIngressGateway.2.address = []
  index : n.getIngressSize ≠ 0 → 0 < n.nextIngressGateway.1.ingressIndex ∧
    n.nextIngressGateway.1.ingressIndex ≤ n.getIngressSize

/-- **The rotation follows the current addresses**: every call returns one of them, and after a
    reset the next calls return each of them once, in order. -/
def Rotates (n : IngressNode) : IngressOp → Prop
  | .copyFrom _ _ _ => True
  | .resetIngressIndex =>
    n.resetIngressIndex.nextIngressGateways n.getIngressSize = n.ingresses
  | .nextIngressGateway => n.FollowsAddresses

/-- **The condition on a call.** A node that has neither gateways nor listen addresses has given no
    listen address before, or the last one that it gave is empty. -/
def GaveNothing (n : IngressNode) : IngressOp → Prop
  | .nextIngressGateway =>
    n.gateways = [] → n.listen = [] → n.ingressForListen.address = []
  | _ => True

instance (n : IngressNode) : ∀ op, Decidable (GaveNothing n op)
  | .nextIngressGateway => inferInstanceAs (Decidable (_ = [] → _ = [] → _ = []))
  | .copyFrom _ _ _ | .resetIngressIndex => inferInstanceAs (Decidable True)

variable {n : IngressNode}

theorem WellFormed.step (cfg : HashConfig) (hn : n.WellFormed) (op : IngressOp) :
    (n.step cfg op).WellFormed := by
  cases op with
  | copyFrom input version contextAddr => exact ⟨hn.index, hn.listening⟩
  | resetIngressIndex => exact ⟨le_refl 0, hn.listening⟩
  | nextIngressGateway => exact hn.nextIngressGateway

theorem followsAddresses_iff (hn : n.WellFormed) :
    n.FollowsAddresses ↔ (n.gateways = [] → n.listen = [] → n.ingressForListen.address = []) := by
  have hnil : n.gateways = [] → n.listen = [] → n.ingresses = [] := by
    intro hgateways hlisten
    simp [ingresses, hgateways, hlisten]
  constructor
  · intro h hgateways hlisten
    have hempty := h.empty hgateways hlisten
    rwa [nextIngressGateway_of_nil hn (hnil hgateways hlisten)] at hempty
  · intro h
    refine ⟨fun hgateways => ?_, fun hgateways hlisten => ?_, fun hgateways hlisten => ?_,
      fun hsize => ?_⟩
    · have hing : n.ingresses = n.gateways := if_neg hgateways
      obtain ⟨i, hi, -⟩ := nextIngressGateway_spec hn (hing ▸ hgateways)
      exact hing ▸ List.mem_of_getElem? hi
    · have hing : n.ingresses = n.listen.map fun address => { address := address } :=
        if_pos hgateways
      obtain ⟨i, hi, -⟩ := nextIngressGateway_spec hn (by simpa [hing] using hlisten)
      have hmem := List.mem_of_getElem? hi
      rw [hing, List.mem_map] at hmem
      obtain ⟨address, haddress, heq⟩ := hmem
      exact ⟨address, haddress, heq.symm⟩
    · rw [nextIngressGateway_of_nil hn (hnil hgateways hlisten)]
      exact h hgateways hlisten
    · rw [← length_ingresses] at hsize
      obtain ⟨i, hi, hnext, -⟩ :=
        nextIngressGateway_spec hn (List.ne_nil_of_length_pos (Nat.pos_of_ne_zero hsize))
      obtain ⟨hlt, -⟩ := List.getElem?_eq_some_iff.1 hi
      rw [length_ingresses] at hlt
      omega

theorem rotates_iff (hn : n.WellFormed) (op : IngressOp) : n.Rotates op ↔ n.GaveNothing op := by
  cases op with
  | copyFrom input version contextAddr => exact Iff.rfl
  | resetIngressIndex =>
    refine iff_of_true ?_ trivial
    have hreset : n.resetIngressIndex.WellFormed := ⟨le_refl 0, hn.listening⟩
    have hall := nextIngressGateways_eq n.getIngressSize n.resetIngressIndex hreset (i := 0) rfl
      (by rw [Nat.zero_add]; rfl)
    rw [List.drop_zero, List.take_of_length_le (by rw [length_ingresses]; rfl)] at hall
    exact hall
  | nextIngressGateway => exact followsAddresses_iff hn

/-- **Ingress rotation follows the current addresses** in exactly those runs of a new node in which
    no call asks for an ingress of a node that has lost all of them, where the last listen address
    that it gave is not empty. -/
theorem rotates_run_iff (cfg : HashConfig) (ops : List IngressOp) :
    Run.StepsMeet (step cfg) Rotates {} ops ↔ Run.StepsMeet (step cfg) GaveNothing {} ops := by
  have hnew : WellFormed {} := ⟨le_refl 0, rfl⟩
  have hstep : ∀ (p : IngressNode → IngressOp → Prop) n op, WellFormed n → p n op →
      WellFormed (step cfg n op) := fun _ n op hn _ => hn.step cfg op
  constructor
  · exact Run.stepsMeet_of_invariant (step cfg) (hstep Rotates)
      (fun _ op hn h => (rotates_iff hn op).1 h) hnew
  · exact Run.stepsMeet_of_invariant (step cfg) (hstep GaveNothing)
      (fun _ op hn h => (rotates_iff hn op).2 h) hnew

/-- A node gives its one listen address and is then registered without addresses. -/
def lostAddressRun : List IngressOp :=
  [.copyFrom { listen := [ascii "a"] } {} 0, .nextIngressGateway, .copyFrom {} {} 0,
    .nextIngressGateway]

/-- The last call still gives the old address. -/
theorem not_rotates_lostAddressRun :
    ¬ ∀ (cfg : HashConfig) (ops : List IngressOp), Run.StepsMeet (step cfg) Rotates {} ops := by
  intro hall
  obtain ⟨-, -, -, h, -⟩ := hall ⟨fun _ _ => (0, 0), 0⟩ lostAddressRun
  exact absurd (FollowsAddresses.empty h rfl rfl) (by decide)

end IngressNode

end LibAtapp
