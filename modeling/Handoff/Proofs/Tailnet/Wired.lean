import Mathlib.Algebra.GroupWithZero.Nat
import Handoff.Tailnet.Network

namespace Handoff.Tailnet

section Hosts
variable {j k : Nat}

theorem hostV4_inj (hj : j < 2 ^ 32) (hk : k < 2 ^ 32) (h : hostV4 j = hostV4 k) : j = k := by
  simp only [hostV4, V4.ofNat, V4.mk.injEq, ← UInt8.toNat_inj, UInt8.toNat_ofNat'] at h
  omega

theorem hostV6_inj (hj : j < 2 ^ 32) (hk : k < 2 ^ 32) (h : hostV6 j = hostV6 k) : j = k := by
  simp only [hostV6, V6.ofNat, V6.mk.injEq, List.map_cons, List.map_nil, List.cons.injEq,
    ← UInt16.toNat_inj, UInt16.toNat_ofNat', Nat.pow_eq] at h
  omega

theorem mem_addresses {node : Node} {ip : Address} :
    ip ∈ node.addresses ↔
      ∃ k, node.host = some k ∧ (ip = .v4 (hostV4 k) ∨ ip = .v6 (hostV6 k)) := by
  unfold Node.addresses
  cases node.host <;> simp

/-- Nodes with different numbers share no address. -/
theorem host_unique {a b : Node} {ip : Address} (ha : ip ∈ a.addresses) (hb : ip ∈ b.addresses)
    (hj : a.host = some j) (hk : b.host = some k) (hlj : j < 2 ^ 32) (hlk : k < 2 ^ 32) :
    j = k := by
  obtain ⟨j', hj', ha⟩ := mem_addresses.mp ha
  obtain ⟨k', hk', hb⟩ := mem_addresses.mp hb
  obtain rfl := Option.some.inj (hj.symm.trans hj')
  obtain rfl := Option.some.inj (hk.symm.trans hk')
  rcases ha with rfl | rfl <;> rcases hb with hb | hb
  · exact hostV4_inj hlj hlk (Address.v4.inj hb)
  · cases hb
  · cases hb
  · exact hostV6_inj hlj hlk (Address.v6.inj hb)

end Hosts

variable {t t' t'' : Tailnet} {l : ListenerId} {n : NodeId}

def Open (t : Tailnet) (l : ListenerId) : Prop :=
  (t.listener l).closed = false

instance (t : Tailnet) (l : ListenerId) : Decidable (t.Open l) :=
  inferInstanceAs (Decidable (_ = _))

def Serves (t : Tailnet) (l : ListenerId) (e : Endpoint) : Prop :=
  t.Open l ∧ e ∈ (t.listener l).addresses

instance (t : Tailnet) (l : ListenerId) (e : Endpoint) : Decidable (t.Serves l e) :=
  inferInstanceAs (Decidable (_ ∧ _))

def Runs (t : Tailnet) (n : NodeId) : Prop :=
  (t.node n).phase = .running

/-- Sockets, routes and the listeners behind them fit together. -/
structure Wired (t : Tailnet) : Prop where
  made : ∀ l, t.Open l → l < t.listeners
  listed : ∀ n, ∀ l ∈ (t.node n).listeners, l < t.listeners
  held : ∀ l, t.Open l → 0 < (t.listener l).holders
  bound : ∀ l, 0 < (t.listener l).holders → t.bound (t.listener l).backing = some l
  routed : ∀ e r, t.registry.routes e = some r → ∃ l, t.Serves l e ∧ r = (t.listener l).route

/-- Every open listener belongs to a running node and is reached under addresses of that node, and
while the nodes' addresses do not repeat, under all of its own. -/
structure Owned (t : Tailnet) : Prop where
  hosts : ∀ n k, (t.node n).host = some k → k ≤ t.registry.lastHost
  distinct : ∀ n m k, (t.node n).host = some k → (t.node m).host = some k → n = m
  owner : ∀ l, t.Open l → ∃ n, t.Runs n ∧ l ∈ (t.node n).listeners ∧
    ∀ e ∈ (t.listener l).addresses, e.ip ∈ (t.node n).addresses
  routed : t.registry.lastHost < 2 ^ 32 →
    ∀ l e, t.Serves l e → t.registry.routes e = some (t.listener l).route

theorem Owned.reached (h : Owned t) (hlast : t.registry.lastHost < 2 ^ 31) :
    ∀ l e, t.Serves l e → t.registry.routes e = some (t.listener l).route :=
  h.routed (Nat.lt_trans hlast (by decide))

/-- Only one node has an address, as long as the nodes' numbers have not run out. -/
theorem Owned.address_unique (h : Owned t) (hk : t.registry.lastHost < 2 ^ 32) {n m : NodeId}
    {ip : Address} (hn : ip ∈ (t.node n).addresses) (hm : ip ∈ (t.node m).addresses) : m = n := by
  obtain ⟨j, hj, -⟩ := mem_addresses.mp hn
  obtain ⟨k, hk', -⟩ := mem_addresses.mp hm
  obtain rfl := host_unique hn hm hj hk' (Nat.lt_of_le_of_lt (h.hosts n j hj) hk)
    (Nat.lt_of_le_of_lt (h.hosts m k hk') hk)
  exact h.distinct m n j hk' hj

/-- Two open listeners share no socket. -/
theorem Wired.backing_inj (hw : Wired t) {l l' : ListenerId} (hl : t.Open l) (hl' : t.Open l')
    (h : (t.listener l).backing = (t.listener l').backing) : l = l' := by
  have hb := hw.bound l (hw.held l hl)
  rw [h, hw.bound l' (hw.held l' hl')] at hb
  exact (Option.some.inj hb).symm

/-- What everything does that opens no listener: the network stays sound, and no node has a
listener it did not have before. -/
structure Kept (t t' : Tailnet) : Prop where
  wired : Wired t'
  owned : Owned t → Owned t'
  listeners : t'.listeners = t.listeners
  nodes : t.nodes ≤ t'.nodes
  count : t.streams.count ≤ t'.streams.count
  lists : ∀ n, (t'.node n).listeners ⊆ (t.node n).listeners

structure Calm (t t' : Tailnet) : Prop extends Kept t t' where
  steady : ∀ l, t'.Open l → t'.listener l = t.listener l

theorem Kept.refl (hw : Wired t) : Kept t t :=
  ⟨hw, id, rfl, Nat.le_refl _, Nat.le_refl _, fun _ => List.Subset.refl _⟩

theorem Kept.trans (h : Kept t t') (h' : Kept t' t'') : Kept t t'' where
  wired := h'.wired
  owned := h'.owned ∘ h.owned
  listeners := h'.listeners.trans h.listeners
  nodes := Nat.le_trans h.nodes h'.nodes
  count := Nat.le_trans h.count h'.count
  lists := fun n => List.Subset.trans (h'.lists n) (h.lists n)

theorem Calm.refl (hw : Wired t) : Calm t t :=
  ⟨.refl hw, fun _ _ => rfl⟩

theorem Calm.open (h : Calm t t') {l : ListenerId} (hl : t'.Open l) : t.Open l := by
  have hs := h.steady l hl
  rwa [Open, hs] at hl

theorem Calm.trans (h : Calm t t') (h' : Calm t' t'') : Calm t t'' :=
  ⟨h.toKept.trans h'.toKept, fun l hl => (h'.steady l hl).trans (h.steady l (h'.open hl))⟩

/-- Two states that differ in nothing that routes or owns. -/
structure Same (t t' : Tailnet) : Prop where
  listener : ∀ l, ∃ backlog, t'.listener l = { t.listener l with backlog }
  listeners : t'.listeners = t.listeners
  bound : t'.bound = t.bound
  routes : t'.registry.routes = t.registry.routes
  lastHost : t'.registry.lastHost = t.registry.lastHost
  phase : ∀ n, (t'.node n).phase = (t.node n).phase
  host : ∀ n, (t'.node n).host = (t.node n).host
  lists : ∀ n, (t'.node n).listeners = (t.node n).listeners
  nodes : t.nodes ≤ t'.nodes
  count : t.streams.count ≤ t'.streams.count

namespace Same
variable (h : Same t t')
include h

theorem closed (l : ListenerId) : (t'.listener l).closed = (t.listener l).closed := by
  obtain ⟨b, hb⟩ := h.listener l
  rw [hb]

theorem holders (l : ListenerId) : (t'.listener l).holders = (t.listener l).holders := by
  obtain ⟨b, hb⟩ := h.listener l
  rw [hb]

theorem backing (l : ListenerId) : (t'.listener l).backing = (t.listener l).backing := by
  obtain ⟨b, hb⟩ := h.listener l
  rw [hb]

theorem addresses (l : ListenerId) : (t'.listener l).addresses = (t.listener l).addresses := by
  obtain ⟨b, hb⟩ := h.listener l
  rw [hb]

theorem route (l : ListenerId) : (t'.listener l).route = (t.listener l).route := by
  obtain ⟨b, hb⟩ := h.listener l
  rw [hb]
  rfl

theorem nodeAddresses (n : NodeId) : (t'.node n).addresses = (t.node n).addresses := by
  rw [Node.addresses, Node.addresses, h.host]

theorem kept (hw : Wired t) : Kept t t' where
  wired := {
    made := fun l hl => by
      rw [Open, h.closed] at hl
      rw [h.listeners]
      exact hw.made l hl
    listed := fun n l hl => by
      rw [h.lists] at hl
      rw [h.listeners]
      exact hw.listed n l hl
    held := fun l hl => by
      rw [Open, h.closed] at hl
      rw [h.holders]
      exact hw.held l hl
    bound := fun l hl => by
      rw [h.holders] at hl
      rw [h.bound, h.backing]
      exact hw.bound l hl
    routed := fun e r hr => by
      rw [h.routes] at hr
      obtain ⟨l, ⟨hl, he⟩, hr⟩ := hw.routed e r hr
      refine ⟨l, ⟨?_, ?_⟩, ?_⟩
      · rwa [Open, h.closed]
      · rwa [h.addresses]
      · rwa [h.route] }
  owned := fun ho => {
    hosts := fun n k hk => by
      rw [h.host] at hk
      rw [h.lastHost]
      exact ho.hosts n k hk
    distinct := fun n m k hn hm => by
      rw [h.host] at hn hm
      exact ho.distinct n m k hn hm
    owner := fun l hl => by
      rw [Open, h.closed] at hl
      obtain ⟨n, hr, hm, ha⟩ := ho.owner l hl
      refine ⟨n, ?_, ?_, ?_⟩
      · rwa [Runs, h.phase]
      · rwa [h.lists]
      · intro e he
        rw [h.addresses] at he
        rw [h.nodeAddresses]
        exact ha e he
    routed := fun hk l e ⟨hl, he⟩ => by
      rw [h.lastHost] at hk
      rw [Open, h.closed] at hl
      rw [h.addresses] at he
      rw [h.routes, h.route]
      exact ho.routed hk l e ⟨hl, he⟩ }
  listeners := h.listeners
  nodes := h.nodes
  count := h.count
  lists := fun n => by rw [h.lists]; exact List.Subset.refl _

/-- Where no backlog changes either. -/
theorem calm (hw : Wired t) (hl : t'.listener = t.listener) : Calm t t' :=
  ⟨h.kept hw, fun l _ => by rw [hl]⟩

end Same
end Handoff.Tailnet
