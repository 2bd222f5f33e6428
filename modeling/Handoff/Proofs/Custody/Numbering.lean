import Handoff.Proofs.Bridge.Retrying
import Handoff.Proofs.Custody.Naming
import Handoff.Proofs.Custody.Standing
import Handoff.Proofs.Tailnet.Numbering

namespace Handoff.Custody
open Tailnet (Counted Numbers hostV4 hostV6 firstV4 firstV6)
variable {c c' : Custody} {started : List NodeId} {n m : NodeId}

/-- Nothing that happens gives out two numbers. -/
theorem numbers_move (hr : Reachable c) (hm : Move c c') : Numbers c.net c'.net := by
  obtain ⟨n, hserved | hended⟩ := registers_move hr.intact.wired hm
  · exact hserved.numbers
  · exact hended.numbers

/-- One node starts at a time. -/
theorem starts_unique (hr : Reachable c) (hm : Move c c') (hn : c.net.Starts c'.net n)
    (hk : c.net.Starts c'.net m) : m = n := by
  rcases numbers_move hr hm with ⟨hnobody, -, -⟩ | ⟨k, hstarts, -, -, -⟩
  · exact absurd hn (hnobody n)
  · rw [(hstarts n).mp hn, (hstarts m).mp hk]

theorem Chronicle.count (h : Chronicle started c) :
    c.net.registry.lastHost = started.length := by
  induction h with
  | begin suffix supply loopbackUp files => rfl
  | idle hc hm hidle ih =>
    rcases numbers_move hc.reachable hm with ⟨-, hlast, -⟩ | ⟨n, hstarts, -⟩
    · rw [hlast, ih]
    · exact absurd ((hstarts n).mpr rfl) (hidle n)
  | start n hc hm hn ih =>
    rcases numbers_move hc.reachable hm with ⟨hnobody, -, -⟩ | ⟨m, -, hnext, -, -⟩
    · exact absurd hn (hnobody n)
    · rw [hnext, ih, List.length_cons]

theorem Chronicle.past (h : Chronicle started c) (hn : n ∈ started) :
    (c.net.node n).phase ≠ .fresh := by
  have hstep : ∀ {c c' : Custody}, Reachable c → Move c c' → (c.net.node n).phase ≠ .fresh →
      (c'.net.node n).phase ≠ .fresh := by
    intro c c' hr hm hpast hfresh
    have hleads := (meets_move hr hm n).leads
    rw [hfresh] at hleads
    cases hphase : (c.net.node n).phase with
    | fresh => exact hpast hphase
    | running => exact (hphase ▸ hleads) rfl
    | closed => cases (hphase ▸ hleads : Tailnet.Phase.Leads .closed .fresh)
  induction h with
  | begin suffix supply loopbackUp files => cases hn
  | idle hc hm _ ih => exact hstep hc.reachable hm (ih hn)
  | start m hc hm hstarts ih =>
    rcases List.mem_cons.mp hn with rfl | hn
    · intro hfresh
      cases hstarts.2.symm.trans hfresh
    · exact hstep hc.reachable hm (ih hn)

theorem Chronicle.counted (h : Chronicle started c) : Counted started c.net := by
  induction h with
  | begin suffix supply loopbackUp files => exact ⟨List.nodup_nil, nofun, fun _ _ => rfl⟩
  | idle hc hm hidle ih =>
    rcases numbers_move hc.reachable hm with ⟨-, -, hhost⟩ | ⟨n, hstarts, -⟩
    · exact ih.same hhost
    · exact absurd ((hstarts n).mpr rfl) (hidle n)
  | start n hc hm hn ih =>
    rcases numbers_move hc.reachable hm with ⟨hnobody, -, -⟩ | ⟨m, hstarts, hnext, hself, hhost⟩
    · exact absurd hn (hnobody n)
    · obtain rfl := (hstarts n).mp hn
      rw [hnext, hc.count] at hself
      exact ih.next (fun hmem => hc.past hmem hn.1) hself hhost

/-- Whoever runs has started. -/
theorem Chronicle.mem_of_runs (h : Chronicle started c) (hn : c.net.Runs n) : n ∈ started := by
  have hstep : ∀ {c c' : Custody}, Reachable c → Move c c' → c'.net.Runs n →
      c.net.Runs n ∨ c.net.Starts c'.net n := by
    intro c c' hr hm hruns
    have hleads := (meets_move hr hm n).leads
    rw [show (c'.net.node n).phase = .running from hruns] at hleads
    cases hphase : (c.net.node n).phase with
    | fresh => exact .inr ⟨hphase, hruns⟩
    | running => exact .inl hphase
    | closed =>
      rw [hphase] at hleads
      cases hleads
  induction h with
  | begin suffix supply loopbackUp files => cases hn
  | idle hc hm hidle ih =>
    rcases hstep hc.reachable hm hn with hran | hstarts
    · exact ih hran
    · exact absurd hstarts (hidle n)
  | start k hc hm hk ih =>
    rcases hstep hc.reachable hm hn with hran | hstarts
    · exact List.mem_cons_of_mem _ (ih hran)
    · rw [starts_unique hc.reachable hm hk hstarts]
      exact List.mem_cons_self ..

/-- Whatever happens later, the nodes that have started did so first. -/
theorem Chronicle.later (h : Chronicle started c) (hl : Later c c') :
    ∃ more, Chronicle (more ++ started) c' := by
  induction hl with
  | refl => exact ⟨[], h⟩
  | @tail c₁ c₂ _ hm ih =>
    obtain ⟨more, hc⟩ := ih
    by_cases hstarts : ∃ n, c₁.net.Starts c₂.net n
    · obtain ⟨n, hn⟩ := hstarts
      exact ⟨n :: more, hc.start n hm hn⟩
    · exact ⟨more, hc.idle hm fun n hn => hstarts ⟨n, hn⟩⟩

/-- Who has which addresses, where the nodes of `started` have started, the last one first. -/
structure Assigns (started : List NodeId) (c : Custody) : Prop where
  once : started.Nodup
  runs : ∀ n, c.net.Runs n → n ∈ started
  count : c.net.registry.lastHost = started.length
  addresses : ∀ k n, started.reverse[k]? = some n →
    (c.net.node n).addresses = [.v4 (hostV4 (k + 1)), .v6 (hostV6 (k + 1))]
  unstarted : ∀ n, n ∉ started → (c.net.node n).addresses = []
  v4 : ∀ k, k < started.length → (hostV4 (k + 1)).toNat = firstV4.toNat + (k + 1) ∧
    (hostV4 (k + 1)).toNat / 2 ^ 22 = firstV4.toNat / 2 ^ 22
  v6 : ∀ k, k < started.length → (hostV6 (k + 1)).toNat = firstV6.toNat + (k + 1)
  /-- A number goes to a node that starts, or none is given. -/
  moves : ∀ c', Move c c' → Numbers c.net c'.net
  failed : ∀ n f, (c.net.start n).1 = .error f → (c.net.start n).2.registry = c.net.registry ∧
    (c.net.start n).2.node = c.net.node
  repeated : ∀ n, c.net.Runs n → c.net.start n = (.ok (), c.net)
  /-- What was once a node's address is never another's. -/
  distinct : ∀ c', Later c c' → c'.net.registry.lastHost < 2 ^ 22 → ∀ n m ip,
    ip ∈ (c.net.node n).addresses → ip ∈ (c'.net.node m).addresses → m = n
  told : ∀ i h a k, (c.tables i).servers.find? h = some a → c.net.Runs a.node →
    started.reverse[k]? = some a.node →
      Bridge.Offers (·.addresses h) id (c.bridge i)
        ((Address.v4 (hostV4 (k + 1))).name ++ "," ++ (Address.v6 (hostV6 (k + 1))).name)
        (c.bridge i)

/-- A node that has started keeps its addresses. -/
theorem Chronicle.keeps (h : Chronicle started c) (hl : Later c c') (hn : n ∈ started) :
    (c'.net.node n).addresses = (c.net.node n).addresses := by
  obtain ⟨more, hc⟩ := h.later hl
  obtain ⟨k, hk⟩ := List.mem_iff_getElem?.mp (List.mem_reverse.mpr hn)
  have hlt := (List.getElem?_eq_some_iff.mp hk).1
  have hk' : (more ++ started).reverse[k]? = some n := by
    rw [List.reverse_append, List.getElem?_append_left hlt, hk]
  rw [Tailnet.addresses_of_host (h.counted.numbered k n hk),
    Tailnet.addresses_of_host (hc.counted.numbered k n hk')]

theorem Chronicle.mem_of_address (h : Chronicle started c) {ip : Address}
    (hip : ip ∈ (c.net.node n).addresses) : n ∈ started := by
  by_contra hn
  obtain ⟨k, hk, -⟩ := Tailnet.mem_addresses.mp hip
  cases hk.symm.trans (h.counted.others n hn)

theorem offers_addresses {i : Nat} {h : Handle} {a : Server} {k : Nat}
    (ha : (c.tables i).servers.find? h = some a) (hr : c.net.Runs a.node)
    (hk : (c.net.node a.node).host = some k) :
    Bridge.Offers (·.addresses h) id (c.bridge i)
      ((Address.v4 (hostV4 k)).name ++ "," ++ (Address.v6 (hostV6 k)).name) (c.bridge i) := by
  intro room
  have hnode : (c.bridge i).withNode h Network.addresses =
      (.ok [.v4 (hostV4 k), .v6 (hostV6 k)], c.bridge i) :=
    Traffic.withNode_ok (b := c.bridge i) ha
      (congrArg (fun r => (Tailnet.worded r, c.net)) (Tailnet.addresses_running hr hk))
  dsimp only
  rw [Bridge.addresses, hnode]
  rfl

/-- In every state the nodes have started in one order, and that decides their addresses while fewer
have started than their common prefix has room for. -/
theorem assigns_of_reachable (hr : Reachable c) :
    (∃ started, Chronicle started c) ∧
      ∀ started, Chronicle started c → started.length < 2 ^ 22 → Assigns started c := by
  refine ⟨hr.chronicle, fun started hc hlast => ?_⟩
  have hcounted := hc.counted
  have hroom : ∀ k, k < started.length → k + 1 < 2 ^ 22 := fun k hk =>
    Nat.lt_of_le_of_lt hk hlast
  exact {
    once := hcounted.once
    runs := fun _ => hc.mem_of_runs
    count := hc.count
    addresses := fun k n hk => Tailnet.addresses_of_host (hcounted.numbered k n hk)
    unstarted := fun n hn => by rw [Tailnet.Node.addresses, hcounted.others n hn]
    v4 := fun k hk => ⟨Tailnet.toNat_hostV4 (hroom k hk), Tailnet.prefix_hostV4 (hroom k hk)⟩
    v6 := fun k hk => Tailnet.toNat_hostV6 (hroom k hk)
    moves := fun _ => numbers_move hr
    failed := fun n f hf => by
      obtain ⟨files, he⟩ := Tailnet.start_error hf
      rw [he]
      exact ⟨rfl, rfl⟩
    repeated := fun _ => Tailnet.start_running
    distinct := fun c' hl hroom' n m ip hn hm => by
      rw [← hc.keeps hl (hc.mem_of_address hn)] at hn
      exact (hr.later hl).intact.owned.address_unique (Nat.lt_trans hroom' (by decide)) hn hm
    told := fun i h a k ha hruns hk => offers_addresses ha hruns (hcounted.numbered k a.node hk) }

theorem assigns_of_succession : (succession.net.node 0).phase = .closed ∧
    succession.net.Runs 1 ∧
    ((succession.bridge 0).addresses ⟨2752514⟩ 29).1 = .ok "100.64.0.2,fd7a:115c:a1e0::2" ∧
    Assigns [1, 0] succession :=
  ⟨by decide +kernel, by rw [Tailnet.Runs]; decide +kernel, by decide +kernel,
    (assigns_of_reachable chronicle_succession.reachable).2 [1, 0] chronicle_succession
      (by decide)⟩

end Handoff.Custody
