import Handoff.Proofs.Custody.Numbering
import Handoff.Proofs.Custody.Listening
import Handoff.Proofs.Tailnet.Addressing
import Handoff.Proofs.Traffic.Reaching

/-!
The addresses that a server tells of itself can be given back, with a port, to a dial or a listen.
Whichever server is asked, it leads to just that address.
-/

namespace Handoff

theorem splitOn_names {ips : List Address} (hips : ips ≠ []) :
    (",".intercalate (ips.map Address.name)).toList.splitOn ',' = ips.map Address.text := by
  have hcomma : ∀ d < 16, Nat.digitChar d ≠ ',' := by decide
  have htexts : (ips.map Address.name).map String.toList = ips.map Address.text := by
    rw [List.map_map]
    exact List.map_congr_left fun ip _ => String.toList_ofList
  rw [String.toList_intercalate, htexts]
  refine List.splitOn_intercalate ',' (fun part hpart => ?_) (by simpa using hips)
  obtain ⟨ip, -, rfl⟩ := List.mem_map.mp hpart
  exact Address.notMem_text hcomma (by decide) (by decide)

namespace Bridge
variable {b : Bridge Tailnet} {server : Handle} {room : Nat} {text : String}

theorem text_of_fitted {r : Outcome Tailnet String} (h : (fitted room r).1 = .ok text) :
    r.1 = .ok text := by
  unfold fitted ensureFits at h
  cases hr : r.1 with
  | error x =>
    rw [hr] at h
    cases h
  | ok text' =>
    rw [hr] at h
    dsimp only [Except.bind] at h
    split at h
    · cases h
      rfl
    · cases h

/-- Only a server that runs tells its addresses, and these are its node's. -/
theorem addresses_told (h : (b.addresses server room).1 = .ok text) :
    ∃ a, b.servers.find? server = some a ∧ b.net.Runs a.node ∧
      text = ",".intercalate ((b.net.node a.node).addresses.map Address.name) := by
  have htext := text_of_fitted h
  rcases Traffic.withNode_worded b server Network.addresses (fun n t => (t.addresses n, t))
    fun _ _ => rfl with ⟨x, he⟩ | ⟨a, ha, ⟨f, -, he⟩ | ⟨ips, hips, he⟩⟩
  · rw [he] at htext
    cases htext
  · rw [he] at htext
    cases htext
  · rw [he] at htext
    cases htext
    have hips : b.net.addresses a.node = .ok ips := hips
    unfold Tailnet.addresses at hips
    split at hips
    · rename_i hruns
      cases hips
      exact ⟨a, ha, hruns, rfl⟩
    · cases hips

end Bridge

namespace Custody
open Tailnet (Route Registry Fault OpensAt openedAt)
open Traffic (DialsAs)
open Bridge (ListensAs)
variable {c : Custody} {address : String} {e : Endpoint}

/-- The text means the address `e` and no other to dials and to listens. -/
structure Leads (c : Custody) (address : String) (e : Endpoint) : Prop where
  splits : HostPort.parse address.toList = .ok ⟨e.ip.text, e.port⟩
  resolves : ∀ r : Registry, r.resolve e.ip.text = some e.ip
  plans : ∀ (t : Tailnet) network, t.planDial network address =
    match t.registry.routes e with
    | none => .error (.refused network address)
    | some route =>
      if route.funnelOnly then .error (.funnelTraffic network address) else .ok ⟨e, route⟩
  /-- A dial succeeds where private traffic has a route, if the machine can reach itself. -/
  dials : c.net.loopbackUp = true → ∀ n network,
    (∃ d, (c.net.dial n network address).1 = .ok d) ↔
      (network = "tcp" ∨ network = "tcp4" ∨ network = "tcp6") ∧ (c.net.Runs n ∨ c.net.Ready n) ∧
        ∃ route, c.net.registry.routes e = some route ∧ route.funnelOnly = false
  enters : ∀ n network d, (c.net.dial n network address).1 = .ok d → ∃ l, c.net.Takes l e ∧
    (c.net.dial n network address).2.listener l = { c.net.listener l with
      backlog := (c.net.listener l).backlog ++ [.dialed d.stream] } ∧
    ∀ k, k ≠ l → (c.net.dial n network address).2.listener k = c.net.listener k
  /-- A listen succeeds at an address of the node's own that is free. -/
  listens : ∀ n network funnel, (∃ l, (c.net.listen n network address funnel).1 = .ok l) ↔
    (network = "tcp" ∨ network = "tcp4" ∨ network = "tcp6") ∧ (c.net.Runs n ∨ c.net.Ready n) ∧
      e.ip ∈ ((c.net.start n).2.node n).addresses ∧
      (funnel ≠ none → e.port = 443 ∨ e.port = 8443 ∨ e.port = 10000) ∧
      ∃ k, c.net.nextPort = some k ∧ c.net.registry.routes (openedAt e (c.net.supply.port k)) = none
  opens : ∀ n network funnel l, (c.net.listen n network address funnel).1 = .ok l →
    ∃ k, OpensAt c.net (c.net.listen n network address funnel).2 funnel k
      [openedAt e (c.net.supply.port k)] l
  dialsAs : ∀ i h a network, (c.tables i).servers.find? h = some a →
    DialsAs (c.bridge i) h network address a.node ((c.bridge i).dial h network address)
  listensAs : ∀ i h a network funnel, (c.tables i).servers.find? h = some a →
    ListensAs (c.bridge i) h network address funnel a.node
      ((c.bridge i).listen h network address funnel)

theorem leads_of_spelled (hr : Reachable c) (h : e.Spelled address.toList) :
    Leads c address e where
  splits := h.parse
  resolves := fun r => Tailnet.resolve_text r e.ip
  plans := fun _ _ => Tailnet.planDial_spelled h
  dials := fun hup n network => by
    rw [Tailnet.dial_ok_iff_planned hr.intact.wired hup, Tailnet.planDial_spelled h,
      (Tailnet.rests_start c.net n).routes]
    refine and_congr_right fun _ => and_congr_right fun _ => ?_
    cases c.net.registry.routes e with
    | none => simp
    | some route => cases hf : route.funnelOnly <;> simp [hf]
  enters := fun n network d hd => by
    obtain ⟨e', l, hreach, -, hl, hothers⟩ := Tailnet.dial_enters hr.intact.wired hd
    obtain rfl := (Tailnet.targets_spelled h).mp hreach.targets
    exact ⟨l, hreach.takes, hl, hothers⟩
  listens := fun n network funnel => by
    rw [Tailnet.listen_ok_iff hr.numbered]
    simp only [Tailnet.admits_spelled h]
    constructor
    · rintro ⟨k, es, hnet, hrun, hip, hf, hk, hfree, -⟩
      exact ⟨hnet, hrun, hip, hf, k, hk, hfree⟩
    · rintro ⟨hnet, hrun, hip, hf, k, hk, hfree⟩
      exact ⟨k, _, hnet, hrun, hip, hf, hk, hfree, rfl⟩
  opens := fun n network funnel l hl => by
    obtain ⟨k, es, ha⟩ := (Tailnet.listen_ok_iff hr.numbered).mp ⟨l, hl⟩
    have hopens := Tailnet.opensAt_listen hr.intact.wired hr.numbered hl ha
    obtain ⟨-, -, -, -, -, -, rfl⟩ := (Tailnet.admits_spelled h).mp ha
    exact ⟨k, hopens⟩
  dialsAs := fun _ _ _ network ha => Traffic.dialsAs_dial ha network address
  listensAs := fun _ _ _ _ _ ha => Bridge.listensAs_listen ha

/-- An address text leads to the address it was written for, and so does each address that a server
tells of itself, with any port after it. -/
theorem addressing_of_reachable (hr : Reachable c) :
    (∀ e address, Endpoint.Spelled e address.toList → Leads c address e) ∧
      ∀ i h room text, ((c.bridge i).addresses h room).1 = .ok text →
        ∃ a, (c.tables i).servers.find? h = some a ∧ c.net.Runs a.node ∧
          text.toList.splitOn ',' = (c.net.node a.node).addresses.map Address.text ∧
          ∀ part ∈ text.toList.splitOn ',', ∀ port : Port,
            ∃ ip ∈ (c.net.node a.node).addresses, ∀ address : String,
              address.toList = part ++ ':' :: Nat.toDigits 10 port.toNat →
                Leads c address ⟨ip, port⟩ := by
  refine ⟨fun e address h => leads_of_spelled hr h, fun i h room text htext => ?_⟩
  obtain ⟨a, ha, hruns, rfl⟩ := Bridge.addresses_told htext
  obtain ⟨number, hnumber⟩ := Option.ne_none_iff_exists'.mp (hr.numbered a.node hruns)
  have hparts := splitOn_names
    (List.ne_nil_of_mem (Tailnet.mem_addresses.mpr ⟨number, hnumber, .inl rfl⟩))
  refine ⟨a, ha, hruns, hparts, fun part hpart port => ?_⟩
  rw [show (c.bridge i).net = c.net from rfl, hparts] at hpart
  obtain ⟨ip, hip, rfl⟩ := List.mem_map.mp hpart
  exact ⟨ip, hip, fun address haddress => leads_of_spelled hr (haddress ▸ .bare)⟩

/-- The server of `db`, which listens at its second address, tells both. A dial there needs no
brackets. -/
theorem addressing_of_halfTaken :
    ((halfTaken.bridge 0).addresses ⟨2752513⟩ 29).1 = .ok "100.64.0.1,fd7a:115c:a1e0::1" ∧
      (halfTaken.net.dial 0 "tcp" "fd7a:115c:a1e0::1:80").1.isOk = true ∧
      Leads halfTaken "fd7a:115c:a1e0::1:80" ⟨.v6 (Tailnet.hostV6 1), 80⟩ ∧
      ∃ a, (halfTaken.tables 0).servers.find? ⟨2752513⟩ = some a ∧ halfTaken.net.Runs a.node := by
  have hspelled : Endpoint.Spelled ⟨.v6 (Tailnet.hostV6 1), 80⟩ "fd7a:115c:a1e0::1:80".toList := by
    have htext : "fd7a:115c:a1e0::1:80".toList =
        (Address.v6 (Tailnet.hostV6 1)).text ++ ':' :: Nat.toDigits 10 80 := by decide +kernel
    rw [htext]
    exact .bare
  have htold : ((halfTaken.bridge 0).addresses ⟨2752513⟩ 29).1 =
      .ok "100.64.0.1,fd7a:115c:a1e0::1" := by decide +kernel
  obtain ⟨hleads, hserved⟩ := addressing_of_reachable reachable_halfTaken
  obtain ⟨a, ha, hruns, -⟩ := hserved 0 _ _ _ htold
  exact ⟨htold, by decide +kernel, hleads _ _ hspelled, a, ha, hruns⟩

end Custody
end Handoff
