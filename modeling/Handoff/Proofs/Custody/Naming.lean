import Handoff.Proofs.Custody.Registering
import Handoff.Proofs.Tailnet.Naming

namespace Handoff.Custody
open Tailnet (Named)
variable {c c' : Custody} {started : List NodeId} {n : NodeId}

/-- A run, and the nodes that have started in it, the last one first. -/
inductive Chronicle : List NodeId → Custody → Prop where
  | begin (suffix : String) (supply : Tailnet.Supply) (loopbackUp : Bool) (files : Files) :
    Chronicle [] { net := { suffix, supply, loopbackUp, files } }
  | idle {started : List NodeId} {c c' : Custody} : Chronicle started c → Move c c' →
    (∀ n, ¬ c.net.Starts c'.net n) → Chronicle started c'
  | start {started : List NodeId} {c c' : Custody} (n : NodeId) : Chronicle started c →
    Move c c' → c.net.Starts c'.net n → Chronicle (n :: started) c'

theorem Chronicle.reachable (h : Chronicle started c) : Reachable c := by
  induction h with
  | begin suffix supply loopbackUp files => exact .start suffix supply loopbackUp files
  | idle _ hm _ ih => exact ih.next hm
  | start _ _ hm _ ih => exact ih.next hm

theorem Reachable.chronicle (h : Reachable c) : ∃ started, Chronicle started c := by
  induction h with
  | start suffix supply loopbackUp files => exact ⟨[], .begin suffix supply loopbackUp files⟩
  | @next c c' _ hm ih =>
    obtain ⟨started, hc⟩ := ih
    by_cases hstarts : ∃ n, c.net.Starts c'.net n
    · obtain ⟨n, hn⟩ := hstarts
      exact ⟨n :: started, hc.start n hm hn⟩
    · exact ⟨started, hc.idle hm fun n hn => hstarts ⟨n, hn⟩⟩

/-- Nothing that happens starts two nodes, and names follow the one that starts. -/
theorem named_move (hr : Reachable c) (hm : Move c c') (h : Named started c.net)
    (hlast : started.length < 2 ^ 32) :
    Named started c'.net ∧ (∀ n, ¬ c.net.Starts c'.net n) ∨
      ∃ n, Named (n :: started) c'.net ∧ ∀ m, c.net.Starts c'.net m ↔ m = n := by
  obtain ⟨n, hserved | hended⟩ := registers_move hr.intact.wired hm
  · have honly : ∀ m, c.net.Starts c'.net m → m = n := by
      rintro m ⟨hfresh, hruns⟩
      by_contra hmn
      cases (hserved.phase hmn).symm.trans hruns |>.symm.trans hfresh
    rcases h.registers hserved with ⟨hnamed, hsame⟩ | ⟨hnamed, hstarts⟩
    · refine .inl ⟨hnamed, fun m hm => ?_⟩
      obtain rfl := honly m hm
      cases hm.2.symm.trans (hsame.trans hm.1)
    · refine .inr ⟨n, hnamed, fun m => ⟨honly m, ?_⟩⟩
      rintro rfl
      exact hstarts
  · exact .inl ⟨(h.strikes hr.intact.owned (h.count ▸ hlast) hended).1,
      Tailnet.not_starts_of_strikes hended⟩

theorem Chronicle.named (h : Chronicle started c) (hlast : started.length < 2 ^ 32) :
    Named started c.net := by
  induction h with
  | begin suffix supply loopbackUp files => exact ⟨rfl, nofun, nofun, fun _ => rfl⟩
  | idle hc hm hidle ih =>
    rcases named_move hc.reachable hm (ih hlast) hlast with ⟨hnamed, -⟩ | ⟨n, -, hstarts⟩
    · exact hnamed
    · exact absurd ((hstarts n).mpr rfl) (hidle n)
  | start n hc hm hn ih =>
    have hshort := Nat.lt_of_succ_lt hlast
    rcases named_move hc.reachable hm (ih hshort) hshort with ⟨-, hidle⟩ | ⟨m, hnamed, hstarts⟩
    · exact absurd hn (hidle n)
    · rwa [(hstarts n).mp hn]

/-- Which nodes names lead to, in the order `started` in which they started, and what becomes of
names when a node ends. -/
structure Resolves (started : List NodeId) (c : Custody) : Prop where
  registered : ∀ name, (∃ v, c.net.registry.names name = some v) ↔
    ∃ n, c.net.latest started name = some n ∧ (c.net.node n).phase ≠ .closed
  address : ∀ name n v, c.net.latest started name = some n → c.net.registry.names name = some v →
    .v4 v ∈ (c.net.node n).addresses
  /-- A node that ends takes its name with it if none took that over, and no other name. -/
  ends : ∀ n name, (c.net.close n).2.registry.names name =
    if c.net.latest started name = some n then none else c.net.registry.names name
  endsByHandle : ∀ i k a, (c.tables i).servers.find? k = some a → ∀ name,
    (c.perform i (.close k)).net.registry.names name =
      if c.net.latest started name = some a.node then none else c.net.registry.names name

/-- In every state the nodes have started in one order, and a name leads to the node that started
last under it until that ends. Nodes are numbered with 32 bits, of which the addresses leave a
little more than 31. -/
theorem resolves_of_reachable (hr : Reachable c) :
    (∃ started, Chronicle started c) ∧
      ∀ started, Chronicle started c → started.length < 2 ^ 31 → Resolves started c := by
  refine ⟨hr.chronicle, fun started hc hlast => ?_⟩
  have hlast : started.length < 2 ^ 32 := Nat.lt_trans hlast (by decide)
  have hnamed := hc.named hlast
  have howned := hr.intact.owned
  have hcount : c.net.registry.lastHost < 2 ^ 32 := hnamed.count ▸ hlast
  exact {
    registered := fun name => by
      rw [hnamed.names]
      cases hl : c.net.latest started name with
      | none => simp
      | some n =>
        obtain ⟨k, hk⟩ := Option.ne_none_iff_exists'.mp
          (hnamed.numbered n (Tailnet.mem_of_latest hl).1)
        simp [Tailnet.Node.known, hk]
    address := fun name n v hl hv => by
      rw [hnamed.names, hl] at hv
      exact (Tailnet.known_eq_some.mp hv).2
    ends := fun n name => by
      rcases Tailnet.strikes_close c.net n with ⟨hclosed, hsame⟩ | hends
      · rw [hsame]
        exact hnamed.names_closed hclosed name
      · exact (hnamed.strikes howned hcount hends).2 name
    endsByHandle := fun i k a ha name => by
      change ((c.bridge i).close k).2.net.registry.names name = _
      rcases Bridge.strikes_close (b := c.bridge i) ha with ⟨hclosed, hstill⟩ | hends
      · rw [hstill.names]
        exact hnamed.names_closed hclosed name
      · exact (hnamed.strikes howned hcount hends).2 name }

/-- A new server's node has not started. -/
theorem Chronicle.newServer (h : Chronicle started c) {i : Nat}
    (hroom : (c.tables i).servers.HasRoom) : Chronicle started (c.newServer i) :=
  h.idle (.newServer i hroom) fun n hn => by
    have hsame : ((c.newServer i).net.node n).phase = (c.net.node n).phase := rfl
    cases hn.2.symm.trans (hsame.trans hn.1)

/-- Closing a server starts no node. -/
theorem Chronicle.close (h : Chronicle started c) {i : Nat} {k : Handle}
    (hk : (c.tables i).servers.contains k = true) : Chronicle started (c.perform i (.close k)) := by
  obtain ⟨a, ha⟩ : ∃ a, (c.tables i).servers.find? k = some a := Option.isSome_iff_exists.mp hk
  apply h.idle (.perform i (.close k) fun _ _ _ _ he => by cases he)
  intro n
  rcases Bridge.strikes_close (b := c.bridge i) ha with ⟨-, hstill⟩ | hends
  · rintro ⟨hfresh, hruns⟩
    cases hruns.symm.trans ((hstill.phase n).trans hfresh)
  · exact Tailnet.not_starts_of_strikes hends n

def succession : Custody :=
  let c := ((newServer { net := {} } 0).newServer 0).newServer 0
  let c := c.perform 0 (.start ⟨2752513⟩)
  let c := c.perform 0 (.start ⟨2752514⟩)
  let c := c.perform 0 (.close ⟨2752513⟩)
  c.perform 0 (.close ⟨2752515⟩)

theorem chronicle_succession : Chronicle [1, 0] succession := by
  have hfirst : Chronicle [] (newServer { net := {} } 0) :=
    (Chronicle.begin "bridge.ts.net" .standard true .root).newServer
      ⟨2752513, by decide, by decide +kernel⟩
  have hnew := (hfirst.newServer (i := 0) ⟨2752514, by decide, by decide +kernel⟩).newServer
    (i := 0) ⟨2752515, by decide, by decide +kernel⟩
  have hstart := hnew.start 0 (.perform 0 (.start ⟨2752513⟩) fun _ _ _ _ he => by cases he)
    ⟨by decide +kernel, by rw [Tailnet.Runs]; decide +kernel⟩
  have hagain := hstart.start 1 (.perform 0 (.start ⟨2752514⟩) fun _ _ _ _ he => by cases he)
    ⟨by decide +kernel, by rw [Tailnet.Runs]; decide +kernel⟩
  have hclosed := hagain.close (i := 0) (k := ⟨2752513⟩) (by decide +kernel)
  exact hclosed.close (i := 0) (k := ⟨2752515⟩) (by decide +kernel)

theorem resolves_of_succession :
    succession.net.registry.names "tsnet-bridge" = some (Tailnet.hostV4 2) ∧
      (succession.net.node 0).phase = .closed ∧ Resolves [1, 0] succession :=
  ⟨by decide +kernel, by decide +kernel,
    (resolves_of_reachable chronicle_succession.reachable).2 [1, 0] chronicle_succession
      (by decide)⟩

end Handoff.Custody
