import Handoff.Proofs.Stream.Growing
import Handoff.Proofs.Tailnet.Life

namespace Handoff.Tailnet
variable {D : StreamId → Prop} {t t' t'' u w : Tailnet} {n m : NodeId} {l : ListenerId}

/-- Nobody has joined or left, and no dial was noted: names and origins of connections are as they
were, and a node that has started is called what it was called. -/
structure Still (t t' : Tailnet) : Prop where
  registry : t'.registry = { t.registry with routes := t'.registry.routes }
  phase : ∀ n, (t'.node n).phase = (t.node n).phase
  host : ∀ n, (t'.node n).host = (t.node n).host
  settings : ∀ n, (t.node n).phase ≠ .fresh → (t'.node n).settings = (t.node n).settings
  streams : t.streams.Grows t'.streams

theorem Still.refl (t : Tailnet) : Still t t :=
  ⟨rfl, fun _ => rfl, fun _ => rfl, fun _ _ => rfl, .refl _⟩

theorem Still.trans (h : Still t t') (h' : Still t' t'') : Still t t'' where
  registry := by rw [h'.registry, h.registry]
  phase := fun n => (h'.phase n).trans (h.phase n)
  host := fun n => (h'.host n).trans (h.host n)
  settings := fun n hn => (h'.settings n (h.phase n ▸ hn)).trans (h.settings n hn)
  streams := h.streams.trans h'.streams

theorem Still.hostname (h : Still t t') (hn : (t.node n).phase ≠ .fresh) :
    (t'.node n).hostname = (t.node n).hostname := by
  rw [Node.hostname, h.settings n hn, Node.hostname]

theorem Still.addresses (h : Still t t') (n : NodeId) :
    (t'.node n).addresses = (t.node n).addresses := by
  rw [Node.addresses, h.host n, Node.addresses]

theorem Still.lastHost (h : Still t t') : t'.registry.lastHost = t.registry.lastHost := by
  rw [h.registry]

theorem Still.names (h : Still t t') : t'.registry.names = t.registry.names := by
  rw [h.registry]

theorem Still.dialers (h : Still t t') : t'.registry.dialers = t.registry.dialers := by
  rw [h.registry]

/-- Where no node changes. -/
theorem Still.of_node (hn : t'.node = t.node)
    (hr : t'.registry = { t.registry with routes := t'.registry.routes })
    (hs : t.streams.Grows t'.streams) : Still t t' where
  registry := hr
  phase := fun n => by rw [hn]
  host := fun n => by rw [hn]
  settings := fun n _ => by rw [hn]
  streams := hs

theorem still_setNode {x : Node} (hp : x.phase = (t.node n).phase) (hh : x.host = (t.node n).host)
    (hs : (t.node n).phase ≠ .fresh → x.settings = (t.node n).settings) :
    Still t (t.setNode n x) := by
  refine ⟨rfl, fun m => ?_, fun m => ?_, fun m hm => ?_, .refl _⟩ <;> rw [node_setNode] <;> split
  · rwa [‹m = n›]
  · rfl
  · rwa [‹m = n›]
  · rfl
  · subst m
    exact hs hm
  · rfl

theorem still_files (t : Tailnet) (files : Files) : Still t { t with files } :=
  .of_node rfl rfl (.refl _)

theorem still_log (t : Tailnet) (n : NodeId) (line : String) : Still t (t.log n line) := by
  obtain ⟨files, h⟩ := log_eq t n line
  rw [h]
  exact still_files t files

theorem still_connect {backing : Endpoint} {arrival : StreamId → Arrival} {id : StreamId}
    (h : t.connect backing arrival = .ok (id, t')) : Still t t' := by
  obtain ⟨l, -, -, rfl⟩ := connect_ok h
  exact .of_node rfl rfl (t.streams.grows_connect _ _)

theorem still_wake (t : Tailnet) (l : ListenerId) : Still t (t.wake l) := by
  unfold wake
  split
  · exact .refl t
  · rename_i id u hc
    exact (still_connect hc).trans (.of_node rfl rfl (u.streams.grows_close _))

theorem still_closeListener (t : Tailnet) (l : ListenerId) : Still t (t.closeListener l) := by
  unfold closeListener
  split
  · exact .refl t
  · have hshut : Still t ((t.markClosed l).unroute l) := .of_node rfl rfl (.refl _)
    exact hshut.trans (still_wake _ l)

theorem still_releaseListener (t : Tailnet) (l : ListenerId) : Still t (t.releaseListener l) := by
  unfold releaseListener
  dsimp only
  split
  · exact .refl t
  · exact .of_node rfl rfl (t.streams.grows_closeAll _)
  · exact .of_node rfl rfl (.refl _)

theorem still_foldl {f : Tailnet → ListenerId → Tailnet} (h : ∀ t l, Still t (f t l))
    (t : Tailnet) (ls : List ListenerId) : Still t (ls.foldl f t) := by
  induction ls generalizing t with
  | nil => exact .refl t
  | cons l ls ih => exact (h t l).trans (ih (f t l))

theorem still_setListeners (t : Tailnet) (n : NodeId) (listeners : List ListenerId) :
    Still t (t.setNode n { t.node n with listeners }) :=
  still_setNode rfl rfl fun _ => rfl

theorem still_dropListeners (t : Tailnet) (n : NodeId) : Still t (t.dropListeners n) :=
  (still_setListeners t n []).trans (still_foldl still_releaseListener _ _)

/-- A node that is let go of is still known. -/
theorem still_releaseNode (t : Tailnet) (n : NodeId) : Still t (t.releaseNode n) :=
  (still_dropListeners t n).trans (still_setNode (t := t.dropListeners n) rfl rfl fun _ => rfl)

theorem still_openListener (t : Tailnet) (n : NodeId) (plan : ListenPlan) :
    Still t (t.openListener n plan).2 := by
  let opened := (t.node n).listeners.filter fun l => !(t.listener l).closed
  have hpruned : Still t (t.pruneListeners n) :=
    (still_setListeners t n opened).trans (still_foldl still_releaseListener _ _)
  have hlisted := still_setListeners (t.pruneListeners n) n
    (((t.pruneListeners n).node n).listeners ++ [(t.pruneListeners n).listeners])
  exact (hpruned.trans hlisted).trans (.of_node rfl rfl (.refl _))

/-- Only what has not started is configured. -/
theorem still_configure (t : Tailnet) (n : NodeId) (option : NodeOption) :
    Still t (t.configure n option).2 := by
  unfold configure
  split
  · rename_i hf
    have hsets := sets_configure option (t.node n)
    exact still_setNode hsets.phase hsets.host fun hn => absurd hf hn
  · exact .refl t

/-- All that serving the node `n` comes to, other than its end: it joins, and dials that it makes
are noted. The streams they make are new, and `D` holds of them. -/
inductive Registers (n : NodeId) (D : StreamId → Prop) (t : Tailnet) : Tailnet → Prop where
  | still {u : Tailnet} : Still t u → Registers n D t u
  | joined {u w : Tailnet} : Registers n D t u → (u.node n).phase = .fresh →
    Still (u.joined n) w → Registers n D t w
  | dialed {u w : Tailnet} (id : StreamId) (target : Endpoint) : Registers n D t u → D id →
    t.streams.count ≤ id → id < u.streams.count → Still (u.recordDialer n id target) w →
    Registers n D t w

theorem Registers.after (h : Registers n D t u) (hs : Still u w) : Registers n D t w := by
  cases h with
  | still ht => exact .still (ht.trans hs)
  | joined hu hf hw => exact .joined hu hf (hw.trans hs)
  | dialed id target hu hd hnew hmade hw => exact .dialed id target hu hd hnew hmade (hw.trans hs)

theorem streams_recordDialer (t : Tailnet) (n : NodeId) (id : StreamId) (target : Endpoint) :
    (t.recordDialer n id target).streams = t.streams := by
  unfold recordDialer
  split <;> rfl

theorem lastHost_recordDialer (t : Tailnet) (n : NodeId) (id : StreamId) (target : Endpoint) :
    (t.recordDialer n id target).registry.lastHost = t.registry.lastHost := by
  unfold recordDialer
  split <;> rfl

theorem Registers.streams (h : Registers n D t u) : t.streams.Grows u.streams := by
  induction h with
  | still hs => exact hs.streams
  | joined _ _ hw ih => exact ih.trans hw.streams
  | dialed id target _ _ _ _ hw ih =>
    have hrecorded := hw.streams
    rw [streams_recordDialer] at hrecorded
    exact ih.trans hrecorded

/-- Numbers are not given twice. -/
theorem Registers.lastHost (h : Registers n D t u) :
    t.registry.lastHost ≤ u.registry.lastHost := by
  induction h with
  | still hs => exact Nat.le_of_eq hs.lastHost.symm
  | joined _ _ hw ih =>
    rw [hw.lastHost]
    exact Nat.le_succ_of_le ih
  | dialed id target _ _ _ _ hw ih =>
    rw [hw.lastHost, lastHost_recordDialer]
    exact ih

theorem node_joined (t : Tailnet) (n m : NodeId) : (t.joined n).node m = if m = n then
    { t.node n with phase := .running, host := some (t.registry.lastHost + 1) } else t.node m := rfl

/-- The only node that starts is the one that is served. -/
theorem Registers.phase (h : Registers n D t u) (hm : m ≠ n) :
    (u.node m).phase = (t.node m).phase := by
  induction h with
  | still hs => exact hs.phase m
  | joined _ _ hw ih => rw [hw.phase, node_joined, if_neg hm, ih]
  | dialed id target _ _ _ _ hw ih => rw [hw.phase, node_recordDialer, ih]

theorem registers_start (t : Tailnet) (n : NodeId) : Registers n D t (t.start n).2 := by
  rcases start_outcomes t n with ⟨-, h⟩ | ⟨f, files, h⟩ | ⟨hready, files, h⟩ <;> rw [h]
  · exact .still (.refl t)
  · exact .still (still_files t files)
  · exact .joined (.still (.refl t)) hready.fresh (still_files _ files)

section Starting
variable {α : Type}

/-- What goes on from the start of its node. -/
theorem registers_of {k : Tailnet → Except Fault α × Tailnet} (hk : ∀ t, Still t (k t).2)
    {p : Except Fault α × Tailnet}
    (hp : p = match t.start n with
      | (.error f, t) => (.error f, t)
      | (.ok (), t) => k t) : Registers n D t p.2 :=
  have hstart := registers_start t n
  of_start (P := fun p => Registers n D t p.2) (fun _ _ => hstart) (fun _ => hstart.after (hk _)) hp

theorem registers_up (t : Tailnet) (n : NodeId) : Registers n D t (t.up n).2 := by
  refine registers_of (fun t => ?_) rfl
  split
  · exact .refl t
  · split
    · exact .refl t
    · split
      · exact .refl t
      · rename_i t₁ hsaved
        obtain ⟨files, rfl⟩ := saveState_ok hsaved
        have hset : Still { t with files } ({ t with files : Tailnet }.setNode n
            { t.node n with online := true }) := still_setNode rfl rfl fun _ => rfl
        exact ((still_files t files).trans hset).trans (still_log _ n "up")

theorem registers_loopback (t : Tailnet) (n : NodeId) : Registers n D t (t.loopback n).2 := by
  refine registers_of (fun t => ?_) rfl
  split
  · exact .refl t
  · split
    · exact .refl t
    · rename_i k _
      let info : LoopbackInfo :=
        ⟨(t.loopbackAt k).name, t.supply.token t.credentials,
          t.supply.token (t.credentials + 1)⟩
      have hset : Still t (t.setNode n { t.node n with loopback := some info }) :=
        still_setNode rfl rfl fun _ => rfl
      have hmade : Still t { t.setNode n { t.node n with loopback := some info } with
          ports := k + 1, credentials := t.credentials + 2 } :=
        hset.trans (.of_node rfl rfl (.refl _))
      exact hmade.trans (still_log _ n _)

theorem registers_listen (t : Tailnet) (n : NodeId) (network address : String)
    (funnel : Option FunnelMode) : Registers n D t (t.listen n network address funnel).2 := by
  unfold listen
  split
  · exact .still (.refl t)
  · refine registers_of (fun t => ?_) rfl
    split
    · exact .refl t
    · exact (still_openListener t n _).trans (still_log _ n _)

end Starting

/-- A dial starts its node, and notes it when the connection is there. -/
theorem registers_dial (t : Tailnet) (n : NodeId) (network address : String)
    (hD : ∀ id, (t.dial n network address).1 = .ok ⟨id, .near⟩ → D id) :
    Registers n D t (t.dial n network address).2 := by
  have hstart := registers_start (D := D) t n
  have hgrows := hstart.streams
  rw [dial_eq] at hD ⊢
  split
  · exact .still (.refl t)
  · rename_i hnet
    rw [if_neg hnet] at hD
    revert hD hstart hgrows
    generalize t.start n = r
    obtain ⟨r, t₁⟩ := r
    intro hD hstart hgrows
    cases r with
    | error f => exact hstart
    | ok =>
      dsimp only at hD ⊢
      split
      · exact hstart
      · rename_i target route hplan
        rw [hplan] at hD
        dsimp only at hD
        split
        · exact hstart
        · rename_i id t₂ hconn
          rw [hconn] at hD
          have hconnected := hstart.after (still_connect hconn)
          obtain ⟨l, -, rfl, rfl⟩ := connect_ok hconn
          exact .dialed _ target hconnected (hD _ rfl) hgrows.count (Nat.lt_succ_self _)
            (still_log _ n _)

def struck (t : Tailnet) (n : NodeId) : Tailnet :=
  { t.setNode n { t.node n with phase := .closed } with
    registry := t.registry.forget (t.node n).addresses (t.node n).hostname }

structure Strikes (n : NodeId) (t t' : Tailnet) : Prop where
  before : (t.node n).phase ≠ .closed
  ends : ∃ u, Still t u ∧ Still (u.struck n) t'

theorem Strikes.phase (h : Strikes n t u) (m : NodeId) :
    (u.node m).phase = if m = n then .closed else (t.node m).phase := by
  obtain ⟨-, v, htv, hvu⟩ := h
  rw [hvu.phase]
  change (assign v.node n _ m).phase = _
  rw [assign_apply]
  split
  · rfl
  · exact htv.phase m

theorem Strikes.streams (h : Strikes n t u) : t.streams.Grows u.streams := by
  obtain ⟨-, v, htv, hvu⟩ := h
  exact htv.streams.trans hvu.streams

theorem Strikes.lastHost (h : Strikes n t u) : u.registry.lastHost = t.registry.lastHost := by
  obtain ⟨-, v, htv, hvu⟩ := h
  exact hvu.lastHost.trans htv.lastHost

theorem Strikes.of_still (hs : Still t u) (h : Strikes n u w) : Strikes n t w := by
  obtain ⟨hopen, v, huv, hvw⟩ := h
  exact ⟨hs.phase n ▸ hopen, v, hs.trans huv, hvw⟩

theorem Strikes.after (h : Strikes n t u) (hs : Still u w) : Strikes n t w := by
  obtain ⟨hopen, v, htv, hvu⟩ := h
  exact ⟨hopen, v, htv, hvu.trans hs⟩

/-- Routes play no part in which names and origins are forgotten. -/
theorem Still.forget (h : Still t u) (ips : List Address) (hostname : String) :
    Still { t with registry := t.registry.forget ips hostname }
      { u with registry := u.registry.forget ips hostname } where
  registry := by
    dsimp only
    rw [h.registry]
    rfl
  phase := h.phase
  host := h.host
  settings := h.settings
  streams := h.streams

theorem setNode_setNode (t : Tailnet) (n : NodeId) (x y : Node) :
    (t.setNode n x).setNode n y = t.setNode n y := by
  simp only [setNode, assign_assign]

/-- A close ends its node, unless it had ended before. -/
theorem strikes_close (t : Tailnet) (n : NodeId) :
    (t.node n).phase = .closed ∧ (t.close n).2 = t ∨ Strikes n t (t.close n).2 := by
  unfold close
  dsimp only
  split
  · exact .inl ⟨‹_›, rfl⟩
  · rename_i hopen
    refine .inr ⟨hopen, t, .refl t, ?_⟩
    let ended : Node := { t.node n with phase := .closed }
    let x : Node := { ended with online := false, loopback := none }
    have hnode : Still (t.setNode n ended) (t.setNode n x) := by
      rw [← setNode_setNode t n ended x]
      apply still_setNode <;> rw [node_setNode, if_pos rfl]
      exact fun _ => rfl
    have hclosed := still_foldl still_closeListener (t.setNode n x) (t.node n).listeners
    have hdropped := (hnode.trans hclosed).trans (still_dropListeners _ n)
    exact (hdropped.forget (t.node n).addresses (t.node n).hostname).trans (still_log _ n "closed")

end Handoff.Tailnet
