import Handoff.Proofs.Tailnet.Reaching
import Handoff.Proofs.Tailnet.Registering

namespace Handoff.Tailnet
variable {D : StreamId → Prop} {t u w : Tailnet} {n m : NodeId} {id id' : StreamId}
  {target : Endpoint} {ip : Address} {network address : String}

/-- The loopback address that a connection was made from. -/
def source (t : Tailnet) (id : StreamId) : Endpoint :=
  (t.streams.own ⟨id, .near⟩).address

theorem source_of_grows (h : t.streams.Grows u.streams) (hid : id < t.streams.count) :
    u.source id = t.source id :=
  h.address ⟨id, .near⟩ hid

theorem mem_of_addressLike {x : Node} {like : Address} (h : x.addressLike like = some ip) :
    ip ∈ x.addresses := by
  obtain ⟨k, hk, rfl⟩ := Option.map_eq_some_iff.mp h
  refine mem_addresses.mpr ⟨k, hk, ?_⟩
  cases like with
  | v4 _ => exact .inl rfl
  | v6 _ => exact .inr rfl

theorem addressLike_of_host {x y : Node} (h : y.host = x.host) (like : Address) :
    y.addressLike like = x.addressLike like := by
  rw [Node.addressLike, h, Node.addressLike]

def Numbered (t : Tailnet) : Prop :=
  ∀ n, t.Runs n → (t.node n).host ≠ none

theorem Numbered.still (h : Numbered t) (hs : Still t u) : Numbered u := by
  intro n hn
  rw [Runs, hs.phase] at hn
  rw [hs.host]
  exact h n hn

theorem Numbered.joined (h : Numbered t) (n : NodeId) : Numbered (t.joined n) := by
  intro m hm
  rw [Runs, node_joined] at hm
  rw [node_joined]
  split at hm
  · rw [if_pos ‹m = n›]
    rintro ⟨⟩
  · rw [if_neg ‹m ≠ n›]
    exact h m hm

theorem Numbered.registers (h : Numbered t) (hr : Registers n D t u) : Numbered u := by
  induction hr with
  | still hs => exact h.still hs
  | joined _ _ hw ih => exact (ih.joined n).still hw
  | dialed id target _ _ _ _ hw ih =>
    refine Numbered.still (fun m hm => ?_) hw
    rw [Runs, node_recordDialer] at hm
    rw [node_recordDialer]
    exact ih m hm

theorem Numbered.strikes (h : Numbered t) (hs : Strikes n t u) : Numbered u := by
  intro m hm
  have hphase := hs.phase m
  obtain ⟨-, v, htv, hvu⟩ := hs
  rw [Runs, hphase] at hm
  split at hm
  · cases hm
  · rename_i hmn
    have hnode : (v.struck n).node m = v.node m := assign_of_ne _ _ _ hmn
    rw [hvu.host, hnode, htv.host]
    exact h m hm

/-- The connection `id` was dialed by the node `n`, whose address of the family of `target` is `ip`:
this is on record until the node ends, and nothing is from then on. -/
structure Origin (t : Tailnet) (n : NodeId) (target : Endpoint) (ip : Address) (id : StreamId) :
    Prop where
  made : id < t.streams.count
  loopback : (t.source id).ip = .localhost
  begun : (t.node n).phase ≠ .fresh
  like : (t.node n).addressLike target.ip = some ip
  noted : t.registry.dialers (t.source id) =
    if (t.node n).phase = .closed then none else some ⟨ip, (t.source id).port⟩

theorem Origin.still (h : Origin t n target ip id) (hs : Still t u) :
    Origin u n target ip id := by
  have hsource := source_of_grows hs.streams h.made
  constructor
  · exact Nat.lt_of_lt_of_le h.made hs.streams.count
  · rw [hsource]
    exact h.loopback
  · rw [hs.phase]
    exact h.begun
  · rw [addressLike_of_host (hs.host n)]
    exact h.like
  · rw [hs.dialers, hs.phase, hsource]
    exact h.noted

/-- Another node that joins is not the one that dialed. -/
theorem Origin.joined (h : Origin t n target ip id) (hf : (t.node m).phase = .fresh) :
    Origin (t.joined m) n target ip id := by
  have hnode : (t.joined m).node n = t.node n := by
    rw [node_joined, if_neg]
    rintro rfl
    exact h.begun hf
  refine ⟨h.made, h.loopback, ?_, ?_, ?_⟩ <;> rw [hnode]
  · exact h.begun
  · exact h.like
  · exact h.noted

/-- A dial from another loopback address leaves the record alone. -/
theorem Origin.recordDialer (h : Origin t n target ip id) (hne : t.source id' ≠ t.source id)
    (m : NodeId) (e : Endpoint) : Origin (t.recordDialer m id' e) n target ip id := by
  unfold Tailnet.recordDialer
  split
  · exact h
  · exact ⟨h.made, h.loopback, h.begun, h.like,
      (assign_of_ne _ _ _ (Ne.symm hne)).trans h.noted⟩

theorem Origin.registers (h : Origin t n target ip id) (hr : Registers m D t u)
    (hD : ∀ id', D id' → t.streams.count ≤ id' → id' < u.streams.count →
      u.source id' ≠ u.source id) : Origin u n target ip id := by
  induction hr with
  | still hs => exact h.still hs
  | @joined u w hu hf hw ih =>
    -- the sources of all connections that were made by then are what they are now
    have hgrows : u.streams.Grows w.streams := hw.streams
    have hmade : id < u.streams.count := Nat.lt_of_lt_of_le h.made hu.streams.count
    refine ((ih fun id' hid hnew hlt => ?_).joined hf).still hw
    rw [← source_of_grows hgrows hlt, ← source_of_grows hgrows hmade]
    exact hD id' hid hnew (Nat.lt_of_lt_of_le hlt hgrows.count)
  | @dialed u w id' e hu hd hnew hlt hw ih =>
    have hgrows : u.streams.Grows w.streams := by
      have hrecorded := hw.streams
      rwa [streams_recordDialer] at hrecorded
    have hmade : id < u.streams.count := Nat.lt_of_lt_of_le h.made hu.streams.count
    have hapart : ∀ id', D id' → t.streams.count ≤ id' → id' < u.streams.count →
        u.source id' ≠ u.source id := by
      intro id' hid hnew hlt
      rw [← source_of_grows hgrows hlt, ← source_of_grows hgrows hmade]
      exact hD id' hid hnew (Nat.lt_of_lt_of_le hlt hgrows.count)
    exact ((ih hapart).recordDialer (hapart id' hd hnew hlt) m e).still hw

/-- The end of another node leaves the record alone, and that of the node itself removes it. -/
theorem Origin.strikes (h : Origin t n target ip id) (ho : Owned t)
    (hlast : t.registry.lastHost < 2 ^ 32) (hs : Strikes m t u) : Origin u n target ip id := by
  obtain ⟨-, v, htv, hvu⟩ := hs
  have hv := h.still htv
  refine Origin.still ?_ hvu
  have hdialers : (v.struck m).registry.dialers (v.source id) =
      (v.registry.dialers (v.source id)).filter fun e => e.ip ∉ (v.node m).addresses := rfl
  by_cases hmn : m = n
  · subst m
    have hnode : (v.struck n).node n = { v.node n with phase := .closed } := assign_same ..
    refine ⟨hv.made, hv.loopback, ?_, ?_, ?_⟩
    · rw [hnode]
      nofun
    · rw [hnode]
      exact hv.like
    · change (v.struck n).registry.dialers (v.source id) = _
      rw [hdialers, hv.noted, hnode, if_pos rfl]
      split
      · rfl
      · exact Option.filter_some_neg (by simpa using mem_of_addressLike hv.like)
  · have hnode : (v.struck m).node n = v.node n := assign_of_ne _ _ _ (Ne.symm hmn)
    have hother : ip ∉ (v.node m).addresses := by
      intro hin
      have hown := mem_of_addressLike hv.like
      rw [htv.addresses] at hin hown
      exact hmn (ho.address_unique hlast hown hin)
    refine ⟨hv.made, hv.loopback, ?_, ?_, ?_⟩
    · rw [hnode]
      exact hv.begun
    · rw [hnode]
      exact hv.like
    · change (v.struck m).registry.dialers (v.source id) = _
      rw [hdialers, hv.noted, hnode]
      split
      · rfl
      · exact Option.filter_some_pos (by simpa using hother)

/-- A start that succeeds leaves a node that runs. -/
theorem runs_of_start (h : (t.start n).1 = .ok ()) : (t.start n).2.Runs n := by
  rcases start_outcomes t n with ⟨hr, he⟩ | ⟨f, files, he⟩ | ⟨-, files, he⟩ <;> rw [he] at h ⊢
  · exact hr
  · cases h
  · rw [Runs]
    exact congrArg Node.phase (if_pos rfl)

theorem origin_recordDialer (hmade : id < t.streams.count)
    (hloop : (t.source id).ip = .localhost) (hruns : t.Runs n)
    (hlike : (t.node n).addressLike target.ip = some ip) :
    Origin (t.recordDialer n id target) n target ip id := by
  have hrunning : (t.node n).phase = .running := hruns
  unfold recordDialer
  rw [hlike]
  refine ⟨hmade, hloop, ?_, hlike, ?_⟩
  · rw [hrunning]
    nofun
  · rw [hrunning]
    exact assign_same ..

/-- A dial that succeeds puts its node's address on record, of the family of the address it
means. -/
theorem origin_dial (hnum : Numbered t)
    (hd : (t.dial n network address).1 = .ok ⟨id, .near⟩) :
    ∃ target ip, (t.start n).2.registry.Targets address target ∧
      Origin (t.dial n network address).2 n target ip id := by
  have hruns := runs_of_start (t := t) (n := n)
  have hstarted := hnum.registers (registers_start (D := fun _ => True) t n)
  rw [dial_eq] at hd ⊢
  split at hd
  · cases hd
  · rename_i hnet
    rw [if_neg hnet]
    revert hd hruns hstarted
    generalize t.start n = r
    obtain ⟨r, t₁⟩ := r
    intro hruns hstarted hd
    cases r with
    | error f => cases hd
    | ok =>
      dsimp only at hd ⊢
      split at hd
      · cases hd
      · rename_i target route hplan
        split at hd
        · cases hd
        · rename_i id' t₂ hconn
          cases hd
          obtain ⟨l, -, rfl, rfl⟩ := connect_ok hconn
          obtain ⟨k, hk⟩ := Option.ne_none_iff_exists'.mp (hstarted n (hruns rfl))
          obtain ⟨ip, hip⟩ : ∃ ip, (t₁.node n).addressLike target.ip = some ip := by
            rw [Node.addressLike, hk]
            exact ⟨_, rfl⟩
          refine ⟨target, ip, (planDial_ok_iff.mp hplan).1, Origin.still ?_ (still_log _ n _)⟩
          apply origin_recordDialer
          · exact Nat.lt_succ_self _
          · simp [source, Streams.own, Streams.connect, loopbackAt]
          · exact hruns rfl
          · exact hip

/-- As whom the node `n` is known, one of whose addresses is `ip`: once it has ended, nothing tells
its connections from any others that this machine makes to itself. -/
def shown (t : Tailnet) (n : NodeId) (ip : Address) : Address :=
  if (t.node n).phase = .closed then .localhost else ip

theorem Origin.remoteAddress (h : Origin t n target ip id) :
    t.remoteAddress (.ok (some (t.source id))) = .ok ⟨t.shown n ip, (t.source id).port⟩ := by
  unfold Tailnet.remoteAddress shown
  dsimp only
  rw [h.noted]
  split
  · rw [← h.loopback]
    rfl
  · rfl

end Handoff.Tailnet
