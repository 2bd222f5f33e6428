import Handoff.Bridge.Verb
import Handoff.Proofs.Bridge.LastError
import Handoff.Proofs.Tailnet.Fates
import Handoff.Proofs.Traffic.Quiet

namespace Handoff

def Loopback.info (a : Loopback) : LoopbackInfo :=
  ⟨a.address, a.proxy.text, a.api.text⟩

theorem ofToken_text (credential : Credential) :
    Credential.ofToken credential.text = .ok credential := by
  rw [Credential.ofToken, dif_pos credential.size_text]

namespace Bridge
variable {α : Type} {b b' : Bridge Tailnet} {server : Handle}

theorem credentials_info (a : Loopback) : credentials a.info = .ok a := by
  simp only [credentials, Loopback.info, ofToken_text, Except.bind, Except.map]

/-- Credentials that were made for a surface are of the right size. -/
theorem info_of_minted {n : Tailnet.Node} (hn : n.Minted) {info : LoopbackInfo}
    (hinfo : n.loopback = some info) : ∃ a : Loopback, a.info = info := by
  obtain ⟨hproxy, hapi⟩ := hn info hinfo
  exact ⟨⟨info.address, ⟨_, hproxy⟩, ⟨_, hapi⟩⟩, rfl⟩

def Unsized (e : BridgeError) : Prop :=
  ∀ needed given, e ≠ .insufficientBuffer needed given

/-- What a caller with `room` bytes for `text` and a terminator is told. -/
def within (text : String) (a : α) (room : Nat) : Except BridgeError α :=
  (ensureFits text room).map fun _ => a

theorem within_eq (text : String) (a : α) (room : Nat) : within text a room =
    if text.utf8ByteSize + 1 ≤ room then .ok a
    else .error (.insufficientBuffer (text.utf8ByteSize + 1) room) := by
  unfold within ensureFits
  split <;> rfl

abbrev Call (α : Type) :=
  Bridge Tailnet → Nat → Outcome Tailnet α

/-- However many bytes the call is given, its answer is `a`, of which `text` has to fit, and what it
leaves is `b'`. -/
def Offers (call : Call α) (text : α → String) (b : Bridge Tailnet) (a : α)
    (b' : Bridge Tailnet) : Prop :=
  ∀ room, call b room = (within (text a) a room, b')

def Fails (call : Call α) (b : Bridge Tailnet) : Prop :=
  ∃ e, Unsized e ∧ ∀ room, (call b room).1 = .error e

/-- A call that is refused for want of room, and what the same call answers next. -/
structure Refused (call : Call α) (text : α → String) (b : Bridge Tailnet)
    (capacity needed given : Nat) (a : α) : Prop where
  given : given = capacity
  short : capacity < needed
  records : ∀ s, (call b capacity).2.recordOf s = b.recordOf s
  size : (text a).utf8ByteSize + 1 = needed
  next : ∀ room, call (call b capacity).2 room =
    (if needed ≤ room then .ok a else .error (.insufficientBuffer needed room),
      (call b capacity).2)

section Retrying
variable {call : Call α} {text : α → String} {a : α} {capacity needed given : Nat}

theorem not_refused_of_fails (h : Fails call b)
    (he : (call b capacity).1 = .error (.insufficientBuffer needed given)) : False := by
  obtain ⟨e, hunsized, hfails⟩ := h
  exact hunsized needed given (Except.error.inj ((hfails capacity).symm.trans he))

/-- What a call that does not fail is refused for is only the room, so that it is answered when
there is more, if by then it would be answered the same. -/
theorem refused_of_offers (h : Offers call text b a b') (hagain : Offers call text b' a b')
    (hservers : b'.servers = b.servers)
    (he : (call b capacity).1 = .error (.insufficientBuffer needed given)) :
    Refused call text b capacity needed given a := by
  have hleft : (call b capacity).2 = b' := congrArg Prod.snd (h capacity)
  rw [h capacity, within_eq] at he
  split at he
  · cases he
  · rename_i hshort
    obtain ⟨rfl, rfl⟩ := BridgeError.insufficientBuffer.inj (Except.error.inj he)
    refine ⟨rfl, Nat.lt_of_not_le hshort, fun s => ?_, rfl, fun room => ?_⟩
    · rw [hleft, recordOf_of_servers hservers]
    · rw [hleft, hagain room, within_eq]

end Retrying

theorem unsized_badHandle (h : Handle) : Unsized (.badHandle h) := by
  rintro _ _ ⟨⟩

theorem unsized_fatal (text : String) : Unsized (.fatal text) := by
  rintro _ _ ⟨⟩

/-- What a node is asked without changing anything, as a text. -/
theorem fitted_withNode (server : Handle) (op : NodeId → Tailnet → Except Failure α × Tailnet)
    (hop : ∀ n t, (op n t).2 = t) (text : α → String) :
    (∃ e, Unsized e ∧ ∀ room,
      (fitted room ((b.withNode server op).map (·.map text) id)).1 = .error e) ∨
    ∃ a, ∀ room,
      fitted room ((b.withNode server op).map (·.map text) id) = (within a a room, b) := by
  cases hs : b.servers.find? server with
  | none =>
    refine .inl ⟨_, unsized_badHandle server, fun room => ?_⟩
    rw [Traffic.withNode_dead hs]
    rfl
  | some s =>
    have hsame := hop s.node b.net
    rw [withNode, HandleTable.get_ok_iff.mpr hs]
    dsimp only
    revert hsame
    generalize op s.node b.net = r
    obtain ⟨r, net⟩ := r
    rintro rfl
    cases r with
    | error f => exact .inl ⟨_, unsized_fatal f.message, fun _ => rfl⟩
    | ok a => exact .inr ⟨text a, fun _ => rfl⟩

theorem addresses_cases (b : Bridge Tailnet) (server : Handle) :
    Fails (·.addresses server) b ∨ ∃ text, Offers (·.addresses server) id b text b :=
  fitted_withNode server Network.addresses (fun _ _ => rfl) _

theorem certDomains_cases (b : Bridge Tailnet) (server : Handle) :
    Fails (·.certDomains server) b ∨ ∃ text, Offers (·.certDomains server) id b text b :=
  fitted_withNode server Network.certDomains (fun _ _ => rfl) _

theorem remoteAddress_cases (b : Bridge Tailnet) (listener conn : Handle) :
    Fails (·.remoteAddress listener conn) b ∨
      ∃ text, Offers (·.remoteAddress listener conn) id b text b := by
  unfold Fails Offers remoteAddress
  simp only [HandleTable.get_eq]
  cases b.listeners.find? listener with
  | none => exact .inl ⟨_, unsized_badHandle listener, fun _ => rfl⟩
  | some entry =>
    cases b.conns.find? conn with
    | none => exact .inl ⟨_, unsized_badHandle conn, fun _ => rfl⟩
    | some c =>
      dsimp only
      by_cases hc : c.listener = some listener
      · simp only [hc, ne_eq, not_true_eq_false, if_false]
        have hsame : (Network.remoteAddress entry.listener c.descriptor b.net).2 = b.net := rfl
        revert hsame
        generalize Network.remoteAddress entry.listener c.descriptor b.net = r
        obtain ⟨r, net⟩ := r
        rintro rfl
        cases r with
        | error f => exact .inl ⟨_, unsized_fatal f.message, fun _ => rfl⟩
        | ok endpoint => exact .inr ⟨endpoint.ip.name, fun _ => rfl⟩
      · simp only [ne_eq, hc, not_false_eq_true, if_true]
        exact .inl ⟨_, unsized_fatal _, fun _ => rfl⟩

section Surface
open Tailnet (Surfaced)

theorem loopback_surfaced {t : Tailnet} {n : NodeId} {info : LoopbackInfo}
    (h : t.Surfaced n info) : t.loopback n = (.ok info, t) := by
  rw [Tailnet.loopback, Tailnet.start_running h.1]
  dsimp only
  rw [h.2]

/-- A node that is asked for its local surface has one afterwards, and runs. -/
theorem surfaced_loopback {t : Tailnet} {n : NodeId} {info : LoopbackInfo}
    (h : (t.loopback n).1 = .ok info) : (t.loopback n).2.Surfaced n info := by
  have hruns := Tailnet.runs_start (t := t) (n := n)
  unfold Tailnet.loopback at h ⊢
  revert h hruns
  generalize t.start n = r
  obtain ⟨r, t₁⟩ := r
  intro h hruns
  cases r with
  | error f => cases h
  | ok =>
    dsimp only at h ⊢
    split at h
    · rename_i hstored
      cases h
      exact ⟨hruns rfl, hstored⟩
    · split at h
      · cases h
      · rw [Tailnet.Surfaced, Tailnet.Runs, Tailnet.node_log]
        refine ⟨?_, ?_⟩
        · exact (congrArg Tailnet.Node.phase (assign_same ..)).trans (hruns rfl)
        · exact (congrArg Tailnet.Node.loopback (assign_same ..)).trans
            (congrArg some (Except.ok.inj h))

theorem offers_of_answer {a : Loopback}
    (h : b.withNode server Network.loopback = (.ok a.info, b')) :
    Offers (·.loopback server) Loopback.address b a b' := by
  intro room
  have hcredentials := credentials_info a
  dsimp only
  rw [loopback, h]
  dsimp only [within]
  rw [hcredentials, Loopback.info]
  dsimp only
  generalize ensureFits a.address room = r
  cases r <;> rfl

theorem offers_surfaced {s : Server} {a : Loopback} (hs : b.servers.find? server = some s)
    (h : b.net.Surfaced s.node a.info) : Offers (·.loopback server) Loopback.address b a b := by
  rcases Traffic.withNode_live hs Network.loopback Tailnet.loopback fun _ _ => rfl with
    ⟨f, hf, -⟩ | ⟨info, hinfo, he⟩
  · rw [loopback_surfaced h] at hf
    cases hf
  · rw [loopback_surfaced h] at hinfo he
    obtain rfl := Except.ok.inj hinfo
    exact offers_of_answer he

/-- Asking a server for its local surface makes it, also where there is no room to tell. -/
theorem loopback_cases (b : Bridge Tailnet) (server : Handle)
    (hminted : ∀ s, b.servers.find? server = some s →
      ((b.net.loopback s.node).2.node s.node).Minted) :
    Fails (·.loopback server) b ∨ ∃ s a, b.servers.find? server = some s ∧
      (b.net.loopback s.node).2.Surfaced s.node a.info ∧
      Offers (·.loopback server) Loopback.address b a
        { b with net := (b.net.loopback s.node).2 } := by
  cases hs : b.servers.find? server with
  | none =>
    refine .inl ⟨_, unsized_badHandle server, fun room => ?_⟩
    dsimp only
    rw [loopback, Traffic.withNode_dead hs]
  | some s =>
    rcases Traffic.withNode_live hs Network.loopback Tailnet.loopback fun _ _ => rfl with
      ⟨f, -, he⟩ | ⟨info, hinfo, he⟩
    · refine .inl ⟨_, unsized_fatal f.toFailure.message, fun room => ?_⟩
      dsimp only
      rw [loopback, he]
      rfl
    · have hsurfaced := surfaced_loopback hinfo
      obtain ⟨a, rfl⟩ := info_of_minted (hminted s hs) hsurfaced.2
      exact .inr ⟨s, a, rfl, hsurfaced, offers_of_answer he⟩

end Surface

/-- What is on a server's record, whatever room there is for it. -/
theorem lastError_live {message : String} (hm : b.recordOf server = some message) (room : Nat) :
    b.lastError server room = truncate message room := by
  obtain ⟨s, hs, rfl⟩ := Option.map_eq_some_iff.mp hm
  rw [lastError, HandleTable.get_ok_iff.mpr hs]
  rfl

theorem lastError_dead (hm : b.recordOf server = none) (room : Nat) :
    b.lastError server room = .error (.badHandle server) := by
  rw [lastError, HandleTable.get_eq, Option.map_eq_none_iff.mp hm]
  rfl

end Bridge
end Handoff
