import Handoff.Proofs.Custody.Bridges
import Handoff.Proofs.Custody.Tenure

namespace Handoff.Custody
variable {c c' : Custody} {d e : Descriptor} {u : StreamUse}

def kept (c : Custody) : Spot → List Descriptor :=
  c.net.keptAt c.tables c.hand

/-- Whatever happens but the use of a connection. -/
structure Carries (c c' : Custody) : Prop where
  deeds : ∃ new, c'.deeds = c.deeds ++ new ∧ ∀ x ∈ new, ∃ i k, x = .issued i k ∨ x = .retired i k
  accounted : Accounted c.net.streams c'.net.streams c'.kept

theorem Carries.still (hd : c'.deeds = c.deeds)
    (h : Accounted c.net.streams c'.net.streams c'.kept) : Carries c c' :=
  ⟨⟨[], by rw [hd, List.append_nil], nofun⟩, h⟩

theorem verb_deeds (v : Verb) (i : Nat) (r : Reaction) :
    ∀ x ∈ v.deeds i r, ∃ j k, x = .issued j k ∨ x = .retired j k := by
  intro x hx
  unfold Verb.deeds at hx
  split at hx
  · exact ⟨_, _, .inr (List.mem_singleton.mp hx)⟩
  · exact ⟨_, _, .inr (List.mem_singleton.mp hx)⟩
  · split at hx
    · exact ⟨_, _, .inl (List.mem_singleton.mp hx)⟩
    · cases hx

section Moving
variable (h : Held c.net.streams c.kept)
include h

theorem keeps_bridge (i : Nat) : (c.bridge i).Keeps c.net.streams c.tables i c.hand := by
  unfold Bridge.Keeps
  rw [show (c.bridge i).toTables = c.tables i from rfl, assign_self]
  exact h.accounted

theorem carries_perform (i : Nat) (v : Verb) : Carries c (c.perform i v) := by
  refine ⟨⟨_, rfl, verb_deeds v i _⟩, ?_⟩
  have hkept : Bridge.Keeps c.net.streams c.tables i _
      (((c.bridge i).perform v).2.keep ((c.bridge i).perform v).1) :=
    ((keeps_bridge h i).perform v).same rfl rfl rfl
  exact hkept.hand_perm List.perm_append_comm

theorem carries_resume (w : Waiter) : Carries c (c.resume w) := by
  refine ⟨⟨_, rfl, verb_deeds _ _ _⟩, ?_⟩
  unfold kept
  rw [net_resume, tables_resume]
  exact (keeps_bridge h w.bridge).takes (takes_resumed c w)

theorem carries_pump (i : Nat) (k : FeedId) :
    Carries c { c with toTraffic := c.toTraffic.pump i k } := by
  unfold Traffic.pump
  split
  · rename_i f net hs
    have hself : c.net.Keeps c.net.streams
        (Tailnet.fed c.tables i (c.tables i) k ((c.tables i).feed k)) c.hand := by
      unfold Tailnet.fed
      rw [assign_self, show { c.tables i with feed := (c.tables i).feed } = c.tables i from rfl,
        assign_self]
      exact h.accounted
    exact .still rfl (hself.advance (Feed.advance_of_step hs))
  · exact .still rfl h.accounted

theorem carries_use (n : NodeId) (u : NodeUse) : Carries c (c.use n u) := by
  have hkeeps : c.net.Keeps c.net.streams c.tables c.hand := h.accounted
  have hnone : ∀ {t : Tailnet}, t.Keeps c.net.streams c.tables c.hand →
      t.Keeps c.net.streams c.tables (c.hand ++ []) := by
    intro t ht
    rwa [List.append_nil]
  cases u with
  | configure option => exact .still rfl (hnone (hkeeps.configure n option))
  | start => exact .still rfl (hnone (hkeeps.start n))
  | up => exact .still rfl (hnone (hkeeps.up n))
  | loopback => exact .still rfl (hnone (hkeeps.loopback n))
  | close => exact .still rfl (hnone (hkeeps.endNode n))
  | listen network address funnel =>
    exact .still rfl (hnone (hkeeps.listen n network address funnel))
  | dial network address =>
    have hdial := (hkeeps.dial n network address).hand_perm List.perm_append_comm
    have hdeeds : (c.use n (.dial network address)).deeds = c.deeds := rfl
    apply Carries.still hdeeds
    unfold use Traffic.use
    dsimp only
    revert hdial
    generalize c.net.dial n network address = p
    obtain ⟨r, net⟩ := p
    intro hdial
    cases r with
    | error f => exact hdial
    | ok d => exact hdial

theorem carries_release (hd : d ∈ c.hand) : Carries c (c.release d) := by
  have hkeeps : c.net.Keeps c.net.streams c.tables c.hand := h.accounted
  exact .still rfl (hkeeps.hand_perm (List.perm_cons_erase hd).symm).close

/-- Everything that happens closes copies as it lets go of them, or is the use of one. -/
theorem carries_move (hm : Move c c') :
    Carries c c' ∨ ∃ d u, d ∈ c.hand ∧ c' = c.useStream d u := by
  have hkeeps : c.net.Keeps c.net.streams c.tables c.hand := h.accounted
  cases hm with
  | newServer i _ => exact .inl (.still rfl (keeps_bridge h i).newServer)
  | perform i v _ => exact .inl (carries_perform h i v)
  | resume w _ => exact .inl (carries_resume h w)
  | pump i k _ => exact .inl (carries_pump h i k)
  | dropBridge i _ => exact .inl (.still rfl (keeps_bridge h i).drop)
  | newNode => exact .inl (.still rfl (hkeeps.of_eq rfl rfl))
  | use n u _ _ => exact .inl (carries_use h n u)
  | closeListener l => exact .inl (.still rfl (hkeeps.closeListener l))
  | useFiles files => exact .inl (.still rfl (hkeeps.of_eq rfl rfl))
  | useStream d u hd => exact .inr ⟨d, u, hd, rfl⟩
  | release d hd => exact .inl (carries_release h hd)

end Moving

structure Known (c : Custody) : Prop where
  held : Held c.net.streams c.kept
  faithful : Faithful c.deeds c.net.streams
  tenured : Tenured c.deeds c.tables

theorem known_start (suffix : String) (supply : Tailnet.Supply) (loopbackUp : Bool)
    (files : Files) : Known { net := { suffix, supply, loopbackUp, files } } where
  held := {
    covered := fun d S => by
      rw [Finset.sum_eq_zero]
      · exact Nat.zero_le _
      · intro p _
        cases p <;> rfl
    unmade := fun d _ => ⟨rfl, rfl⟩ }
  faithful := {
    balance := fun d => rfl
    ended := fun d hd => absurd hd (Nat.not_lt_zero _)
    seen := fun d hd => by cases hd }
  tenured := tenured_start

theorem known_move (h : Known c) (hm : Move c c') : Known c' := by
  obtain ⟨new, hnew, hnotes⟩ := notes_move hm
  have htenured : Tenured c'.deeds c'.tables := by
    rw [hnew]
    exact h.tenured.next hnotes
  rcases carries_move h.held hm with ⟨⟨added, hadded, hall⟩, hacc⟩ | ⟨d, u, hd, rfl⟩
  · refine ⟨hacc.toHeld, ?_, htenured⟩
    rw [hadded]
    exact h.faithful.accounted hacc hall
  · have hmade : d.stream < c.net.streams.count := h.held.made (p := .hand) hd
    have hused := c.net.streams.used_use d u
    exact ⟨h.held.used hmade hused, h.faithful.used hmade hused, htenured⟩

theorem Reachable.known (h : Reachable c) : Known c := by
  induction h with
  | start suffix supply loopbackUp files => exact known_start suffix supply loopbackUp files
  | next _ hm ih => exact known_move ih hm

theorem mem_conns {i : Nat} {k : Handle} {conn : Conn}
    (hk : (c.tables i).conns.find? k = some conn) : conn.descriptor ∈ c.kept (.conns i) := by
  apply List.mem_map_of_mem
  exact List.mem_map_of_mem (f := Prod.snd) (HandleTable.mem_live_iff.mpr hk)

/-- A second copy of the descriptor is with somebody, or a handle stands for it. -/
def Shared (c : Custody) (d : Descriptor) : Prop :=
  d ∈ c.hand.erase d ∨ ∃ i k conn, (c.tables i).conns.find? k = some conn ∧ conn.descriptor = d

def exchange : Custody :=
  let c := newServer { net := {} } 0
  let c := c.newServer 0
  let c := c.perform 0 (.listen ⟨2752513⟩ "tcp" ":80" none)
  let c := c.perform 0 (.dial ⟨2752514⟩ "tcp" "100.64.0.1:80")
  let c : Custody := { c with toTraffic := c.toTraffic.pump 0 0 }
  let c : Custody := { c with toTraffic := c.toTraffic.pump 0 0 }
  let c : Custody := { c with toTraffic := c.toTraffic.pump 0 0 }
  let c : Custody := { c with toTraffic := c.toTraffic.pump 0 0 }
  let c := c.perform 0 (.acceptNonblocking ⟨2818049⟩)
  let c := c.perform 0 (.connStream ⟨2883585⟩)
  let c := c.useStream ⟨0, .near⟩ (.write [104, 105])
  let c := c.release ⟨0, .near⟩
  let c := c.perform 0 (.takeConn ⟨2883586⟩)
  let c := c.useStream ⟨0, .far⟩ (.read 1)
  let c := c.perform 0 (.closeConn ⟨2883585⟩)
  c.useStream ⟨0, .far⟩ .readAll

end Handoff.Custody
