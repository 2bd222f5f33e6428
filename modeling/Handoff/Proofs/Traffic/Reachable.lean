import Handoff.Proofs.Traffic.Accepting
import Handoff.Proofs.Traffic.Calls
import Handoff.Proofs.Traffic.Closing
import Handoff.Proofs.Traffic.Dialing

namespace Handoff.Traffic
variable {tables : Nat → Tables} {waiting : List Waiter} {log : List Event} {i : Nat}
  {b : Bridge Tailnet} {s s' : Traffic}

structure Performs (tables : Nat → Tables) (waiting : List Waiter) (log : List Event) (i : Nat)
    (b : Bridge Tailnet) (verb : Verb) (p : Reaction × Bridge Tailnet) : Prop where
  fits : Fits tables waiting (log ++ events b i verb p.1 p.2) i p.2
  placed : ∀ place, p.1 = .waits place → Placed p.2 place

theorem performs_ending {α : Type} {verb : Verb} {reply : α → Reply} {r : Outcome Tailnet α}
    (hf : Fits tables waiting log i r.2) (hr : ∀ a h, reply a ≠ .handle h) :
    Performs tables waiting log i b verb (Bridge.ending reply r) := by
  have hev : events b i verb (Bridge.ending reply r).1 (Bridge.ending reply r).2 = [] := by
    obtain ⟨r, b'⟩ := r
    unfold Bridge.ending events
    cases r with
    | error e => rfl
    | ok a =>
      dsimp only [Except.map]
      split
      · rename_i h he
        exact absurd (Except.ok.inj (Reaction.ends.inj he)) (hr a h)
      · rfl
  refine ⟨?_, fun place he => by cases he⟩
  rw [hev, List.append_nil]
  exact hf

theorem performs_quiet {α : Type} {verb : Verb} {reply : α → Reply} {r : Outcome Tailnet α}
    (h : Fits tables waiting log i b) (hq : Quiet b r.2) (hr : ∀ a h, reply a ≠ .handle h) :
    Performs tables waiting log i b verb (Bridge.ending reply r) :=
  performs_ending (h.update hq.calm hq.alike) hr

theorem performs_perform (h : Fits tables waiting log i b) (verb : Verb)
    (hroom : ∀ server network address funnel,
      verb = .listen server network address funnel → b.listeners.HasRoom) :
    Performs tables waiting log i b verb (b.perform verb) := by
  have hw : b.net.Wired := h.wired
  cases verb with
  | start server => exact performs_quiet h (quiet_asks hw (b.asks_start server)) nofun
  | up server => exact performs_quiet h (quiet_asks hw (b.asks_up server)) nofun
  | close server => exact performs_ending (fits_close h server) nofun
  | configure server option =>
    exact performs_quiet h (quiet_asks hw (b.asks_configure server option)) nofun
  | applyConfig server config =>
    exact performs_quiet h (quiet_asks hw (b.asks_configureAll server config.options)) nofun
  | dial server network address =>
    exact ⟨fits_dial h server network address, fun _ he => by cases he⟩
  | listen server network address funnel =>
    have hf := fits_listen h (hroom _ _ _ _ rfl) server network address funnel
    have hev : events b i (.listen server network address funnel)
        (b.perform (.listen server network address funnel)).1
        (b.perform (.listen server network address funnel)).2 = [] := by
      unfold events
      split <;> rfl
    refine ⟨?_, fun _ he => by cases he⟩
    rw [hev, List.append_nil]
    exact hf
  | addresses server capacity =>
    exact performs_quiet h (quiet_asks hw (b.asks_addresses server capacity)) nofun
  | certDomains server capacity =>
    exact performs_quiet h (quiet_asks hw (b.asks_certDomains server capacity)) nofun
  | loopback server capacity =>
    exact performs_quiet h (quiet_asks hw (b.asks_loopback server capacity)) nofun
  | lastError server capacity => exact performs_quiet h (.refl hw) nofun
  | accept l =>
    obtain ⟨hf, hp⟩ := fits_accept h l
    rw [← events_accept] at hf
    refine ⟨hf, fun place he => hp place ?_⟩
    exact waiting_of_reaction he
  | acceptNonblocking l =>
    have hf := fits_acceptNonblocking h l
    rw [← events_acceptNonblocking] at hf
    exact ⟨hf, fun _ he => by cases he⟩
  | acceptReady l =>
    obtain ⟨hf, hp⟩ := fits_acceptReady h l
    rw [← events_acceptReady] at hf
    refine ⟨hf, fun place he => hp place ?_⟩
    exact waiting_of_reaction he
  | listenerReadable l => exact performs_quiet h (.refl hw) nofun
  | closeListener l => exact performs_ending (fits_closeListener h l).1 nofun
  | remoteAddress l c capacity =>
    exact performs_quiet h (quiet_asks hw (b.asks_remoteAddress l c capacity)) nofun
  | connStream c => exact performs_quiet h (quiet_connStream hw c) nofun
  | takeConn c => exact performs_quiet h (quiet_takeConn hw c) nofun
  | closeConn c => exact performs_quiet h (quiet_closeConn hw c) nofun

def Intact (s : Traffic) : Prop :=
  Sound s.net s.tables s.waiting s.log

theorem fits_bridge (h : s.Intact) (i : Nat) :
    Fits s.tables s.waiting s.log i (s.bridge i) := by
  unfold Fits
  rw [show (s.bridge i).toTables = s.tables i from rfl, assign_self]
  exact h

theorem intact_perform (h : s.Intact) (i : Nat) (verb : Verb)
    (hroom : ∀ server network address funnel,
      verb = .listen server network address funnel → (s.tables i).listeners.HasRoom) :
    (s.perform i verb).Intact := by
  have hp := performs_perform (fits_bridge h i) verb hroom
  unfold perform
  revert hp
  generalize (s.bridge i).perform verb = p
  obtain ⟨r, b⟩ := p
  intro hp
  refine fits_waiting (fits_keep hp.fits r) fun w hw => ?_
  -- whoever waits anew waits at this bridge
  have hnew : ∀ ready place, r = .waits place → w ∈ s.waiting ++ [⟨i, ready, place⟩] →
      w ∈ s.waiting ∨ w.bridge = i ∧ Placed b w.place := by
    intro ready place hr hw
    rcases List.mem_append.mp hw with hw | hw
    · exact .inl hw
    · rw [List.mem_singleton.mp hw]
      exact .inr ⟨rfl, hp.placed place hr⟩
  dsimp only at hw
  split at hw
  · exact hnew _ _ rfl hw
  · exact hnew _ _ rfl hw
  · exact .inl hw

theorem intact_pump (h : s.Intact) {k : FeedId} (hk : k < (s.tables i).feeds) :
    (s.pump i k).Intact := by
  unfold pump
  split
  · rename_i f net hs
    exact fits_pump (fits_bridge h i) hk hs
  · exact h

theorem intact_resume (h : s.Intact) {w : Waiter} (hw : w ∈ s.waiting) : (s.resume w).Intact := by
  have hb := fits_bridge h w.bridge
  have herase : ∀ {log b}, Fits s.tables s.waiting log w.bridge b →
      Fits s.tables (s.waiting.erase w) log w.bridge (b.letGo w.place.feed) := fun hf =>
    fits_waiting (fits_letGo hf (placed_of_fits hf hw rfl).1)
      fun v hv => .inl (List.mem_of_mem_erase hv)
  unfold resume Bridge.resume
  cases w.ready with
  | true =>
    have hf := fits_resumeAcceptReady hb w.place
    simp only [if_true]
    revert hf
    generalize (s.bridge w.bridge).resumeAcceptReady w.place = p
    obtain ⟨a, b'⟩ := p
    intro hf
    cases a with
    | waiting place =>
      change Fits _ _ (s.log ++ []) _ _ at hf
      rwa [List.append_nil] at hf
    | done r =>
      change Fits _ _ (s.log ++ acceptGain _ _ _ b' r) _ b' at hf
      unfold acceptGain at hf
      cases hp : (s.bridge w.bridge).placeAt w.place.listener with
      | error e =>
        rw [hp, List.append_nil] at hf
        cases r <;> exact herase hf
      | ok place =>
        rw [hp] at hf
        cases r with
        | error e =>
          change Fits _ _ (s.log ++ []) _ _ at hf
          rw [List.append_nil] at hf
          exact herase hf
        | ok k => exact herase hf
  | false =>
    simp only [Bool.false_eq_true, if_false]
    rcases fits_resumeAccept hb (placed_of_fits hb hw rfl) with ⟨r, b', he, hf⟩ | he
    · rw [he]
      cases r with
      | error e =>
        change Fits _ _ (s.log ++ []) _ _ at hf
        rw [List.append_nil] at hf
        exact herase hf
      | ok k => exact herase hf
    · rw [he]
      exact hb

theorem intact_use (h : s.Intact) {n : NodeId} (hn : n < s.net.nodes) (hloose : s.Loose n)
    (u : NodeUse) : (s.use n u).Intact := by
  cases u with
  | configure option => exact Sound.still h (Tailnet.calm_configure h.wired n option)
  | start => exact Sound.still h (Tailnet.calm_start h.wired n)
  | up => exact Sound.still h (Tailnet.calm_up h.wired n)
  | loopback => exact Sound.still h (Tailnet.calm_loopback h.wired n)
  | close => exact Sound.still h (Tailnet.calm_close h.wired n)
  | listen network address funnel =>
    rcases Tailnet.listen_cases h.wired n network address funnel with ⟨_, -, hc, -⟩ | ⟨l, -, ho⟩
    · exact Sound.still h hc
    · exact Sound.opens h ho hn hloose
  | dial network address =>
    dsimp only [use]
    have hdial := dial_events h n network address
    revert hdial
    generalize s.net.dial n network address = p
    obtain ⟨r, net⟩ := p
    rintro (⟨f, hf, hc⟩ | ⟨id, hid, hs⟩)
    · obtain rfl : r = .error f := hf
      exact Sound.still h hc
    · obtain rfl : r = .ok ⟨id, .near⟩ := hid
      exact hs

theorem intact_move (h : s.Intact) (hm : Move s s') : s'.Intact := by
  cases hm with
  | newServer i => exact fits_newServer (fits_bridge h i)
  | perform i verb hroom => exact intact_perform h i verb hroom
  | resume w hw => exact intact_resume h hw
  | pump i k hk => exact intact_pump h hk
  | dropBridge i hw => exact sound_drop (fits_bridge h i) hw
  | newNode => exact Sound.still h (Tailnet.calm_newNode h.wired)
  | use n u hn hloose => exact intact_use h hn hloose u
  | closeListener l => exact Sound.still h (Tailnet.calm_closeListener h.wired l)
  | useStreams streams hs =>
    exact Sound.still h (Tailnet.calm_withStreams h.wired (Nat.le_of_eq hs.symm))
  | useFiles files => exact Sound.still h (Tailnet.calm_withFiles h.wired files)

theorem intact_start (suffix : String) (supply : Tailnet.Supply) (loopbackUp : Bool)
    (files : Files) : Intact { net := { suffix, supply, loopbackUp, files } } where
  wired := {
    made := fun _ ho => by cases ho
    listed := fun _ _ hl => by cases hl
    held := fun _ ho => by cases ho
    bound := fun _ hh => by cases hh
    routed := fun _ _ hr => by cases hr }
  owned := {
    hosts := fun _ _ hk => by cases hk
    distinct := fun _ _ _ hk => by cases hk
    owner := fun _ ho => by cases ho
    routed := fun _ _ _ hs => by cases hs.1 }
  tidy := fun _ => HandleTable.tidy_empty _ (by decide)
  unmade := fun _ _ => rfl
  nodes := fun _ _ _ ha => by cases ha
  apart := fun _ _ _ _ _ _ ha => by cases ha
  feeds := fun _ _ hk => absurd hk (Nat.not_lt_zero _)
  split := fun _ _ _ _ hk => absurd hk (Nat.not_lt_zero _)
  entries := fun _ _ _ he => by cases he
  single := fun _ _ _ _ _ he => by cases he
  served := fun _ _ _ ha => by cases ha
  waits := fun _ hw => by cases hw
  lines := fun _ _ _ he => by cases he
  dialed := fun _ _ _ hm => by cases hm
  accepted := fun _ _ _ hm => by cases hm
  fresh := List.nodup_nil

theorem Reachable.intact (h : Reachable s) : s.Intact := by
  induction h with
  | start suffix supply loopbackUp files => exact intact_start suffix supply loopbackUp files
  | next _ hm ih => exact intact_move ih hm

end Handoff.Traffic
