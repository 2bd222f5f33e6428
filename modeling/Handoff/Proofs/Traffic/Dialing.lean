import Handoff.Proofs.Traffic.Moving

namespace Handoff.Traffic
variable {net net' : Tailnet} {tables : Nat → Tables} {waiting : List Waiter} {log : List Event}
  {i : Nat} {b : Bridge Tailnet} {target : Endpoint} {l : ListenerId} {id : StreamId}

/-- A connection that is made joins the end of its listener's queue. -/
theorem Line.arrive {f : Feed} {h : Handle} {e : ListenerEntry} (hline : Line net log f i h e)
    (ha : net.Arrives net' target e.listener id) :
    Line net' (log ++ [.dialed target e.listener id]) f i h e where
  receiver := hline.receiver
  sender := hline.sender
  marked := hline.marked
  moving := hline.moving
  balance := by
    have hdial : dialedTo [.dialed target e.listener id] e.listener = [⟨id, .far⟩] := by
      simp [dialedTo]
    have hqueue : (net'.listener e.listener).queued =
        (net.listener e.listener).queued ++ [⟨id, .far⟩] := by
      rw [ha.here, Tailnet.Listener.queued, Tailnet.Listener.queued, List.map_append]
      rfl
    rw [dialedTo_append, acceptedAt_append, hdial, hqueue, hline.balance,
      show acceptedAt [.dialed target e.listener id] e.listener = [] from rfl]
    simp only [List.append_nil, List.append_assoc]
  records := fun p hp => by
    rw [acceptedAt_append] at hp
    exact hline.records p (by simpa [acceptedAt] using hp)

theorem Sound.arrives (h : Sound net tables waiting log)
    (ha : net.Arrives net' target l id) :
    Sound net' tables waiting (log ++ [.dialed target l id]) := by
  refine h.at ha.toMoves (fun _ => .refl l _) (h.wired.made l ha.serves.1) ?_ ?_ ?_ ?_
  · intro x hx
    rw [List.mem_singleton.mp hx]
    rfl
  · intro target' id' hmem
    cases List.mem_singleton.mp hmem
    exact ⟨ha.fresh, ha.counted, ha.serves.2⟩
  · exact List.nodup_singleton id
  · rintro j k e he rfl -
    exact (h.lines j k e he ha.serves.1).arrive ha

/-- A dial by a node adds a connection where it leads, or changes nothing that matters. -/
theorem dial_events (h : Sound net tables waiting log) (n : NodeId) (network address : String) :
    (∃ f, (net.dial n network address).1 = .error f ∧
      net.Calm (net.dial n network address).2) ∨
    ∃ id, (net.dial n network address).1 = .ok ⟨id, .near⟩ ∧
      Sound (net.dial n network address).2 tables waiting
        (log ++ dialEvent net n network address id) := by
  rcases Tailnet.dial_cases h.wired n network address with hf | ⟨target, l, id, hr, hto, ha⟩
  · exact .inl hf
  · refine .inr ⟨id, hr, ?_⟩
    unfold dialEvent
    rw [hto]
    exact h.arrives ha

/-- A dial by a server gives a handle for the near end of a connection whose far end is where the
dial leads, or it changes nothing that matters. -/
theorem dial_outcomes (hw : b.net.Wired) (server : Handle) (network address : String) :
    (∃ e b', b.dial server network address = (.error e, b') ∧ Quiet b b') ∨
    ∃ a target l id net conns k c, b.servers.find? server = some a ∧
      b.net.destination a.node network address = some (target, l) ∧
      b.net.Arrives net target l id ∧
      b.dial server network address = (.ok k, { b with net, conns }) ∧
      conns.find? k = some c ∧ c.descriptor = ⟨id, .near⟩ := by
  unfold Bridge.dial
  rcases withNode_worded b server (fun n => Network.dial n network address)
    (fun n => Tailnet.dial n network address) fun _ _ => rfl with ⟨e, he⟩ | ⟨a, ha, hop⟩
  · exact .inl ⟨e, b, by rw [he], .refl hw⟩
  · have hdial := Tailnet.dial_cases hw a.node network address
    rcases hop with ⟨f, hf, he⟩ | ⟨d, hd, he⟩
    · rcases hdial with ⟨_, -, hc⟩ | ⟨target, l, id, hid, -⟩
      · have hq : Quiet b { b with net := (b.net.dial a.node network address).2 } :=
          ⟨hc, .refl _⟩
        exact .inl ⟨_, _, by rw [he]; rfl,
          hq.trans (quiet_record hq.calm.wired server f.toFailure.message)⟩
      · cases hf.symm.trans hid
    · rcases hdial with ⟨f, hf, -⟩ | ⟨target, l, id, hid, hto, harrives⟩
      · cases hf.symm.trans hd
      · obtain rfl : (⟨id, .near⟩ : Descriptor) = d := Except.ok.inj (hid.symm.trans hd)
        exact .inr ⟨a, target, l, id, _, _, _, _, ha, hto, harrives,
          by rw [he], HandleTable.find?_allocated .., rfl⟩

/-- What a dial that succeeds leaves in the log. -/
theorem events_dial {server k : Handle} {network address : String} {b' : Bridge Tailnet}
    {a : Server} {c : Conn} (ha : b.servers.find? server = some a)
    (hto : b.net.destination a.node network address = some (target, l))
    (hc : b'.conns.find? k = some c) :
    events b i (.dial server network address) (.ends (.ok (.handle k))) b' =
      [.dialed target l c.descriptor.stream] := by
  simp only [events, ha, hc, dialEvent, hto]

theorem fits_dial (h : Fits tables waiting log i b) (server : Handle) (network address : String) :
    Fits tables waiting (log ++ events b i (.dial server network address)
      (.ends ((b.dial server network address).1.map .handle))
      (b.dial server network address).2) i (b.dial server network address).2 := by
  rcases dial_outcomes h.wired server network address with
    ⟨e, b', he, hq⟩ | ⟨a, target, l, id, net, conns, k, c, ha, hto, harrives, he, hc, hd⟩
  · rw [he]
    change Fits _ _ (log ++ []) _ _
    rw [List.append_nil]
    exact h.update hq.calm hq.alike
  · rw [he]
    let b' : Bridge Tailnet := { b with net, conns }
    have hev : events b i (.dial server network address) (.ends (.ok (.handle k))) b' =
      [.dialed target l c.descriptor.stream] := events_dial ha hto hc
    change Fits _ _ (log ++ events b i _ (.ends (.ok (.handle k))) b') _ _
    rw [hev, hd]
    have hfits : Fits tables waiting (log ++ [.dialed target l id]) i { b with net } :=
      h.arrives harrives
    have hq := quiet_setConns (b := { b with net }) hfits.wired conns
    exact hfits.update hq.calm hq.alike

end Handoff.Traffic
