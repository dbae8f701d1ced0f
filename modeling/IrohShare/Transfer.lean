import IrohShare.ReceiverProofs
import IrohShare.SenderProofs

/-! One transfer: a sender that has written its offer, the handler that serves the
connection, and the reply stream between them. The reply stream is reliable and
ordered; any prefix of what was written may have arrived. -/
namespace IrohShare
open Wire Transition

structure Transfer where
  connection : Connection
  arrived : Nat
  consumed : Nat
  sender : Sender
  log : List Event
  deriving DecidableEq

inductive TransferEvent where
  | receiver (event : Event)
  | arrives
  | sender (event : SenderEvent)
  deriving DecidableEq

def Transfer.new (remote : EndpointId) (sent : Bytes) : Transfer :=
  ⟨.new remote sent, 0, 0, .deciding, []⟩

def Transfer.step (parse : String → Option BlobTicket) (transfer : Transfer) :
    TransferEvent → Option Transfer
  | .receiver event => (transfer.connection.step parse event).map fun connection =>
      { transfer with connection, log := event :: transfer.log }
  | .arrives =>
    if transfer.arrived < transfer.connection.written.length then
      some { transfer with arrived := transfer.arrived + 1 }
    else none
  | .sender (.received byte) =>
    if transfer.consumed < transfer.arrived ∧
        transfer.connection.written[transfer.consumed]? = some byte then
      (transfer.sender.step (.received byte)).map fun sender =>
        { transfer with sender, consumed := transfer.consumed + 1 }
    else none
  | .sender event => (transfer.sender.step event).map fun sender => { transfer with sender }

/-- The bytes of the current progress record still to be written. -/
def Download.pending : Download → Bytes
  | .reporting pending => pending
  | _ => []

/-- A result the sender has read is backed by what the receiver has done. -/
structure Backed (log : List Event) (written : Bytes) : Prop where
  completed : Sender.scan written = .returned (.ok .completed) → Saved log
  declined : Sender.scan written = .returned (.ok .declined) → TurnedDown log
  failed : Sender.scan written = .returned (.error (.message "download failed")) → ¬ Saved log

/-- What has been written on the reply stream, at each await point of the handler. -/
def Connection.Spoken (log : List Event) (connection : Connection) : Prop :=
  match connection.state with
  | .accepting | .reading | .offering _ | .deciding _ | .declining | .accepted _ _ =>
    connection.written = []
  | .downloading _ _ point => point.pending.foldl Sender.follow (Sender.scan connection.written) = .reading
  | .completing => Sender.scan connection.written = .reading
  | .failing _ => Sender.scan connection.written = .reading ∨
      (connection.broken = true ∧ ∀ result, Sender.scan connection.written ≠ .returned result)
  | .finishing _ | .closing _ | .returned _ => Backed log connection.written

theorem Backed.undecided (undecided : ∀ result, Sender.scan written ≠ .returned result) :
    Backed log written :=
  ⟨fun h => absurd h (undecided _), fun h => absurd h (undecided _), fun h => absurd h (undecided _)⟩

theorem Backed.reading (reading : Sender.scan written = .reading) : Backed log written :=
  .undecided (by simp [reading])

theorem Backed.empty : Backed log [] := .undecided (by simp [Sender.scan])

/-- Every event but a successful export keeps what backs a result. -/
theorem Backed.cons (backed : Backed log written)
    (unsaved : ∀ hash target, event ≠ .exported hash target .saved) :
    Backed (event :: log) written := by
  have same : Saved (event :: log) ↔ Saved log := by simp [saved_cons, unsaved]
  refine ⟨fun h => same.mpr (backed.completed h), ?_, fun h => mt same.mp (backed.failed h)⟩
  intro declined
  rcases backed.declined declined with old | old
  · exact .inl (.tail _ old)
  · exact .inr (.tail _ old)

theorem Download.spoken_next {connection : Connection}
    (move : Download.Move offer target point event next)
    (spoken : point.pending.foldl Sender.follow (Sender.scan connection.written) = .reading)
    (admitted : connection.admits parse event = true) :
    Connection.Spoken (event :: log) { connection with
      written := connection.written ++ event.bytes
      broken := connection.broken || event = .lost
      state := Handler.resume offer target next } := by
  cases move with
  | reported byte =>
    simpa [Connection.Spoken, Handler.resume, Download.pending, Event.bytes, Sender.scan_append]
      using spoken
  | reporting byte pending more =>
    simpa [Connection.Spoken, Handler.resume, Download.pending, Event.bytes, Sender.scan_append]
      using spoken
  | published bytes =>
    have reading : Sender.scan connection.written = .reading := spoken
    simp [Connection.Spoken, Handler.resume, Download.pending, Event.bytes, reading,
      Sender.progress_reads]
  | unreported pending error =>
    have broken : connection.broken = true := admitted
    refine .inr ⟨by simp [broken], ?_⟩
    intro result done
    simp only [Event.bytes, List.append_nil] at done
    rw [done, Sender.returned_absorbs] at spoken
    cases spoken
  | blocked | unopened | broke | unpublished | unsaved =>
    exact .inl (by simpa [Event.bytes, Download.pending] using spoken)
  | absent | opened | ended | progressed | skipped | saved | replaced =>
    simpa [Connection.Spoken, Handler.resume, Download.pending, Event.bytes] using spoken

theorem spoken_next {connection next : Connection}
    (facts : Handler.Facts connection.remote log connection.state)
    (spoken : connection.Spoken log) (stepped : connection.step parse event = some next) :
    next.Spoken (event :: log) := by
  obtain ⟨admitted, move, same⟩ := Connection.step_move stepped
  have stage := facts.stage
  rw [same]
  generalize next.state = state at move
  unfold Connection.Spoken at spoken
  generalize connection.state = before at move spoken stage
  cases move with
  | downloading move => exact Download.spoken_next move spoken admitted
  | lost =>
    simp only [Connection.Spoken, Event.bytes, List.append_nil]
    cases state with
    | failing error => exact spoken.imp_right fun ⟨broken, open_⟩ => ⟨by simp [broken], open_⟩
    | finishing | closing | returned => exact spoken.cons (by simp)
    | _ => exact spoken
  | connected | read | offered | chosen | turnedDown =>
    simpa [Connection.Spoken, Event.bytes] using spoken
  | unconnected | notAllowed | unread | unoffered | undeclined | ungreeted =>
    simp only [Connection.Spoken, Event.bytes, List.append_nil, spoken]
    exact .empty
  | declined =>
    have done : Sender.scan [0] = .returned (.ok .declined) := by decide
    simp only [Connection.Spoken, Event.bytes, spoken, List.nil_append]
    exact ⟨by simp [done], fun _ => stage.imp (.tail _) (.tail _), by simp [done]⟩
  | greeted offer downloadDir =>
    have reading : Sender.scan [1] = .reading := by decide
    simp only [Connection.Spoken, Event.bytes, spoken, List.nil_append]
    unfold download
    cases targetOf downloadDir offer with
    | none => exact .inl reading
    | some target => exact reading
  | completed =>
    have done : Sender.scan (connection.written ++ [3]) = .returned (.ok .completed) := by
      rw [Sender.scan_append, spoken]
      decide
    simp only [Connection.Spoken, Event.bytes]
    exact ⟨fun _ => saved_cons.mpr (.inr stage), by simp [done], by simp [done]⟩
  | uncompleted =>
    simp only [Connection.Spoken, Event.bytes, List.append_nil]
    exact .reading spoken
  | failed =>
    have intact : connection.broken = false := by simpa using admitted
    have reading : Sender.scan connection.written = .reading := by simpa [intact] using spoken
    have done : Sender.scan (connection.written ++ [4]) =
        .returned (.error (.message "download failed")) := by
      rw [Sender.scan_append, reading]
      decide
    simp only [Connection.Spoken, Event.bytes]
    exact ⟨by simp [done], by simp [done], fun _ => by simpa [saved_cons] using stage.2⟩
  | unfailed =>
    simp only [Connection.Spoken, Event.bytes, List.append_nil]
    rcases spoken with reading | ⟨_, undecided⟩
    · exact .reading reading
    · exact .undecided undecided
  | finished | unfinished | closed =>
    simp only [Connection.Spoken, Event.bytes, List.append_nil]
    exact spoken.cons (by simp)

def Sender.GaveUp (sender : Sender) : Prop :=
  sender ∈ [.returned (.error (.message "receiver did not respond within 60 seconds")),
    .returned (.error (.message "accept byte was not received")),
    .returned (.error .unexpectedEof), .returned (.error .noReceiver)]

/-- The sender has given up, or stands where the bytes it has read put it. -/
def Transfer.Follows (transfer : Transfer) : Prop :=
  transfer.sender.GaveUp ∨
    transfer.sender.settle = Sender.scan (transfer.connection.written.take transfer.consumed)

structure Transfer.Inv (parse : String → Option BlobTicket) (remote : EndpointId)
    (sent : Bytes) (transfer : Transfer) : Prop where
  runs : Run (Steps (Connection.step parse)) (.new remote sent) transfer.log transfer.connection
  spoken : transfer.connection.Spoken transfer.log
  consumed : transfer.consumed ≤ transfer.arrived
  arrived : transfer.arrived ≤ transfer.connection.written.length
  follows : transfer.Follows

theorem Sender.step_received {sender next : Sender}
    (stepped : sender.step (.received byte) = some next) :
    next.settle = sender.settle.follow byte ∧ ∀ result, sender ≠ .returned result := by
  cases sender <;> cases stepped <;> exact ⟨rfl, by simp⟩

/-- Without reading, a sender gives up or moves on from publishing. -/
theorem Sender.step_local {sender next : Sender} (reads : ∀ byte, event ≠ .received byte)
    (stepped : sender.step event = some next) :
    next.GaveUp ∨ (next.settle = sender.settle ∧ ¬ sender.GaveUp) := by
  cases event with
  | received byte => exact absurd rfl (reads byte)
  | readFailed | timedOut =>
    cases sender <;> cases stepped <;> exact .inl (by simp [GaveUp])
  | published value ok =>
    cases sender with
    | publishing bytes =>
      change (if value = bytes then some _ else none) = some next at stepped
      by_cases named : value = bytes
      · rw [if_pos named] at stepped
        cases stepped
        cases ok
        · exact .inl (by simp [GaveUp])
        · exact .inr ⟨rfl, by simp [GaveUp]⟩
      · rw [if_neg named] at stepped
        cases stepped
    | _ => cases stepped

theorem Transfer.inv_next {before after : Transfer} (inv : before.Inv parse remote sent)
    (stepped : before.step parse event = some after) : after.Inv parse remote sent := by
  obtain ⟨runs, spoken, consumed, arrived, follows⟩ := inv
  cases event with
  | receiver event =>
    obtain ⟨connection, moved, rfl⟩ := Option.map_eq_some_iff.mp stepped
    obtain ⟨peer, _, facts, _⟩ := connection_facts runs
    have longer : before.connection.written <+: connection.written := by
      rw [(Connection.step_move moved).2.2]
      exact List.prefix_append _ _
    refine ⟨runs.next moved, spoken_next (peer.symm ▸ facts) spoken moved, consumed,
      arrived.trans longer.length_le, follows.imp_right fun reached => ?_⟩
    obtain ⟨more, extended⟩ := longer
    rw [← extended, List.take_append_of_le_length (consumed.trans arrived)]
    exact reached
  | arrives =>
    simp only [Transfer.step] at stepped
    split at stepped <;> cases stepped
    rename_i room
    exact ⟨runs, spoken, consumed.trans (Nat.le_succ _), room, follows⟩
  | sender event =>
    cases event with
    | received byte =>
      simp only [Transfer.step] at stepped
      split at stepped
      · rename_i available
        obtain ⟨sender, moved, rfl⟩ := Option.map_eq_some_iff.mp stepped
        obtain ⟨settled, running⟩ := Sender.step_received moved
        refine ⟨runs, spoken, available.1, arrived, .inr ?_⟩
        rcases follows with gaveUp | reached
        · simp only [Sender.GaveUp, List.mem_cons, List.not_mem_nil, or_false] at gaveUp
          rcases gaveUp with done | done | done | done <;> exact absurd done (running _)
        · rw [settled, reached, List.take_add_one, available.2, Sender.scan_append]
          rfl
      · cases stepped
    | readFailed | timedOut | published =>
      obtain ⟨sender, moved, rfl⟩ := Option.map_eq_some_iff.mp stepped
      refine ⟨runs, spoken, consumed, arrived, ?_⟩
      rcases Sender.step_local (by simp) moved with gaveUp | ⟨settled, running⟩
      · exact .inl gaveUp
      · exact .inr (settled.trans (follows.resolve_left running))

theorem Transfer.inv_initial : (Transfer.new remote sent).Inv parse remote sent :=
  ⟨.start, rfl, le_rfl, le_rfl, .inr rfl⟩

theorem Transfer.inv
    (run : Run (Steps (Transfer.step parse)) (.new remote sent) past transfer) :
    transfer.Inv parse remote sent :=
  run.invariant inv_initial inv_next

/-- Before the handler ends, the bytes it has written leave the result open. -/
theorem Connection.Spoken.backed {connection : Connection} (spoken : connection.Spoken log) :
    Backed log connection.written := by
  unfold Connection.Spoken at spoken
  split at spoken
  case h_7 point _ =>
    refine .undecided fun result done => ?_
    rw [done, Sender.returned_absorbs] at spoken
    cases spoken
  case h_8 => exact .reading spoken
  case h_9 =>
    rcases spoken with reading | ⟨_, undecided⟩
    · exact .reading reading
    · exact .undecided undecided
  all_goals first | exact spoken | rw [spoken]; exact .empty

/-- A result the sender has returned is the one the written bytes decide. -/
theorem Transfer.Inv.scanned {transfer : Transfer} (inv : transfer.Inv parse remote sent)
    (result : transfer.sender = .returned outcome) (remotely : ¬ transfer.sender.GaveUp) :
    Sender.scan transfer.connection.written = .returned outcome := by
  have reached := inv.follows.resolve_left remotely
  rw [result] at reached
  exact Sender.scan_prefix reached.symm (List.take_prefix _ _)

/-- Unless it gives up, the sender returns what the readers of `run_sender` find in
all the receiver has written, however much of it has arrived. -/
theorem Transfer.returned_reads {transfer : Transfer}
    (run : Run (Steps (Transfer.step parse)) (.new remote sent) past transfer)
    (result : transfer.sender = .returned outcome) (remotely : ¬ transfer.sender.GaveUp) :
    outcome = (runSender transfer.connection.written).2 := by
  rw [← Sender.scan_ends, (Transfer.inv run).scanned result remotely]
  rfl

/-- The handler's log only grows, and a sender that has returned stays returned. -/
theorem Transfer.step_frame {before after : Transfer}
    (stepped : before.step parse event = some after) :
    before.log <:+ after.log ∧
      ∀ result, before.sender = .returned result → after.sender = .returned result := by
  cases event with
  | receiver event =>
    obtain ⟨connection, _, rfl⟩ := Option.map_eq_some_iff.mp stepped
    exact ⟨List.suffix_cons _ _, fun _ => id⟩
  | arrives =>
    simp only [Transfer.step] at stepped
    split at stepped <;> cases stepped
    exact ⟨List.suffix_rfl, fun _ => id⟩
  | sender event =>
    have moved : ∃ sender consumed, before.sender.step event = some sender ∧
        after = { before with sender, consumed } := by
      cases event with
      | received byte =>
        simp only [Transfer.step] at stepped
        split at stepped
        · obtain ⟨sender, moved, rfl⟩ := Option.map_eq_some_iff.mp stepped
          exact ⟨sender, _, moved, rfl⟩
        · cases stepped
      | readFailed | timedOut | published =>
        obtain ⟨sender, moved, rfl⟩ := Option.map_eq_some_iff.mp stepped
        exact ⟨sender, _, moved, rfl⟩
    obtain ⟨sender, consumed, moved, rfl⟩ := moved
    refine ⟨List.suffix_rfl, fun result done => ?_⟩
    rw [done] at moved
    cases moved

theorem Transfer.run_frame
    (run : Run (Steps (Transfer.step parse)) first past last) : first.log <:+ last.log ∧
      ∀ result, first.sender = .returned result → last.sender = .returned result := by
  apply run.invariant (P := fun transfer => first.log <:+ transfer.log ∧
    ∀ result, first.sender = .returned result → transfer.sender = .returned result)
  · exact ⟨List.suffix_rfl, fun _ => id⟩
  · rintro before event after ⟨grown, stays⟩ stepped
    obtain ⟨grows, keeps⟩ := step_frame stepped
    exact ⟨grown.trans grows, fun result done => keeps result (stays result done)⟩

/-- What the two ends agree on: `now` is any reachable state, `later` any state
reached from it. -/
structure Agreement (remote : EndpointId) (offer : Offer) (now later : Transfer) : Prop where
  completed : now.sender = .returned (.ok .completed) → ∃ downloadDir target,
    Approved remote now.log offer downloadDir ∧ targetOf downloadDir offer = some target ∧
      .exported offer.ticket.hash target .saved ∈ now.log
  declined : now.sender = .returned (.ok .declined) →
    ∀ event ∈ later.log, event.isTransfer = false
  turnedDown : TurnedDown now.log → later.sender ≠ .returned (.ok .completed)
  failed : now.sender = .returned (.error (.message "download failed")) → ¬ Saved later.log

theorem TurnedDown.no_transfer {state : Handler} (turnedDown : TurnedDown log)
    (facts : Handler.Facts remote log state) : ∀ event ∈ log, event.isTransfer = false := by
  intro event inside
  by_contra transfer
  obtain ⟨_, _, _, approved, _⟩ := facts.transfers event inside (by simpa using transfer)
  rcases turnedDown with declined | dropped
  · simpa using facts.oneDecision _ _ approved.chosen declined
  · simpa using facts.oneDecision _ _ approved.chosen dropped

/-- For every interleaving of the sender, the handler, the user and the network. -/
theorem sender_receiver_agree {toString : BlobTicket → String}
    (undoes : parse (toString offer.ticket) = some offer.ticket)
    (sent : offer.writeTo toString ⟨[], false, budget⟩ = (.ok (), stream))
    (run : Run (Steps (Transfer.step parse)) (.new remote stream.written) past now)
    (more : Run (Steps (Transfer.step parse)) now rest later) :
    Agreement remote offer now later := by
  have inv := Transfer.inv run
  have invLater := Transfer.inv (run.trans more)
  obtain ⟨_, _, facts, decoded⟩ := connection_facts inv.runs
  obtain ⟨_, _, factsLater, _⟩ := connection_facts invLater.runs
  obtain ⟨⟨newer, grown⟩, stays⟩ := Transfer.run_frame more
  constructor
  · intro completed
    have scanned := inv.scanned completed (by simp [completed, Sender.GaveUp])
    obtain ⟨hash, path, saved⟩ := inv.spoken.backed.completed scanned
    obtain ⟨other, downloadDir, target, approved, found, rfl, rfl⟩ :=
      facts.transfers _ saved rfl
    obtain rfl := decode_written undoes sent (decoded other approved.read)
    exact ⟨downloadDir, path, approved, found, saved⟩
  · intro declined
    have declined := stays _ declined
    have scanned := invLater.scanned declined (by simp [declined, Sender.GaveUp])
    exact (invLater.spoken.backed.declined scanned).no_transfer factsLater
  · intro turnedDown completed
    have scanned := invLater.scanned completed (by simp [completed, Sender.GaveUp])
    obtain ⟨hash, path, saved⟩ := invLater.spoken.backed.completed scanned
    have still : TurnedDown later.log := by
      rw [← grown]
      exact turnedDown.imp (List.mem_append_right _) (List.mem_append_right _)
    simpa [Event.isTransfer] using still.no_transfer factsLater _ saved
  · intro failed
    have failed := stays _ failed
    have scanned := invLater.scanned failed (by simp [failed, Sender.GaveUp])
    exact invLater.spoken.backed.failed scanned

def sampleTransfer : List TransferEvent :=
  sampleReceive.map .receiver ++
    [.arrives, .arrives, .sender (.received 1), .sender (.received 3)]

theorem sampleTransfer_sent : sampleOffer.writeTo sampleToString ⟨[], false, none⟩ =
    (.ok (), ⟨sampleOffer.encode sampleText, true, none⟩) :=
  writeTo_accepts (by decide +kernel) []

theorem sampleTransfer_run : ∃ transfer, Run (Steps (Transfer.step sampleParse))
      (.new sampleTicket.addr.id (sampleOffer.encode sampleText)) sampleTransfer.reverse transfer ∧
    transfer.sender = .returned (.ok .completed) := by
  apply execute_reaches
  decide +kernel

theorem sender_receiver_agree_sample : ∃ now : Transfer,
    now.sender = .returned (.ok .completed) ∧
      Agreement sampleTicket.addr.id sampleOffer now now := by
  obtain ⟨transfer, run, completed⟩ := sampleTransfer_run
  exact ⟨transfer, completed, sender_receiver_agree
    (by decide +kernel) sampleTransfer_sent run .start⟩

end IrohShare
