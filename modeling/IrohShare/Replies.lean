import IrohShare.Transfer

/-! What the receiver says on its reply stream, and what the sender makes of it: the
progress records are those of the values the receiver's window was told, in order, and
the sender's window is told an initial piece of them. -/
namespace IrohShare
open Wire Transition

/-- The progress value an event relays to the window, before it goes to the sender. -/
def Event.relays : Event → Option UInt64
  | .published bytes true => some bytes
  | _ => none

def relayed (log : List Event) : List UInt64 := collect Event.relays log

theorem relayed_silent (silent : event.relays = none) : relayed (event :: log) = relayed log :=
  collect_silent silent

/-- The beginning of a record that is not finished. -/
structure PartialRecord (value : UInt64) (part : Bytes) : Prop where
  starts : part <+: (DownloadStatus.progress value).bytes
  short : part.length < 9

/-- The record of the latest value is cut short, all earlier ones are complete. -/
def CutShort (log : List Event) (written : Bytes) : Prop :=
  ∃ values value part, relayed log = values ++ [value] ∧ PartialRecord value part ∧
    written = 1 :: (progressRecords values ++ part)

/-- Every relayed value has its record, and nothing follows yet. -/
def AllRecorded (log : List Event) (written : Bytes) : Prop :=
  written = 1 :: progressRecords (relayed log)

theorem AllRecorded.cons (all : AllRecorded log written) (silent : event.relays = none) :
    AllRecorded (event :: log) written := by
  rw [AllRecorded, relayed_silent silent]
  exact all

/-- The forms a reply has, with what the handler has done by then. -/
inductive Reply (log : List Event) : Bytes → Prop where
  | silent : Reply log []
  | declined (turnedDown : TurnedDown log) : Reply log [0]
  | recorded (all : AllRecorded log written) : Reply log written
  | cut (short : CutShort log written) : Reply log written
  | completed (saved : Saved log) (all : AllRecorded log written) : Reply log (written ++ [3])
  | failed (unsaved : ¬ Saved log) (all : AllRecorded log written) : Reply log (written ++ [4])

/-- The whole reply, by the result that `accept` returns. -/
def Ended (log : List Event) (written : Bytes) : Except AcceptError Unit → Prop
  | .ok () => Saved log ∧ ∃ front, AllRecorded log front ∧ written = front ++ [3]
  | .error _ => Reply log written

/-- The reply at each await point of `download`. -/
def Download.Replying (log : List Event) (written : Bytes) : Download → Prop
  | .reporting pending => pending ≠ [] ∧ ∃ values value sent,
      relayed log = values ++ [value] ∧ sent ++ pending = (DownloadStatus.progress value).bytes ∧
      written = 1 :: (progressRecords values ++ sent)
  | _ => AllRecorded log written

/-- The reply at each await point of the handler. -/
def Connection.Replying (log : List Event) (connection : Connection) : Prop :=
  match connection.state with
  | .accepting | .reading | .offering _ | .deciding _ | .declining | .accepted _ _ =>
    connection.written = [] ∧ relayed log = []
  | .downloading _ _ point => point.Replying log connection.written
  | .completing => AllRecorded log connection.written
  | .failing _ => AllRecorded log connection.written ∨
      (connection.broken = true ∧ CutShort log connection.written)
  | .finishing result | .closing result | .returned result => Ended log connection.written result

theorem cutShort_of_reporting (more : pending ≠ []) (latest : relayed log = values ++ [value])
    (whole : sent ++ pending = (DownloadStatus.progress value).bytes)
    (same : written = 1 :: (progressRecords values ++ sent)) : CutShort log written := by
  have size := congrArg List.length whole
  have left := List.length_pos_iff.mpr more
  simp only [List.length_append, DownloadStatus.bytes, List.length_cons, u64Bytes_length] at size
  exact ⟨values, value, sent, latest, ⟨⟨pending, whole⟩, by omega⟩, same⟩

theorem progressRecords_concat : progressRecords (values ++ [value]) =
    progressRecords values ++ (DownloadStatus.progress value).bytes := by
  simp [progressRecords]

theorem Reply.cons (reply : Reply log written) (silent : event.relays = none)
    (unsaved : ∀ hash target, event ≠ .exported hash target .saved) :
    Reply (event :: log) written := by
  have same : relayed (event :: log) = relayed log := relayed_silent silent
  have still : Saved (event :: log) ↔ Saved log := by simp [saved_cons, unsaved]
  cases reply with
  | silent => exact .silent
  | declined turnedDown => exact .declined (turnedDown.imp (.tail _) (.tail _))
  | recorded all => exact .recorded (all.cons silent)
  | cut short => exact .cut (by rw [CutShort, same]; exact short)
  | completed saved all => exact .completed (still.mpr saved) (all.cons silent)
  | failed unsaved all => exact .failed (mt still.mp unsaved) (all.cons silent)

theorem Download.replying_next {connection : Connection}
    (move : Download.Move offer target point event next)
    (replying : point.Replying log connection.written)
    (admitted : connection.admits parse event = true) :
    Connection.Replying (event :: log) { connection with
      written := connection.written ++ event.bytes
      broken := connection.broken || event = .lost
      state := Handler.resume offer target next } := by
  cases move with
  | reported byte =>
    obtain ⟨_, values, value, sent, latest, whole, same⟩ := replying
    simp only [Connection.Replying, Handler.resume, Replying, AllRecorded, Event.bytes]
    rw [relayed_silent rfl, latest, progressRecords_concat, ← whole, same]
    simp
  | reporting byte pending more =>
    obtain ⟨_, values, value, sent, latest, whole, same⟩ := replying
    refine ⟨more, values, value, sent ++ [byte], (relayed_silent rfl).trans latest, ?_, ?_⟩
    · rw [← whole, List.append_assoc, List.singleton_append]
    · simp only [Event.bytes, same]
      simp
  | published bytes =>
    have all : connection.written = 1 :: progressRecords (relayed log) := replying
    refine ⟨by simp [DownloadStatus.bytes], relayed log, bytes, [], ?_, rfl, ?_⟩
    · exact collect_cons _ _
    · simpa [Event.bytes] using all
  | unreported pending error =>
    have broken : connection.broken = true := admitted
    obtain ⟨more, values, value, sent, latest, whole, same⟩ := replying
    refine .inr ⟨by simp [broken], ?_⟩
    simp only [Event.bytes, List.append_nil]
    exact cutShort_of_reporting more ((relayed_silent rfl).trans latest) whole same
  | blocked | unopened | broke | unpublished | unsaved =>
    refine .inl ?_
    simp only [Event.bytes, List.append_nil]
    exact AllRecorded.cons replying rfl
  | absent | opened | ended | progressed | skipped | saved | replaced =>
    simp only [Connection.Replying, Handler.resume, Event.bytes, List.append_nil]
    exact AllRecorded.cons replying rfl

theorem Ended.reply (ended : Ended log written result) : Reply log written := by
  cases result with
  | error error => exact ended
  | ok =>
    obtain ⟨saved, front, all, rfl⟩ := ended
    exact .completed saved all

theorem Ended.cons (ended : Ended log written result) (silent : event.relays = none)
    (unsaved : ∀ hash target, event ≠ .exported hash target .saved) :
    Ended (event :: log) written result := by
  cases result with
  | error error => exact Reply.cons ended silent unsaved
  | ok =>
    obtain ⟨saved, front, all, same⟩ := ended
    exact ⟨saved_cons.mpr (.inr saved), front, all.cons silent, same⟩

theorem CutShort.cons (short : CutShort log written) (silent : event.relays = none) :
    CutShort (event :: log) written := by
  rw [CutShort, relayed_silent silent]
  exact short

theorem Download.Replying.lost (replying : Download.Replying log written point) :
    Download.Replying (.lost :: log) written point := by
  have same : relayed (.lost :: log) = relayed log := relayed_silent rfl
  cases point with
  | reporting => simpa only [Download.Replying, same] using replying
  | _ => exact AllRecorded.cons replying rfl

theorem step_unconnected {connection next : Connection}
    (stepped : connection.step parse (.acceptBi false) = some next)
    (state : connection.state = .accepting) : next.state = .returned (.error .connection) := by
  obtain ⟨remote, incoming, written, broken, _⟩ := connection
  obtain rfl := state
  unfold Connection.step at stepped
  split at stepped <;> cases stepped
  rfl

theorem replying_next {connection next : Connection}
    (facts : Handler.Facts connection.remote log connection.state)
    (replying : connection.Replying log) (stepped : connection.step parse event = some next) :
    next.Replying (event :: log) := by
  obtain ⟨admitted, move, same⟩ := Connection.step_move stepped
  have stage := facts.stage
  have unconnected (event_eq : event = .acceptBi false) (state : connection.state = .accepting) :
      next.state = .returned (.error .connection) := step_unconnected (event_eq ▸ stepped) state
  rw [same]
  generalize next.state = state at move unconnected
  unfold Connection.Replying at replying
  generalize connection.state = before at move replying stage unconnected
  cases move with
  | downloading move => exact Download.replying_next move replying admitted
  | lost =>
    simp only [Connection.Replying, Event.bytes, List.append_nil]
    cases state with
    | downloading offer target point => exact replying.lost
    | completing => exact replying.cons rfl
    | failing error =>
      exact replying.imp (·.cons rfl) fun broke => ⟨by simp, broke.2.cons rfl⟩
    | finishing | closing | returned => exact replying.cons rfl (by simp)
    | _ => exact replying
  | connected | read | offered | chosen | turnedDown =>
    simp only [Connection.Replying, Event.bytes, List.append_nil]
    exact ⟨replying.1, (relayed_silent rfl).trans replying.2⟩
  | unconnected result =>
    rw [unconnected rfl rfl]
    simp only [Connection.Replying, Event.bytes, List.append_nil, replying.1]
    exact Reply.silent
  | notAllowed | unread | unoffered | undeclined | ungreeted =>
    simp only [Connection.Replying, Event.bytes, List.append_nil, replying.1]
    exact Reply.silent
  | declined =>
    simp only [Connection.Replying, Event.bytes, replying.1, List.nil_append]
    exact Reply.declined (stage.imp (.tail _) (.tail _))
  | greeted offer downloadDir =>
    obtain ⟨empty, none⟩ := replying
    have all : AllRecorded (.wrote 1 :: log) [1] := by
      rw [AllRecorded, relayed_silent rfl, none]
      rfl
    simp only [Connection.Replying, Event.bytes, empty, List.nil_append]
    unfold download
    cases targetOf downloadDir offer with
    | none => exact .inl all
    | some target => exact all
  | completed =>
    simp only [Connection.Replying, Event.bytes]
    exact ⟨saved_cons.mpr (.inr stage), _, replying.cons rfl, rfl⟩
  | uncompleted =>
    simp only [Connection.Replying, Event.bytes, List.append_nil]
    exact Reply.recorded (replying.cons rfl)
  | failed =>
    have intact : connection.broken = false := by simpa using admitted
    have all : AllRecorded log connection.written := by simpa [intact] using replying
    simp only [Connection.Replying, Event.bytes]
    exact Reply.failed (by simpa [saved_cons] using stage.2) (all.cons rfl)
  | unfailed =>
    simp only [Connection.Replying, Event.bytes, List.append_nil]
    rcases replying with all | ⟨_, short⟩
    · exact Reply.recorded (all.cons rfl)
    · exact Reply.cut (short.cons rfl)
  | finished | closed =>
    simp only [Connection.Replying, Event.bytes, List.append_nil]
    exact replying.cons rfl (by simp)
  | unfinished =>
    simp only [Connection.Replying, Event.bytes, List.append_nil]
    exact replying.reply.cons rfl (by simp)

theorem Connection.Replying.reply {connection : Connection} (replying : connection.Replying log) :
    Reply log connection.written := by
  unfold Connection.Replying at replying
  split at replying
  case h_7 point _ =>
    cases point with
    | reporting pending =>
      obtain ⟨more, values, value, sent, latest, whole, same⟩ := replying
      exact .cut (cutShort_of_reporting more latest whole same)
    | _ => exact .recorded replying
  case h_8 => exact .recorded replying
  case h_9 => exact replying.elim .recorded fun ⟨_, short⟩ => .cut short
  case h_10 | h_11 | h_12 => exact replying.reply
  all_goals
    rw [replying.1]
    exact .silent

theorem connection_replying
    (run : Run (Steps (Connection.step parse)) (.new remote incoming) log connection) :
    connection.Replying log := by
  apply run.history (P := fun log connection => connection.Replying log)
  · exact ⟨rfl, rfl⟩
  · intro log before event after run replying stepped
    obtain ⟨peer, _, facts, _⟩ := connection_facts run
    exact replying_next (peer.symm ▸ facts) replying stepped

/-- Whatever the sender, the user, the store and the network do, the reply stream has one
of the forms of a reply, and `accept` returns `Ok` only behind a complete one. -/
theorem replies_conform
    (run : Run (Steps (Connection.step parse)) (.new remote incoming) log connection) :
    Reply log connection.written ∧ (connection.state = .returned (.ok ()) → Saved log ∧
      connection.written = 1 :: (progressRecords (relayed log) ++ [3])) := by
  have replying := connection_replying run
  refine ⟨replying.reply, fun done => ?_⟩
  rw [Connection.Replying, done] at replying
  obtain ⟨saved, front, all, same⟩ := replying
  refine ⟨saved, ?_⟩
  rw [same, all, List.cons_append]

/-- Nothing short of a whole record is read as one. -/
theorem PartialRecord.noRecord (part : PartialRecord value sent) : NoRecord sent := by
  rintro other rest rfl
  have short := part.short
  simp only [List.length_append, DownloadStatus.bytes, List.length_cons, u64Bytes_length] at short
  omega

theorem noRecord_status (status : UInt8) (other : status ≠ 2) : NoRecord [status] := by
  rintro value rest same
  simp only [DownloadStatus.bytes, List.cons_append, List.cons.injEq] at same
  exact other same.1

/-- Behind its first byte a reply starts with records of relayed values. -/
theorem Reply.records (reply : Reply log written) :
    written = [] ∨ written = [0] ∨ ∃ values tail, values <+: relayed log ∧ NoRecord tail ∧
      written = 1 :: (progressRecords values ++ tail) := by
  cases reply with
  | silent => exact .inl rfl
  | declined => exact .inr (.inl rfl)
  | recorded all =>
    refine .inr (.inr ⟨_, [], List.prefix_rfl, ?_, by rw [List.append_nil]; exact all⟩)
    simp [NoRecord, DownloadStatus.bytes]
  | cut short =>
    obtain ⟨values, value, part, latest, isPart, same⟩ := short
    exact .inr (.inr ⟨values, part, ⟨[value], latest.symm⟩, isPart.noRecord, same⟩)
  | completed saved all =>
    exact .inr (.inr ⟨_, [3], List.prefix_rfl, noRecord_status 3 (by decide),
      by rw [all, List.cons_append]⟩)
  | failed unsaved all =>
    exact .inr (.inr ⟨_, [4], List.prefix_rfl, noRecord_status 4 (by decide),
      by rw [all, List.cons_append]⟩)

/-- Records are read off the front of a stream in only one way. -/
theorem records_agree (same : progressRecords first ++ rest = progressRecords second ++ tail)
    (none : NoRecord tail) : first <+: second := by
  have read : (downloaded (progressRecords first ++ rest)).1 = second := by
    rw [same, downloaded_values none]
  rw [downloaded_records] at read
  exact ⟨_, read⟩

/-- The progress value an event hands to the sender's window. -/
def TransferEvent.hears : TransferEvent → Option UInt64
  | .sender (.published bytes true) => some bytes
  | _ => none

def heard (past : List TransferEvent) : List UInt64 := collect TransferEvent.hears past

theorem heard_silent {event : TransferEvent} (silent : event.hears = none) :
    heard (event :: past) = heard past := collect_silent silent

/-- The bytes a sender has read, by where it stands and what it has passed on. -/
def Sender.Heard (values : List UInt64) (bytes : Bytes) : Sender → Prop
  | .deciding => bytes = [] ∧ values = []
  | .reading => bytes = 1 :: progressRecords values
  | .counting got => bytes = 1 :: (progressRecords values ++ 2 :: got) ∧ got.length < 8
  | .publishing value => bytes = 1 :: progressRecords (values ++ [value])
  | .returned _ => values = [] ∨ ∃ rest, bytes = 1 :: (progressRecords values ++ rest)

theorem tryFrom_accepted (decided : DecisionStatus.tryFrom byte = .ok .accepted) : byte = 1 := by
  unfold DecisionStatus.tryFrom at decided
  split at decided
  · cases decided
  · split at decided
    · assumption
    · cases decided

theorem Sender.heard_received {sender next : Sender} (heard : sender.Heard values bytes)
    (stepped : sender.step (.received byte) = some next) : next.Heard values (bytes ++ [byte]) := by
  cases sender with
  | deciding =>
    cases stepped
    obtain ⟨rfl, rfl⟩ := heard
    rw [feed]
    cases decided : DecisionStatus.tryFrom byte with
    | error error => exact .inl rfl
    | ok status =>
      cases status with
      | declined => exact .inl rfl
      | accepted =>
        obtain rfl : byte = 1 := tryFrom_accepted decided
        rfl
  | reading =>
    cases stepped
    have heard : bytes = 1 :: progressRecords values := heard
    rw [feed]
    split
    · rename_i two
      exact ⟨by rw [heard, two, List.cons_append], by simp⟩
    · have ended : ∃ rest, bytes ++ [byte] = 1 :: (progressRecords values ++ rest) :=
        ⟨[byte], by rw [heard, List.cons_append]⟩
      split
      · exact .inr ended
      · split <;> exact .inr ended
  | counting got =>
    cases stepped
    obtain ⟨heard, short⟩ := heard
    have more : bytes ++ [byte] = 1 :: (progressRecords values ++ 2 :: (got ++ [byte])) := by
      simp [heard]
    rw [feed]
    split
    · rename_i last
      have whole : (got ++ [byte]).length = 8 := by simp [last]
      rw [Heard, progressRecords_concat, DownloadStatus.bytes, u64Bytes_of_u64 whole]
      exact more
    · exact ⟨more, by simp; omega⟩
  | publishing | returned => cases stepped

/-- Without reading, a sender passes a value on or ends. -/
theorem Sender.heard_local {sender next : Sender} (heard : sender.Heard values bytes)
    (reads : ∀ byte, event ≠ .received byte) (stepped : sender.step event = some next) :
    next.Heard (values ++ (TransferEvent.sender event).hears.toList) bytes := by
  cases event with
  | received byte => exact absurd rfl (reads byte)
  | readFailed =>
    simp only [TransferEvent.hears, Option.toList_none, List.append_nil]
    cases sender with
    | deciding => cases stepped; exact .inl heard.2
    | reading => cases stepped; exact .inr ⟨[], by rw [List.append_nil]; exact heard⟩
    | counting got => cases stepped; exact .inr ⟨_, heard.1⟩
    | publishing | returned => cases stepped
  | timedOut =>
    simp only [TransferEvent.hears, Option.toList_none, List.append_nil]
    cases sender with
    | deciding => cases stepped; exact .inl heard.2
    | _ => cases stepped
  | published value ok =>
    cases sender with
    | publishing read =>
      have heard : bytes = 1 :: progressRecords (values ++ [read]) := heard
      change (if value = read then some _ else none) = some next at stepped
      by_cases same : value = read
      · rw [if_pos same] at stepped
        cases stepped
        subst same
        cases ok with
        | true => exact heard
        | false =>
          simp only [TransferEvent.hears, Option.toList_none, List.append_nil]
          exact .inr ⟨(DownloadStatus.progress value).bytes,
            by rw [heard, progressRecords_concat]⟩
      · rw [if_neg same] at stepped
        cases stepped
    | _ => cases stepped

/-- A sender that has passed on a value has read the records of all it has passed on. -/
theorem Sender.Heard.reads {sender : Sender} (heard : sender.Heard values bytes) :
    values = [] ∨ ∃ rest, bytes = 1 :: (progressRecords values ++ rest) := by
  cases sender with
  | deciding => exact .inl heard.2
  | reading => exact .inr ⟨[], by rw [List.append_nil]; exact heard⟩
  | counting => exact .inr ⟨_, heard.1⟩
  | publishing value =>
    exact .inr ⟨(DownloadStatus.progress value).bytes, by rw [← progressRecords_concat]; exact heard⟩
  | returned => exact heard

theorem Transfer.heard_next {before after : Transfer} (inv : before.Inv parse remote sent)
    (heard_before : before.sender.Heard (heard past) (before.connection.written.take before.consumed))
    (stepped : before.step parse event = some after) :
    after.sender.Heard (heard (event :: past))
      (after.connection.written.take after.consumed) := by
  rw [heard, collect_cons]
  cases event with
  | receiver event =>
    obtain ⟨connection, moved, rfl⟩ := Option.map_eq_some_iff.mp stepped
    obtain ⟨more, longer⟩ : before.connection.written <+: connection.written := by
      rw [(Connection.step_move moved).2.2]
      exact List.prefix_append _ _
    simp only [TransferEvent.hears, Option.toList_none, List.append_nil]
    rw [← longer, List.take_append_of_le_length (inv.consumed.trans inv.arrived)]
    exact heard_before
  | arrives =>
    simp only [Transfer.step] at stepped
    split at stepped <;> cases stepped
    simp only [TransferEvent.hears, Option.toList_none, List.append_nil]
    exact heard_before
  | sender event =>
    cases event with
    | received byte =>
      simp only [Transfer.step] at stepped
      split at stepped
      · rename_i available
        obtain ⟨sender, moved, rfl⟩ := Option.map_eq_some_iff.mp stepped
        simp only [TransferEvent.hears, Option.toList_none, List.append_nil]
        rw [List.take_add_one, available.2]
        exact Sender.heard_received heard_before moved
      · cases stepped
    | readFailed | timedOut | published =>
      obtain ⟨sender, moved, rfl⟩ := Option.map_eq_some_iff.mp stepped
      exact Sender.heard_local heard_before (by simp) moved

theorem Transfer.heard
    (run : Run (Steps (Transfer.step parse)) (.new remote sent) past transfer) :
    transfer.sender.Heard (heard past) (transfer.connection.written.take transfer.consumed) := by
  apply run.history (P := fun past transfer => transfer.sender.Heard (IrohShare.heard past)
    (transfer.connection.written.take transfer.consumed))
  · exact ⟨rfl, rfl⟩
  · intro past before event after run heard stepped
    exact heard_next (Transfer.inv run) heard stepped

/-- However the two ends, the user and the network take turns: the progress the sender's
window is told is an initial piece of the progress the receiver's window was told. -/
theorem sender_hears_reports
    (run : Run (Steps (Transfer.step parse)) (.new remote sent) past transfer) :
    heard past <+: relayed transfer.log := by
  have inv := Transfer.inv run
  rcases (Transfer.heard run).reads with none | ⟨rest, read⟩
  · rw [none]
    exact List.nil_prefix
  · have written : transfer.connection.written = 1 :: (progressRecords (heard past) ++
        (rest ++ transfer.connection.written.drop transfer.consumed)) := by
      rw [← List.append_assoc, ← List.cons_append, ← read, List.take_append_drop]
    rcases (replies_conform inv.runs).1.records with empty | zero | ⟨values, tail, told, none, same⟩
    · rw [empty] at written
      cases written
    · rw [zero] at written
      cases written
    · exact (records_agree (List.cons.inj (written.symm.trans same)).2 none).trans told

def sampleRelay : List Event :=
  sampleReceive.take 7 ++ [.item (some (.progress 5)), .published 5 true] ++
    (DownloadStatus.progress 5).bytes.map .wrote ++
    [.item (some (.progress 9)), .published 9 true, .wrote 2]

/-- The sender reads the first record and a part of the second one. -/
def sampleProgress : List TransferEvent :=
  sampleRelay.map .receiver ++ List.replicate 11 .arrives ++
  ((1 :: (DownloadStatus.progress 5).bytes).map fun byte => .sender (.received byte)) ++
  [.sender (.published 5 true), .sender (.received 2)]

theorem sampleProgress_run : ∃ transfer, Run (Steps (Transfer.step sampleParse))
      (.new sampleTicket.addr.id (sampleOffer.encode sampleText)) sampleProgress.reverse transfer ∧
    relayed transfer.log = [5, 9] := by
  apply execute_reaches
  decide +kernel

theorem replies_conform_sample : ∃ transfer : Transfer, relayed transfer.log = [5, 9] ∧
    Reply transfer.log transfer.connection.written := by
  obtain ⟨transfer, run, told⟩ := sampleProgress_run
  exact ⟨transfer, told, (replies_conform (Transfer.inv run).runs).1⟩

theorem sender_hears_reports_sample : ∃ transfer : Transfer, relayed transfer.log = [5, 9] ∧
    [5] <+: relayed transfer.log := by
  obtain ⟨transfer, run, told⟩ := sampleProgress_run
  exact ⟨transfer, told, sender_hears_reports run⟩

end IrohShare
