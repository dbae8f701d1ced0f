import IrohShare.Replies
import IrohShare.Waiting

/-! Handlers finish: each takes a bounded number of steps, and as long as it has not returned
it waits for the user or for room in the offer channel, or can go on within the program, or
waits for its peer, the network, the store or the file system and takes what they answer. -/
namespace IrohShare
open Wire Unix Channel Transition

variable {env : Env} {files : List PathBuf} {past : List Action} {node : Node} {id : Nat}
  {connection : Connection}

/-- The steps of `download` and behind it that are left at most, if no more items come. -/
def Download.rank : Download → Nat
  | .checking => 8
  | .opening => 7
  | .downloading => 6
  | .publishing _ => 16
  | .reporting pending => 6 + pending.length
  | .exporting => 5
  | .replacing => 4

def Handler.rank : Handler → Nat
  | .accepting => 13
  | .reading => 12
  | .offering _ => 11
  | .deciding _ => 10
  | .accepted _ _ => 9
  | .downloading _ _ point => point.rank
  | .declining | .completing | .failing _ => 3
  | .finishing _ => 2
  | .closing _ => 1
  | .returned _ => 0

/-- An item of the download's progress stream, which pays for its own report. -/
def Event.isItem : Event → Bool
  | .item (some _) => true
  | _ => false

/-- All but the loss of the connection, which the handler does not notice. -/
def Event.advances : Event → Bool
  | .lost => false
  | _ => true

def Event.steps (event : Event) : Nat := if event.advances then 1 else 0

def Event.items (event : Event) : Nat := if event.isItem then 11 else 0

theorem Download.rank_move (move : Download.Move offer target point event next) :
    (Handler.resume offer target next).rank + event.steps ≤ point.rank + event.items := by
  cases move with
  | published bytes =>
    simp [Handler.resume, Handler.rank, rank, Event.steps, Event.advances, DownloadStatus.bytes,
      u64Bytes_length]
  | reporting byte pending more =>
    simp only [Handler.resume, Handler.rank, rank, Event.steps, Event.advances, if_true,
      List.length_cons]
    omega
  | unreported pending error =>
    have failing : 4 ≤ (Download.reporting pending).rank := by simp only [rank]; omega
    exact failing
  | _ =>
    simp [Handler.resume, Handler.rank, rank, Event.steps, Event.items, Event.advances, Event.isItem]

theorem Handler.rank_download (downloadDir : PathBuf) (offer : Offer) :
    (download downloadDir offer).rank ≤ 8 := by
  unfold download
  split <;> simp [rank, Download.rank]

theorem Handler.rank_move (move : Handler.Move remote state event next) :
    next.rank + event.steps ≤ state.rank + event.items := by
  cases move with
  | downloading move => exact Download.rank_move move
  | greeted offer downloadDir =>
    have bounded := rank_download downloadDir offer
    have paid : (Event.wrote 1).steps = 1 := rfl
    have accepted : (Handler.accepted offer downloadDir).rank = 9 := rfl
    omega
  | _ => simp [rank, Event.steps, Event.items, Event.advances, Event.isItem]

theorem handler_steps
    (run : Run (Steps (Connection.step parse)) (.new remote incoming) log connection) :
    log.countP Event.advances ≤ 13 + 11 * log.countP Event.isItem := by
  have paid : connection.state.rank + spent Event.steps log ≤
      Handler.accepting.rank + spent Event.items log :=
    run.affords (fun connection => connection.state.rank) fun stepped =>
      Handler.rank_move (Connection.step_move stepped).2.1
  have own : spent Event.steps log = 1 * log.countP Event.advances := spent_countP 1 Event.advances log
  have items : spent Event.items log = 11 * log.countP Event.isItem :=
    spent_countP 11 Event.isItem log
  have start : Handler.accepting.rank = 13 := rfl
  omega

/-- The steps that happen within the program: its channels, and the end of a stream. -/
def Event.isLocal : Event → Bool
  | .offered _ | .decided _ | .published .. | .replaced _ | .finished _ => true
  | _ => false

def Event.endsWrite (due : Option UInt8) : Event → Bool
  | .wrote byte => some byte = due
  | .writeFailed => true
  | _ => false

/-- What the file system, the store and the network may answer a download. -/
def Download.asks (offer : Offer) (target : PathBuf) : Download → Event → Bool
  | .checking, .existed path _ => path = target
  | .opening, .opened hash provider _ => hash = offer.ticket.hash ∧ provider = offer.ticket.addr.id
  | .downloading, .item _ => true
  | .reporting pending, event => event.endsWrite pending.head?
  | .exporting, .exported hash path _ => hash = offer.ticket.hash ∧ path = target
  | _, _ => false

/-- What the outside may answer at the await points of a handler. -/
def Handler.asks : Handler → Event → Bool
  | .accepting, .acceptBi _ => true
  | .reading, .read _ => true
  | .declining, event => event.endsWrite (some 0)
  | .accepted _ _, event => event.endsWrite (some 1)
  | .downloading offer target point, event => point.asks offer target event
  | .completing, event => event.endsWrite (some 3)
  | .failing _, event => event.endsWrite (some 4)
  | .closing _, .closed => true
  | _, _ => false

/-- Whatever happens to a handler is local, or an answer that it awaits. -/
theorem Handler.Move.asked (move : Handler.Move remote state event next) (lasts : event ≠ .lost) :
    event.isLocal = true ∨ state.asks event = true := by
  cases move with
  | lost => exact absurd rfl lasts
  | offered | unoffered | chosen | turnedDown | finished | unfinished => exact .inl rfl
  | downloading move =>
    cases move with
    | published | unpublished | replaced => exact .inl rfl
    | absent | blocked | reported | reporting => exact .inr (decide_eq_true rfl)
    | opened | unopened | saved | unsaved => exact .inr (decide_eq_true ⟨rfl, rfl⟩)
    | _ => exact .inr rfl
  | _ => exact .inr rfl

theorem Event.endsWrite_cases {event : Event} (ends : event.endsWrite due = true) :
    (∃ byte, event = .wrote byte ∧ due = some byte) ∨ event = .writeFailed := by
  cases event with
  | wrote byte => exact .inl ⟨byte, rfl, (of_decide_eq_true ends).symm⟩
  | writeFailed => exact .inr rfl
  | _ => cases ends

theorem Download.asks_steps {event : Event} {point : Download}
    (asked : point.asks offer target event = true) : (point.step offer target event).isSome = true := by
  cases point with
  | checking | opening | exporting =>
    cases event with
    | existed | opened | exported =>
      first | exact congrArg Option.isSome (if_pos (of_decide_eq_true asked)) | cases asked
    | _ => cases asked
  | downloading => cases event <;> first | rfl | cases asked
  | reporting pending =>
    rcases Event.endsWrite_cases asked with ⟨byte, rfl, due⟩ | rfl
    · obtain ⟨rest, rfl⟩ := List.head?_eq_some_iff.mp due
      simp [step]
    · cases pending <;> rfl
  | publishing | replacing => cases event <;> cases asked

theorem Event.afterWrite_isSome {event : Event} (ends : event.endsWrite (some byte) = true) :
    (event.afterWrite [byte] next failed).isSome = true := by
  rcases endsWrite_cases ends with ⟨value, rfl, due⟩ | rfl
  · obtain rfl := Option.some.inj due
    exact congrArg Option.isSome (if_pos rfl)
  · rfl

theorem Handler.asks_steps {event : Event} {state : Handler} (asked : state.asks event = true) :
    (state.step remote event).isSome = true := by
  unfold step
  split
  · rfl
  · cases state with
    | declining | accepted | completing | failing => exact Event.afterWrite_isSome asked
    | downloading => exact (Option.isSome_map).trans (Download.asks_steps asked)
    | _ => cases event <;> first | rfl | cases asked

def Event.writing (broken : Bool) (byte : UInt8) : Event :=
  if broken then .writeFailed else .wrote byte

/-- What a handler can do next, given whether the window is open, what its reply channel
holds, and which files there are. -/
def Download.next (isOpen broken : Bool) (found : PathBuf → Bool) (offer : Offer)
    (target : PathBuf) : Download → Event
  | .checking => .existed target (some (found target))
  | .opening => .opened offer.ticket.hash offer.ticket.addr.id true
  | .downloading => .item none
  | .publishing bytes => .published bytes isOpen
  | .reporting pending => .writing broken (pending.headD 0)
  | .exporting => .exported offer.ticket.hash target .saved
  | .replacing => .replaced offer.filesize

def Connection.next (parse : String → Option BlobTicket) (isOpen : Bool)
    (decision : Option OfferDecision) (found : PathBuf → Bool) (connection : Connection) : Event :=
  match connection.state with
  | .accepting => .acceptBi true
  | .reading => .read (Offer.decode parse connection.incoming)
  | .offering _ => .offered isOpen
  | .deciding _ => .decided decision
  | .declining => .writing connection.broken 0
  | .accepted _ _ => .writing connection.broken 1
  | .downloading offer target point => point.next isOpen connection.broken found offer target
  | .completing => .writing connection.broken 3
  | .failing _ => .writing connection.broken 4
  | .finishing _ => .finished true
  | .closing _ | .returned _ => .closed

section Next
variable {parse : String → Option BlobTicket} {isOpen broken : Bool}
  {decision : Option OfferDecision} {found : PathBuf → Bool}

theorem Event.writing_advances (broken : Bool) (byte : UInt8) : (writing broken byte).advances = true := by
  cases broken <;> rfl

theorem Download.next_advances (isOpen broken : Bool) (found : PathBuf → Bool) (offer : Offer)
    (target : PathBuf) (point : Download) :
    (point.next isOpen broken found offer target).advances = true := by
  cases point with
  | reporting => exact Event.writing_advances _ _
  | _ => rfl

theorem Connection.next_advances (connection : Connection) :
    (connection.next parse isOpen decision found).advances = true := by
  unfold next
  cases connection.state with
  | downloading offer target point => exact Download.next_advances _ _ _ _ _ _
  | declining | accepted | completing | failing => exact Event.writing_advances _ _
  | _ => rfl

/-- Only a report that has nothing left to write would block a download. -/
theorem Download.next_steps (offer : Offer) (target : PathBuf) (point : Download)
    (reports : ∀ pending, point = .reporting pending → pending ≠ []) :
    (point.step offer target (point.next isOpen broken found offer target)).isSome = true := by
  cases point with
  | reporting pending =>
    cases pending with
    | nil => exact absurd rfl (reports [] rfl)
    | cons byte pending => cases broken <;> simp [next, step, Event.writing]
  | _ => simp [next, step]

theorem Connection.step_isSome {connection : Connection} {event : Event}
    (admitted : connection.admits parse event = true)
    (moves : (connection.state.step connection.remote event).isSome = true) :
    (connection.step parse event).isSome = true := by
  rw [Connection.step, if_pos admitted, Option.isSome_map]
  exact moves

theorem Connection.admits_writing (connection : Connection) (byte : UInt8) :
    connection.admits parse (.writing connection.broken byte) = true := by
  unfold Event.writing
  split
  · rename_i broken
    exact broken
  · rename_i intact
    simp [intact]

theorem Download.next_admitted (connection : Connection) (offer : Offer) (target : PathBuf)
    (point : Download) : connection.admits parse
      (point.next isOpen connection.broken found offer target) = true := by
  cases point with
  | reporting pending => exact Connection.admits_writing connection _
  | _ => rfl

theorem Connection.next_steps {connection : Connection}
    (running : ∀ result, connection.state ≠ .returned result)
    (reports : ∀ offer target pending,
      connection.state = .downloading offer target (.reporting pending) → pending ≠ []) :
    (connection.step parse (connection.next parse isOpen decision found)).isSome = true := by
  obtain ⟨remote, incoming, written, broken, state⟩ := connection
  cases state with
  | returned result => exact absurd rfl (running result)
  | reading => exact step_isSome (by simp [next]) rfl
  | offering offer => cases isOpen <;> rfl
  | deciding offer => rcases decision with _ | _ | _ <;> rfl
  | finishing result => cases result <;> rfl
  | downloading offer target point =>
    refine step_isSome (Download.next_admitted ⟨remote, incoming, written, broken, _⟩ _ _ _) ?_
    have own := Download.next_advances isOpen broken found offer target point
    change (Handler.step remote (.downloading offer target point)
      (point.next isOpen broken found offer target)).isSome = true
    rw [Handler.step, if_neg (fun lost => by rw [lost] at own; cases own), Option.isSome_map]
    exact Download.next_steps offer target point fun pending same => reports _ _ _ (by rw [same])
  | _ => cases broken <;> rfl

end Next

def Action.ofHandler (id : Nat) : Action → Option Event
  | .handler actor event => if actor = id then some event else none
  | _ => none

theorem Action.ofHandler_routed (past : List Action) :
    (past.filterMap Action.routed).filterMap (RouterAction.own id) =
      past.filterMap (Action.ofHandler id) := by
  rw [List.filterMap_filterMap]
  congr 1
  funext action
  cases action <;> rfl

namespace Node

/-- A handler that only the user can help: its request waits for his decision, or it waits
for room behind the ten requests that do. -/
def Waits (node : Node) (id : Nat) (connection : Connection) : Prop :=
  node.isOpen = true ∧ ∃ offer,
    connection.state = .offering offer ∧ node.offers.length = 10 ∨
      connection.state = .deciding offer ∧ node.replies id = none ∧ (offer, id) ∈ node.requests

/-- The handler waits for its peer, the network, the store or the file system, and takes
whatever they can answer. -/
structure Awaits (env : Env) (node : Node) (id : Nat) (connection : Connection) : Prop where
  possible : ∃ event, connection.state.asks event = true ∧
    (node.step env (.handler id event)).isSome = true
  takes : ∀ event, connection.state.asks event = true → connection.admits env.parse event = true →
    node.router.grants env.resolve event = true → (node.step env (.handler id event)).isSome = true
  only : ∀ event, (node.step env (.handler id event)).isSome = true →
    event = .lost ∨ connection.state.asks event = true

def next (env : Env) (node : Node) (id : Nat) (connection : Connection) : Event :=
  connection.next env.parse node.isOpen (node.replies id)
    fun target => decide (env.resolve target ∈ node.router.files)

theorem step_handler_isSome {event : Event} (granted : node.grants id event = true)
    (found : node.router.grants env.resolve event = true)
    (known : node.router.handlers id = some connection)
    (moves : (connection.step env.parse event).isSome = true) :
    (node.step env (.handler id event)).isSome = true := by
  obtain ⟨after, moved⟩ := Option.isSome_iff_exists.mp moves
  simp only [step, handle, if_pos granted, known, Option.bind_some, Router.step, if_pos found,
    moved, Option.map_some, Option.isSome_some]

theorem writing_granted (node : Node) (id : Nat) (broken : Bool) (byte : UInt8) :
    node.grants id (.writing broken byte) = true := by
  cases broken
  · rfl
  · rfl

theorem writing_found (env : Env) (node : Node) (broken : Bool) (byte : UInt8) :
    node.router.grants env.resolve (.writing broken byte) = true := by
  cases broken
  · rfl
  · rfl

theorem next_found (connection : Connection) :
    node.router.grants env.resolve (node.next env id connection) = true := by
  unfold next Connection.next
  cases connection.state with
  | downloading offer target point =>
    cases point with
    | checking => exact decide_eq_true rfl
    | reporting => exact writing_found _ _ _ _
    | _ => rfl
  | declining | accepted | completing | failing => exact writing_found _ _ _ _
  | _ => rfl

theorem next_granted (helped : ¬node.Waits id connection) (bounded : node.offers.length ≤ 10)
    (held : node.isOpen = true → ∀ offer, connection.state = .deciding offer →
      (offer, id) ∈ node.requests ∨ node.replies id ≠ none) :
    node.grants id (node.next env id connection) = true := by
  unfold next Connection.next
  cases state : connection.state with
  | offering offer =>
    cases isOpen : node.isOpen with
    | false => simp [grants, isOpen]
    | true =>
      have room : node.offers.length ≠ 10 := fun full =>
        helped ⟨isOpen, offer, .inl ⟨state, full⟩⟩
      have less : node.offers.length < 10 := by omega
      simp [grants, isOpen, less]
  | deciding offer =>
    cases replied : node.replies id with
    | some decision => simp [grants, replied]
    | none =>
      cases isOpen : node.isOpen with
      | false => simp [grants, isOpen, replied]
      | true =>
        rcases held isOpen offer state with queued | answered
        · exact absurd ⟨isOpen, offer, .inr ⟨state, replied, queued⟩⟩ helped
        · exact absurd replied answered
  | downloading offer target point =>
    cases point with
    | publishing bytes => exact decide_eq_true rfl
    | reporting => exact writing_granted _ _ _ _
    | _ => rfl
  | declining | accepted | completing | failing => exact writing_granted _ _ _ _
  | _ => rfl

theorem next_isSome (run : Run (Steps (Node.step env)) (.new files) past node)
    (known : node.router.handlers id = some connection)
    (running : ∀ result, connection.state ≠ .returned result)
    (helped : ¬node.Waits id connection) :
    (node.step env (.handler id (node.next env id connection))).isSome = true := by
  obtain ⟨remote, incoming, own⟩ := connection_run run known
  have offering := offering_inv run
  refine step_handler_isSome (next_granted helped offering.bounded ?_) (next_found connection) known
    (Connection.next_steps running ?_)
  · intro isOpen offer state
    have stage := ((receiving_inv run).facts id connection known).stage
    rw [state] at stage
    obtain ⟨_, read, genuine, _⟩ := stage
    rcases offering.held isOpen id connection offer known read genuine with
      waits | queued | ⟨decision, replied⟩
    · cases state.symm.trans waits
    · exact .inl queued
    · exact .inr fun missing => by cases replied.symm.trans missing
  · rintro offer target pending state rfl
    have replying := connection_replying own
    rw [Connection.Replying, state] at replying
    exact replying.1 rfl

theorem handler_move {event : Event} (known : node.router.handlers id = some connection)
    (steps : (node.step env (.handler id event)).isSome = true) :
    ∃ next, Handler.Move connection.remote connection.state event next := by
  obtain ⟨after, stepped⟩ := Option.isSome_iff_exists.mp steps
  cases step_move stepped with
  | handled _ _ found next known' moved | posted _ _ _ found next known' moved =>
    obtain rfl := Option.some.inj (known.symm.trans known')
    exact ⟨_, (Connection.step_move moved).2.1⟩
  | offered _ _ found next known' _ moved =>
    obtain rfl := Option.some.inj (known.symm.trans known')
    exact ⟨_, (Connection.step_move moved).2.1⟩

theorem step_handler_asked {event : Event} (known : node.router.handlers id = some connection)
    (steps : (node.step env (.handler id event)).isSome = true) :
    event = .lost ∨ event.isLocal = true ∨ connection.state.asks event = true := by
  obtain ⟨next, move⟩ := handler_move known steps
  by_cases lost : event = .lost
  · exact .inl lost
  · exact .inr (move.asked lost)

/-- No answer from outside needs the channels of the program. -/
theorem asked_granted {event : Event} {state : Handler} (asked : state.asks event = true) :
    node.grants id event = true := by
  cases event with
  | offered | decided | published =>
    cases state with
    | downloading offer target point => cases point <;> cases asked
    | _ => cases asked
  | _ => rfl

/-- A handler that can do nothing within the program waits for the outside. -/
theorem awaits_of_idle (run : Run (Steps (Node.step env)) (.new files) past node)
    (known : node.router.handlers id = some connection)
    (running : ∀ result, connection.state ≠ .returned result)
    (helped : ¬node.Waits id connection)
    (idle : ∀ event, event.isLocal = true → (node.step env (.handler id event)).isSome = false) :
    node.Awaits env id connection where
  possible := by
    have steps := next_isSome run known running helped
    refine ⟨_, ?_, steps⟩
    rcases step_handler_asked known steps with lost | here | asked
    · have advances : (node.next env id connection).advances = true :=
        Connection.next_advances connection
      rw [lost] at advances
      cases advances
    · cases (idle _ here).symm.trans steps
    · exact asked
  takes event asked admitted found := step_handler_isSome (asked_granted asked) found known
    (Connection.step_isSome admitted (Handler.asks_steps asked))
  only event steps := by
    rcases step_handler_asked known steps with lost | here | asked
    · exact .inl lost
    · cases (idle _ here).symm.trans steps
    · exact .inr asked

end Node

/-- Every handler finishes: it takes at most thirteen steps, and eleven for each item of its
download. Unless it has returned or waits for the user, it can go on within the program or
waits for an answer from outside, and takes whichever comes. -/
theorem handlers_finish (run : Run (Steps (Node.step env)) (.new files) past node)
    (known : node.router.handlers id = some connection) :
    (past.filterMap (Action.ofHandler id)).countP Event.advances ≤
        13 + 11 * (past.filterMap (Action.ofHandler id)).countP Event.isItem ∧
      ((∃ result, connection.state = .returned result) ∨ node.Waits id connection ∨
        (∃ event, event.isLocal = true ∧ (node.step env (.handler id event)).isSome = true) ∨
        node.Awaits env id connection) := by
  obtain ⟨remote, incoming, own⟩ := Node.connection_run run known
  rw [Action.ofHandler_routed] at own
  refine ⟨handler_steps own, ?_⟩
  by_cases returned : ∃ result, connection.state = .returned result
  · exact .inl returned
  by_cases helped : node.Waits id connection
  · exact .inr (.inl helped)
  by_cases here : ∃ event, event.isLocal = true ∧ (node.step env (.handler id event)).isSome = true
  · exact .inr (.inr (.inl here))
  refine .inr (.inr (.inr (Node.awaits_of_idle run known ?_ helped ?_)))
  · exact fun result same => returned ⟨result, same⟩
  · exact fun event isLocal => Bool.eq_false_of_not_eq_true fun steps => here ⟨event, isLocal, steps⟩

/-- A handler that has just been told to accept its offer waits for the network. -/
theorem handlers_finish_sample : ∃ node : Node, ∃ connection,
    node.router.handlers 0 = some connection ∧
    connection.state = .accepted sampleOffer sampleDir ∧ node.Awaits sampleEnv 0 connection := by
  obtain ⟨node, run, accepted⟩ : ∃ node : Node, Run (Steps (Node.step sampleEnv)) (.new [])
      (sampleConnect 0 sampleOffer ++ sampleFrame sampleAccept ++
        [Action.handler 0 (.decided (some (.accept sampleDir)))]).reverse node ∧
      (node.router.handlers 0).map (·.state) = some (.accepted sampleOffer sampleDir) := by
    apply execute_reaches
    decide +kernel
  obtain ⟨connection, known, state⟩ := Option.map_eq_some_iff.mp accepted
  refine ⟨node, connection, known, state, ?_⟩
  rcases (handlers_finish run known).2 with ⟨result, returned⟩ | ⟨_, offer, waits⟩ |
    ⟨event, here, steps⟩ | awaits
  · cases state.symm.trans returned
  · rcases waits with ⟨waits, _⟩ | ⟨waits, _⟩ <;> cases state.symm.trans waits
  · obtain ⟨next, move⟩ := Node.handler_move known steps
    rw [state] at move
    cases move <;> cases here
  · exact awaits

end IrohShare
