import IrohShare.Delivered
import IrohShare.Finishing

/-! Sends finish: whatever the devices of a network do in between, the task of a send takes
a bounded number of steps, and until it has reported its result, its handler waits for the
receiving user, or one of the two can go on within its program, or an answer of the network,
the store or the file system is awaited. -/
namespace IrohShare
open Wire Unix Transition

/-- The steps that happen within the program: a byte that has arrived is read, and the
channels to the window. -/
def TaskEvent.isLocal : TaskEvent → Bool
  | .sender (.received _) | .sender (.published ..) | .reports _ => true
  | _ => false

def TaskEvent.isRead : TaskEvent → Bool
  | .sender (.received _) => true
  | _ => false

def TaskEvent.reads (event : TaskEvent) : Nat := if event.isRead then 2 else 0

/-- The steps that are left at most, if no more bytes are read. -/
def Sender.rank : Sender → Nat
  | .deciding | .reading | .counting _ => 2
  | .publishing _ => 3
  | .returned _ => 1

def TaskState.rank : TaskState → Nat
  | .preparing => 3
  | .talking sender => sender.rank
  | .reported => 0

theorem Sender.rank_le (sender : Sender) : sender.rank ≤ 3 := by
  cases sender <;> simp [rank]

theorem Sender.rank_step {sender next : Sender} (stepped : sender.step event = some next) :
    next.rank + 1 ≤ sender.rank + (TaskEvent.sender event).reads := by
  cases event with
  | received byte =>
    have most := next.rank_le
    have paid : (TaskEvent.sender (.received byte)).reads = 2 := rfl
    have least : 2 ≤ sender.rank := by
      cases sender with
      | returned => cases stepped
      | publishing => cases stepped
      | _ => exact Nat.le_refl 2
    omega
  | published value ok =>
    cases sender with
    | publishing bytes =>
      change (if value = bytes then some _ else none) = some next at stepped
      split at stepped <;> cases stepped
      cases ok with
      | true => exact Nat.le_add_right 3 _
      | false => exact (Nat.le_succ 2).trans (Nat.le_add_right 3 _)
    | _ => cases stepped
  | readFailed | timedOut => cases sender <;> cases stepped <;> exact Nat.le_refl 2

theorem TaskState.rank_step {state next : TaskState} (stepped : state.step event = some next) :
    next.rank + 1 ≤ state.rank + event.reads := by
  cases state with
  | preparing => cases event <;> cases stepped <;> simp only [rank, Sender.rank] <;> omega
  | reported => cases stepped
  | talking sender =>
    cases event with
    | sender event =>
      have moved : (sender.step event).map talking = some next := by cases sender <;> exact stepped
      obtain ⟨after, sent, rfl⟩ := Option.map_eq_some_iff.mp moved
      exact Sender.rank_step sent
    | reports result =>
      cases sender with
      | returned value =>
        simp only [step] at stepped
        split at stepped <;> cases stepped
        simp [rank, Sender.rank]
      | _ => cases stepped
    | _ => cases sender <;> cases stepped

/-- A task takes at most three steps, and two for each byte it reads. -/
theorem TaskState.run_length {state : TaskState}
    (run : Run (Steps TaskState.step) .preparing events state) :
    events.length ≤ 3 + 2 * events.countP TaskEvent.isRead := by
  have paid : state.rank + spent (fun _ => 1) events ≤ 3 + spent TaskEvent.reads events :=
    run.affords rank fun stepped => rank_step stepped
  have each : spent (fun _ => 1) events = 1 * events.countP fun _ => true :=
    spent_countP 1 (fun _ => true) events
  have reads : spent TaskEvent.reads events = 2 * events.countP TaskEvent.isRead :=
    spent_countP 2 TaskEvent.isRead events
  rw [List.countP_true] at each
  omega

/-- Each byte of a reply has been written in a step of its handler. -/
theorem written_length
    (run : Run (Steps (Connection.step parse)) (.new remote incoming) log connection) :
    connection.written.length ≤ log.countP Event.advances := by
  have paid : connection.written.length + spent (fun _ => 0) log ≤ 0 + spent Event.steps log := by
    refine run.affords (fun connection => connection.written.length) fun {_ event _} stepped => ?_
    obtain ⟨_, _, same⟩ := Connection.step_move stepped
    have each : event.bytes.length ≤ event.steps := by
      cases event <;> simp [Event.bytes, Event.steps, Event.advances]
    rw [same, List.length_append, Nat.add_zero]
    exact Nat.add_le_add_left each _
  have own : spent Event.steps log = 1 * log.countP Event.advances := spent_countP 1 Event.advances log
  omega

def Sender.Reads : Sender → Prop
  | .deciding | .reading | .counting _ => True
  | .publishing _ | .returned _ => False

theorem Sender.Reads.step_isSome {sender : Sender} (reads : sender.Reads)
    (fails : event = .readFailed ∨ ∃ byte, event = .received byte) :
    (sender.step event).isSome = true := by
  rcases fails with rfl | ⟨byte, rfl⟩
  · cases sender <;> first | exact reads.elim | rfl
  · cases sender <;> first | exact reads.elim | rfl

/-- Nothing more is written once a handler waits for its connection to close. -/
def Handler.isOver : Handler → Bool
  | .closing _ | .returned _ => true
  | _ => false

variable {ι : Type} [DecidableEq ι] {world : World ι} {net : Network ι}
  {files : ι → List PathBuf} {actions : List (NetworkAction ι)} {i : ι} {id : Nat}

/-- What the two ends of a send do next within their programs. -/
inductive Goes (net : Network ι) (i : ι) (id : Nat) (link : Link ι) : NetworkAction ι → Prop where
  | works (event : TaskEvent) (here : event.isLocal = true) : Goes net i id link
      (.own i (.task id event))
  | serves (event : Event) (here : event.isLocal = true) (connection : Connection)
      (known : (net.nodes link.device).router.handlers link.handler = some connection)
      (going : connection.state.isOver = false) : Goes net i id link
        (.own link.device (.handler link.handler event))

/-- What comes next from outside: the offer is written, or lost only if it cannot be, bytes
arrive, the handler gets an answer and would take any other, and a read fails only at the
end of a reply that is over. -/
inductive Awaited (world : World ι) (net : Network ι) (i : ι) (id : Nat) (link : Link ι) :
    NetworkAction ι → Prop where
  | written (sent : (world.write link.offer link.budget).1 = .ok ()) : Awaited world net i id link
      (.own i (.task id .prepared))
  | unwritten (error : Error) (lost : (world.write link.offer link.budget).1 = .error error) :
      Awaited world net i id link (.own i (.task id (.failed error)))
  | arrives : Awaited world net i id link (.arrives i id)
  | answers (event : Event) (connection : Connection)
      (known : (net.nodes link.device).router.handlers link.handler = some connection)
      (awaits : (net.nodes link.device).Awaits (world.env link.device) link.handler connection)
      (asked : connection.state.asks event = true) (going : connection.state.isOver = false) :
      Awaited world net i id link (.own link.device (.handler link.handler event))
  | ends (connection : Connection)
      (known : (net.nodes link.device).router.handlers link.handler = some connection)
      (silent : connection.state.isOver = true) (read : link.consumed = connection.written.length) :
      Awaited world net i id link (.own i (.task id (.sender .readFailed)))

/-- A step within one of the programs is open, or one from outside. -/
def GoesOn (world : World ι) (net : Network ι) (i : ι) (id : Nat) (link : Link ι) : Prop :=
  (∃ action, Goes net i id link action ∧ (net.step world action).isSome = true) ∨
    ∃ action, Awaited world net i id link action ∧ (net.step world action).isSome = true

namespace Network

theorem events_kept {nodes : ι → Node} {action : Action}
    (other : k = i → ∀ event, action ≠ .task id event)
    (moved : stepAt (fun i => Node.step (world.env i)) net.nodes k action = some nodes) :
    taskEvents id (nodes i).log = taskEvents id (net.nodes i).log := by
  rcases stepAt_cases moved i with same | ⟨rfl, stepped⟩
  · rw [same]
  · cases Node.step_task stepped id with
    | moved event task state own => exact absurd own (other rfl event)
    | kept _ events => exact events
    | spawned _ _ events => exact events

theorem reads_consumed (run : Run (Steps (Network.step world)) (.new files) actions net) :
    ∀ i id, (taskEvents id (net.nodes i).log).countP TaskEvent.isRead =
      (net.links (i, id)).elim 0 (·.consumed) := by
  apply run.invariant (P := fun net => ∀ i id, (taskEvents id (net.nodes i).log).countP
    TaskEvent.isRead = (net.links (i, id)).elim 0 (·.consumed))
  · exact fun _ _ => rfl
  · intro before action after counted stepped i id
    cases step_move stepped with
    | own k action nodes admitted moved =>
      dsimp only
      by_cases here : k = i ∧ ∃ event, action = .task id event
      · obtain ⟨rfl, event, rfl⟩ := here
        have own : (before.nodes k).step (world.env k) (.task id event) = some (nodes k) :=
          stepAt_self moved
        cases Node.step_task own id with
        | moved event' task state own found stepped found' events =>
          cases own
          rw [events, List.countP_cons, counted, reads_task]
          cases known : before.links (k, id) with
          | none =>
            have unread : event.isRead = false := by
              rw [← Bool.not_eq_true]
              intro reads
              cases event with
              | sender event => cases event <;> simp [admits, known] at admitted <;> cases reads
              | _ => cases reads
            simp [unread]
          | some link => cases event with
            | sender event => cases event <;> rfl
            | _ => rfl
        | kept other => exact absurd rfl (other event)
        | spawned _ other => exact absurd rfl (other event)
      · have other : k = i → ∀ event, action ≠ .task id event :=
          fun same event own => here ⟨same, event, own⟩
        rw [events_kept other moved, reads_other other, counted]
    | dialed k actor j handler offer answers budget task nodes free found preparing addressed
        prepared moved =>
      dsimp only
      rw [events_kept (fun _ _ => Action.noConfusion) moved, counted]
      by_cases here : (i, id) = (k, actor)
      · rw [here, free, Function.update_self]
        rfl
      · rw [Function.update_of_ne here]
    | arrived k actor link known more =>
      dsimp only
      rw [counted]
      by_cases here : (i, id) = (k, actor)
      · rw [here, known, Function.update_self]
        rfl
      · rw [Function.update_of_ne here]

theorem own_isSome {action : Action} (admitted : net.admits world i action = true)
    (moves : ((net.nodes i).step (world.env i) action).isSome = true) :
    (net.step world (.own i action)).isSome = true := by
  rw [step, if_pos admitted, Option.isSome_map, stepAt, Option.isSome_map]
  exact moves

theorem task_isSome {event : TaskEvent} (admitted : net.admits world i (.task id event) = true)
    (granted : (net.nodes i).taskGrants event = true) (found : (net.nodes i).tasks[id]? = some task)
    (moves : (task.state.step event).isSome = true) :
    (net.step world (.own i (.task id event))).isSome = true := by
  refine own_isSome admitted ?_
  rw [Node.step, Node.runTask, if_pos granted, found, Option.bind_some, Option.isSome_map]
  exact moves

variable {link : Link ι} {past : List TransferEvent} {task : Task} {transfer : Transfer}

omit [DecidableEq ι] in
theorem linked_bounds (linked : Linked world net.nodes i id link past task transfer) :
    link.consumed ≤ link.arrived ∧ link.arrived ≤ transfer.connection.written.length := by
  have inv := Transfer.inv linked.run
  rw [← linked.consumed, ← linked.arrived]
  exact ⟨inv.consumed, inv.arrived⟩

/-- A handler that is not over goes on within its program, or with an answer from outside. -/
theorem handler_goes_on (run : Run (Steps (Network.step world)) (.new files) actions net)
    (linked : Linked world net.nodes i id link past task transfer)
    (going : transfer.connection.state.isOver = false)
    (helped : ¬(net.nodes link.device).Waits link.handler transfer.connection) :
    GoesOn world net i id link := by
  have running (result : Except AcceptError Unit) :
      transfer.connection.state ≠ .returned result := by
    intro same
    rw [same] at going
    cases going
  by_cases here : ∃ event, Event.isLocal event = true ∧ ((net.nodes link.device).step
      (world.env link.device) (.handler link.handler event)).isSome = true
  · obtain ⟨event, here, steps⟩ := here
    exact .inl ⟨_, .serves event here _ linked.handler going, own_isSome rfl steps⟩
  · have awaits := Node.awaits_of_idle (node_run run link.device) linked.handler running helped
      fun event isLocal => Bool.eq_false_of_not_eq_true fun steps => here ⟨event, isLocal, steps⟩
    obtain ⟨event, asked, steps⟩ := awaits.possible
    exact .inr ⟨_, .answers event _ linked.handler awaits asked going, own_isSome rfl steps⟩

/-- Behind the last byte that has arrived it is the turn of the connection, or of the
handler, or the reply is at its end. -/
theorem reply_goes_on (run : Run (Steps (Network.step world)) (.new files) actions net)
    (linked : Linked world net.nodes i id link past task transfer)
    (known : net.links (i, id) = some link) (read : link.arrived ≤ link.consumed)
    (talking : task.state = .talking sender) (reads : sender.Reads)
    (helped : ¬(net.nodes link.device).Waits link.handler transfer.connection) :
    GoesOn world net i id link := by
  obtain ⟨consumed, arrived⟩ := linked_bounds linked
  by_cases more : link.arrived < transfer.connection.written.length
  · refine .inr ⟨_, .arrives, ?_⟩
    rw [step, known, Option.bind_some, written_eq linked, if_pos more, Option.isSome_some]
  · cases silent : transfer.connection.state.isOver with
    | true =>
      have last : link.consumed = transfer.connection.written.length := by omega
      refine .inr ⟨_, .ends _ linked.handler silent last, task_isSome rfl rfl linked.found ?_⟩
      rw [talking]
      exact (Option.isSome_map).trans (reads.step_isSome (.inl rfl))
    | false => exact handler_goes_on run linked silent helped

theorem read_goes_on (linked : Linked world net.nodes i id link past task transfer)
    (known : net.links (i, id) = some link) (unread : link.consumed < link.arrived)
    (talking : task.state = .talking sender) (reads : sender.Reads) :
    GoesOn world net i id link := by
  obtain ⟨_, arrived⟩ := linked_bounds linked
  obtain ⟨byte, next⟩ : ∃ byte, transfer.connection.written[link.consumed]? = some byte :=
    ⟨_, List.getElem?_eq_getElem (by omega)⟩
  refine .inl ⟨_, .works (.sender (.received byte)) rfl, task_isSome ?_ rfl linked.found ?_⟩
  · simp [admits, known, unread, written_eq linked, next]
  · rw [talking]
    exact (Option.isSome_map).trans (reads.step_isSome (.inr ⟨byte, rfl⟩))

theorem offer_goes_on (known : net.links (i, id) = some link)
    (found : (net.nodes i).tasks[id]? = some task) (preparing : task.state = .preparing) :
    GoesOn world net i id link := by
  cases wrote : (world.write link.offer link.budget).1 with
  | ok =>
    refine .inr ⟨_, .written wrote, task_isSome ?_ rfl found (by rw [preparing]; rfl)⟩
    simp [admits, known, wrote]
  | error error =>
    exact .inr ⟨_, .unwritten error wrote, task_isSome rfl rfl found (by rw [preparing]; rfl)⟩

/-- No send hangs within the programs: its task takes at most twenty-nine steps, and
twenty-two for each item of the download it leads to. Until it has reported its result, its
handler waits for the receiving user, or one of the two ends can take a step, or an answer
from outside is awaited and will be taken. -/
theorem sends_finish (run : Run (Steps (Network.step world)) (.new files) actions net)
    (known : net.links (i, id) = some link) (found : (net.nodes i).tasks[id]? = some task) :
    (taskEvents id (net.nodes i).log).length ≤ 29 + 22 *
        (ownEvents link.handler (net.nodes link.device).log).countP Event.isItem ∧
      (task.state = .reported ∨
        (∃ connection, (net.nodes link.device).router.handlers link.handler = some connection ∧
          (net.nodes link.device).Waits link.handler connection) ∨
        GoesOn world net i id link) := by
  obtain ⟨past, task', transfer, linked⟩ := (Network.inv run).linked i id link known
  obtain rfl := Option.some.inj (linked.found.symm.trans found)
  constructor
  · have inv := Transfer.inv linked.run
    have steps := TaskState.run_length (Node.task_run (node_run run i) found)
    have reads := reads_consumed run i id
    rw [known, Option.elim_some] at reads
    obtain ⟨consumed, arrived⟩ := linked_bounds linked
    have written := written_length inv.runs
    have served := handler_steps inv.runs
    rw [linked.log] at written served
    omega
  · by_cases waits : (net.nodes link.device).Waits link.handler transfer.connection
    · exact .inr (.inl ⟨_, linked.handler, waits⟩)
    cases state : task'.state with
    | reported => exact .inl rfl
    | preparing => exact .inr (.inr (offer_goes_on known found state))
    | talking sender =>
      refine .inr (.inr ?_)
      have reading (reads : sender.Reads) : GoesOn world net i id link := by
        by_cases unread : link.consumed < link.arrived
        · exact read_goes_on linked known unread state reads
        · exact reply_goes_on run linked known (Nat.le_of_not_lt unread) state reads waits
      cases sender with
      | returned result =>
        refine .inl ⟨_, .works (.reports result) rfl, task_isSome rfl rfl found ?_⟩
        rw [state]
        exact congrArg Option.isSome (if_pos rfl)
      | publishing bytes =>
        refine .inl ⟨_, .works (.sender (.published bytes (net.nodes i).isOpen)) rfl,
          task_isSome rfl (decide_eq_true rfl) found ?_⟩
        rw [state]
        exact (Option.isSome_map).trans (congrArg Option.isSome (if_pos rfl))
      | _ => exact reading trivial

end Network

/-- A sender that has been told of five bytes, by a handler that has more to say. -/
theorem sends_finish_sample : ∃ net : Network Bool, ∃ link,
    net.links (true, 0) = some link ∧ GoesOn sampleWorld net true 0 link := by
  obtain ⟨net, run, tasks, linked, handler⟩ : ∃ net : Network Bool,
      Run (Steps (Network.step sampleWorld)) (.new fun _ => []) sampleSending.reverse net ∧
      ((net.nodes true).tasks[0]?).map (·.state) = some (.talking .reading) ∧
      (net.links (true, 0)).map (fun link => (link.device, link.handler)) = some (false, 0) ∧
      ((net.nodes false).router.handlers 0).map (·.state) =
        some (.downloading sampleNotes (sampleDir.join ⟨utf8 "notes.txt"⟩) .downloading) := by
    apply execute_reaches
    decide +kernel
  obtain ⟨task, found, state⟩ := Option.map_eq_some_iff.mp tasks
  obtain ⟨link, known, place⟩ := Option.map_eq_some_iff.mp linked
  obtain ⟨device, actor⟩ := Prod.mk.inj place
  obtain ⟨connection, serves, downloading⟩ := Option.map_eq_some_iff.mp handler
  rcases (Network.sends_finish run known found).2 with
    reported | ⟨other, here, _, offer, waits⟩ | goes
  · cases state.symm.trans reported
  · rw [device, actor] at here
    obtain rfl := Option.some.inj (serves.symm.trans here)
    rcases waits with ⟨waits, _⟩ | ⟨waits, _⟩ <;> cases downloading.symm.trans waits
  · exact ⟨net, link, known, goes⟩

end IrohShare
