import IrohShare.Network
import IrohShare.Replies
import IrohShare.Approval
import IrohShare.SendingProofs

/-! What the window of a sending device says about the device it sends to. Each link runs
as a transfer of its own, whatever the other tasks, handlers and strangers do, so a result
that a task reports is backed by what the receiving user and handler have done. -/
namespace IrohShare
open Wire Unix Transition

variable {id : Nat} {log : List Entry}

def Entry.ofTask (id : Nat) : Entry → Option TaskEvent
  | .task actor event => if actor = id then some event else none
  | _ => none

def taskEvents (id : Nat) (log : List Entry) : List TaskEvent := log.filterMap (Entry.ofTask id)

theorem mem_taskEvents : event ∈ taskEvents id log ↔ .task id event ∈ log := by
  rw [taskEvents, List.mem_filterMap]
  constructor
  · rintro ⟨entry, inside, found⟩
    cases entry with
    | task actor event =>
        simp only [Entry.ofTask, Option.ite_none_right_eq_some, Option.some.injEq] at found
        obtain ⟨rfl, rfl⟩ := found
        exact inside
    | _ => cases found
  · intro inside
    exact ⟨_, inside, if_pos rfl⟩

theorem taskEvents_self : taskEvents id (.task id event :: log) = event :: taskEvents id log := by
  simp [taskEvents, Entry.ofTask]

theorem taskEvents_other {entry : Entry} (other : entry.ofTask id = none) :
    taskEvents id (entry :: log) = taskEvents id log := List.filterMap_cons_none other

namespace Node
variable {env : Env} {node after : Node}

/-- A task's step, or one that leaves its history alone and at most spawns it. -/
inductive TaskView (node : Node) (action : Action) (after : Node) (id : Nat) : Prop where
  | moved (event : TaskEvent) (task : Task) (state : TaskState) (own : action = .task id event)
      (found : node.tasks[id]? = some task) (stepped : task.state.step event = some state)
      (found' : after.tasks[id]? = some { task with state })
      (events : taskEvents id after.log = event :: taskEvents id node.log)
  | kept (other : ∀ event, action ≠ .task id event)
      (events : taskEvents id after.log = taskEvents id node.log)
      (same : after.tasks[id]? = node.tasks[id]?)
  | spawned (task : Task) (other : ∀ event, action ≠ .task id event)
      (events : taskEvents id after.log = taskEvents id node.log)
      (fresh : node.tasks[id]? = none) (found : after.tasks[id]? = some task)
      (preparing : task.state = .preparing)

theorem work_view (found : node.tasks[actor]? = some task)
    (moved : task.state.step event = some state) (id : Nat) {after : Node}
    (tasks : after.tasks = node.tasks.set actor { task with state })
    (log : after.log = .task actor event :: node.log) :
    TaskView node (.task actor event) after id := by
  by_cases same : actor = id
  · subst same
    have inRange : actor < node.tasks.length := (List.getElem?_eq_some_iff.mp found).1
    refine .moved event task state rfl found moved ?_ ?_
    · rw [tasks, List.getElem?_set_self inRange]
    · rw [log, taskEvents_self]
  · refine .kept ?_ ?_ ?_
    · intro other here
      exact same (Action.task.inj here).1
    · rw [log]
      exact taskEvents_other (if_neg same)
    · rw [tasks, List.getElem?_set_ne same]

theorem spawn_view (spawns : after.tasks = node.tasks ++ [task]) (fresh : task.state = .preparing)
    (other : ∀ event, action ≠ .task id event)
    (events : taskEvents id after.log = taskEvents id node.log) : TaskView node action after id := by
  by_cases here : id < node.tasks.length
  · exact .kept other events (by rw [spawns, List.getElem?_append_left here])
  · have none : node.tasks[id]? = none := List.getElem?_eq_none (by omega)
    by_cases latest : id = node.tasks.length
    · exact .spawned task other events none (by rw [spawns, latest, List.getElem?_concat_length]) fresh
    · refine .kept other events ?_
      rw [none, spawns, List.getElem?_eq_none]
      simp only [List.length_append, List.length_singleton]
      omega

theorem step_task (stepped : node.step env action = some after) (id : Nat) :
    TaskView node action after id := by
  cases step_move stepped with
  | worked actor task event state found moved running =>
      exact work_view found moved id rfl rfl
  | published actor task bytes state found moved => exact work_view found moved id rfl rfl
  | reported actor task result state found moved => exact work_view found moved id rfl rfl
  | framed input after isOpen frame =>
      cases frame with
      | started path name endpointAddr sendTotal pickedPath droppedFiles selected free names =>
          exact spawn_view rfl rfl (by simp) rfl
      | _ => exact .kept (by simp) rfl rfl
  | _ => exact .kept (by simp) rfl rfl

theorem task_runs (run : Run (Steps (Node.step env)) (.new disk) past node) (id : Nat) :
    (node.tasks[id]?).elim (taskEvents id node.log = []) fun task =>
      Run (Steps TaskState.step) .preparing (taskEvents id node.log) task.state := by
  apply run.invariant (P := fun node => (node.tasks[id]?).elim (taskEvents id node.log = [])
    fun task => Run (Steps TaskState.step) .preparing (taskEvents id node.log) task.state)
  · rfl
  · intro before action after ran stepped
    cases step_task stepped id with
    | moved event task state own found moved found' events =>
      rw [found] at ran
      rw [found', events]
      exact ran.next moved
    | kept other events same =>
      rw [same, events]
      exact ran
    | spawned task other events fresh found preparing =>
      rw [fresh] at ran
      rw [found, events, show taskEvents id before.log = [] from ran]
      exact preparing ▸ .start

theorem task_run (run : Run (Steps (Node.step env)) (.new disk) past node)
    (found : node.tasks[id]? = some task) :
    Run (Steps TaskState.step) .preparing (taskEvents id node.log) task.state := by
  simpa only [found, Option.elim_some] using task_runs run id

theorem task_absent (run : Run (Steps (Node.step env)) (.new disk) past node)
    (missing : node.tasks[id]? = none) : taskEvents id node.log = [] := by
  simpa only [missing, Option.elim_none] using task_runs run id

/-- A handler's step, or one that leaves it and its history alone. -/
inductive HandlerView (env : Env) (connection : Connection) (action : Action) (node after : Node)
    (id : Nat) : Prop where
  | moved (event : Event) (next : Connection) (own : action = .handler id event)
      (stepped : connection.step env.parse event = some next)
      (known : after.router.handlers id = some next)
      (events : ownEvents id after.log = event :: ownEvents id node.log)
  | kept (known : after.router.handlers id = some connection)
      (events : ownEvents id after.log = ownEvents id node.log)

theorem advance_view (known : node.router.handlers id = some connection)
    (known' : node.router.handlers actor = some acting)
    (moved : acting.step env.parse event = some next)
    (handlers : after.router.handlers = Function.update node.router.handlers actor (some next))
    (log : after.log = .handler actor event :: node.log) :
    HandlerView env connection (.handler actor event) node after id := by
  by_cases same : id = actor
  · subst same
    obtain rfl := Option.some.inj (known.symm.trans known')
    exact .moved event next rfl moved (by rw [handlers, Function.update_self])
      (by rw [log, ownEvents_self])
  · exact .kept (by rw [handlers, Function.update_of_ne same, known])
      (by rw [log, ownEvents_other same])

theorem step_handler (stepped : node.step env action = some after)
    (known : node.router.handlers id = some connection) :
    HandlerView env connection action node after id := by
  cases step_move stepped with
  | connected actor remote incoming free =>
      have distinct : id ≠ actor := by
        rintro rfl
        cases free.symm.trans known
      exact .kept ((Function.update_of_ne distinct _ _).trans known) rfl
  | handled actor event acting next known' moved => exact advance_view known known' moved rfl rfl
  | offered actor offer acting next known' state moved =>
      exact advance_view known known' moved rfl rfl
  | posted actor event bytes acting next known' moved =>
      exact advance_view known known' moved rfl rfl
  | framed input after isOpen frame => cases frame <;> exact .kept known rfl
  | _ => exact .kept known rfl

end Node

/-- The sender of a transfer, in the state its task is in: it starts when the offer is
`written`, and an error may also be a failure to connect. -/
def TaskState.Runs (written : Prop) (sender : Sender) : TaskState → Prop
  | .preparing => sender = .deciding
  | .talking talks => (talks = sender ∧ written) ∨ ∃ error, talks = .returned (.error error)
  | .reported => True

/-- A task that has not connected has nothing to report but an error. -/
def TaskState.Unconnected : TaskState → Prop
  | .preparing | .reported => True
  | .talking sender => ∃ error, sender = .returned (.error error)

def Link.Written {ι : Type} (world : World ι) (link : Link ι) : Prop :=
  (world.write link.offer link.budget).1 = .ok ()

/-- The link runs as a transfer between its task and its handler. -/
structure Linked {ι : Type} (world : World ι) (nodes : ι → Node) (i : ι) (id : Nat)
    (link : Link ι) (past : List TransferEvent) (task : Task) (transfer : Transfer) : Prop where
  run : Run (Steps (Transfer.step world.parse))
    (.new (world.ident i) (world.write link.offer link.budget).2.written) past transfer
  handler : (nodes link.device).router.handlers link.handler = some transfer.connection
  log : transfer.log = ownEvents link.handler (nodes link.device).log
  arrived : transfer.arrived = link.arrived
  consumed : transfer.consumed = link.consumed
  found : (nodes i).tasks[id]? = some task
  addressed : task.endpointAddr.id = world.ident link.device
  prepared : ∃ answers, prepareOffer (world.ident i) task.filename answers = .ok link.offer
  follows : task.state.Runs (link.Written world) transfer.sender
  wrote : transfer.sender = .deciding ∨ link.Written world
  reports : ∀ result, .reports result ∈ taskEvents id (nodes i).log →
    transfer.sender = .returned result ∨ ∃ error, result = .error error
  tells : ∀ bytes, .sender (.published bytes true) ∈ taskEvents id (nodes i).log →
    bytes ∈ heard past

structure Unlinked (node : Node) (id : Nat) : Prop where
  state : ∀ task, node.tasks[id]? = some task → task.state.Unconnected
  reports : ∀ result, .reports result ∈ taskEvents id node.log → ∃ error, result = .error error
  silent : ∀ bytes, .sender (.published bytes true) ∉ taskEvents id node.log

/-- Each connected task runs a transfer, and the others only ever fail. -/
structure Network.Inv {ι : Type} (world : World ι) (net : Network ι) : Prop where
  linked : ∀ i id link, net.links (i, id) = some link →
    ∃ past task transfer, Linked world net.nodes i id link past task transfer
  unlinked : ∀ i id, net.links (i, id) = none → Unlinked (net.nodes i) id

/-- The same connection, of which more has arrived and been read. -/
structure Link.Same {ι : Type} (before after : Link ι) : Prop where
  device : after.device = before.device
  handler : after.handler = before.handler
  offer : after.offer = before.offer

section Links
variable {ι : Type} {world : World ι} {nodes after : ι → Node} {i : ι} {link : Link ι}
  {past : List TransferEvent} {task : Task} {transfer : Transfer} {state : TaskState}
  {sender : Sender}

/-- What the link sees of the sending task is as before. -/
structure SameTask (nodes after : ι → Node) (i : ι) (id : Nat) : Prop where
  found : (after i).tasks[id]? = (nodes i).tasks[id]?
  events : taskEvents id (after i).log = taskEvents id (nodes i).log

/-- What the link sees of the receiving handler is as before. -/
structure SameHandler (nodes after : ι → Node) (link : Link ι) : Prop where
  known : (after link.device).router.handlers link.handler =
    (nodes link.device).router.handlers link.handler
  events : ownEvents link.handler (after link.device).log =
    ownEvents link.handler (nodes link.device).log

theorem Linked.frame (linked : Linked world nodes i id link past task transfer)
    (taskSame : SameTask nodes after i id) (handlerSame : SameHandler nodes after link) :
    Linked world after i id link past task transfer where
  run := linked.run
  handler := handlerSame.known.trans linked.handler
  log := linked.log.trans handlerSame.events.symm
  arrived := linked.arrived
  consumed := linked.consumed
  found := taskSame.found.trans linked.found
  addressed := linked.addressed
  prepared := linked.prepared
  follows := linked.follows
  wrote := linked.wrote
  reports := by simpa only [taskSame.events] using linked.reports
  tells := by simpa only [taskSame.events] using linked.tells

theorem Linked.handle (linked : Linked world nodes i id link past task transfer)
    (taskSame : SameTask nodes after i id)
    (moved : transfer.connection.step world.parse event = some next)
    (known : (after link.device).router.handlers link.handler = some next)
    (events : ownEvents link.handler (after link.device).log =
      event :: ownEvents link.handler (nodes link.device).log) :
    Linked world after i id link (.receiver event :: past) task
      { transfer with connection := next, log := event :: transfer.log } where
  run := linked.run.next (by simp only [Steps, Transfer.step, moved, Option.map_some])
  handler := known
  log := by rw [events, linked.log]
  arrived := linked.arrived
  consumed := linked.consumed
  found := taskSame.found.trans linked.found
  addressed := linked.addressed
  prepared := linked.prepared
  follows := linked.follows
  wrote := linked.wrote
  reports := by simpa only [taskSame.events] using linked.reports
  tells := by
    rw [taskSame.events, heard_silent rfl]
    exact linked.tells

/-- What a task event does to the link: a byte that is read is consumed. -/
def Link.read (link : Link ι) : TaskEvent → Link ι
  | .sender (.received _) => { link with consumed := link.consumed + 1 }
  | _ => link

theorem Linked.arrive (linked : Linked world nodes i id link past task transfer)
    (more : link.arrived < transfer.connection.written.length) :
    Linked world nodes i id { link with arrived := link.arrived + 1 } (.arrives :: past) task
      { transfer with arrived := transfer.arrived + 1 } where
  run := linked.run.next (by
    simp only [Steps, Transfer.step]
    rw [if_pos (linked.arrived ▸ more)])
  handler := linked.handler
  log := linked.log
  arrived := congrArg (· + 1) linked.arrived
  consumed := linked.consumed
  found := linked.found
  addressed := linked.addressed
  prepared := linked.prepared
  follows := linked.follows
  wrote := linked.wrote
  reports := linked.reports
  tells := by
    rw [heard_silent rfl]
    exact linked.tells

theorem Linked.keep (linked : Linked world nodes i id link past task transfer)
    (handlerSame : SameHandler nodes after link)
    (found : (after i).tasks[id]? = some { task with state })
    (events : taskEvents id (after i).log = event :: taskEvents id (nodes i).log)
    (runs : state.Runs (link.Written world) transfer.sender)
    (reports : ∀ result, event = .reports result →
      transfer.sender = .returned result ∨ ∃ error, result = .error error)
    (silent : ∀ bytes, event ≠ .sender (.published bytes true)) :
    Linked world after i id link past { task with state } transfer where
  run := linked.run
  handler := handlerSame.known.trans linked.handler
  log := linked.log.trans handlerSame.events.symm
  arrived := linked.arrived
  consumed := linked.consumed
  found := found
  addressed := linked.addressed
  prepared := linked.prepared
  follows := runs
  wrote := linked.wrote
  reports := by
    rw [events]
    intro result inside
    rcases List.mem_cons.mp inside with same | old
    · exact reports result same.symm
    · exact linked.reports result old
  tells := by
    rw [events]
    intro bytes inside
    rcases List.mem_cons.mp inside with same | old
    · exact absurd same.symm (silent bytes)
    · exact linked.tells bytes old

theorem Linked.send {consumed : Nat} (linked : Linked world nodes i id link past task transfer)
    (handlerSame : SameHandler nodes after link)
    (found : (after i).tasks[id]? = some { task with state := .talking sender })
    (events : taskEvents id (after i).log = .sender event :: taskEvents id (nodes i).log)
    (stepped : transfer.step world.parse (.sender event) = some { transfer with sender, consumed })
    (running : ∀ result, transfer.sender ≠ .returned result) (written : link.Written world) :
    Linked world after i id { link with consumed } (.sender event :: past)
      { task with state := .talking sender } { transfer with sender, consumed } where
  run := linked.run.next stepped
  handler := handlerSame.known.trans linked.handler
  log := linked.log.trans handlerSame.events.symm
  arrived := linked.arrived
  consumed := rfl
  found := found
  addressed := linked.addressed
  prepared := linked.prepared
  follows := .inl ⟨rfl, written⟩
  wrote := .inr written
  reports := by
    rw [events]
    intro result inside
    rcases List.mem_cons.mp inside with same | old
    · cases same
    · exact .inr ((linked.reports result old).resolve_left (running result))
  tells := by
    rw [events, heard, collect_cons]
    intro bytes inside
    rcases List.mem_cons.mp inside with same | old
    · cases same
      exact List.mem_append_right _ (.head _)
    · exact List.mem_append_left _ (linked.tells bytes old)

theorem Sender.step_running {sender next : Sender} (stepped : sender.step event = some next) :
    ∀ result, sender ≠ .returned result := by
  rintro result rfl
  cases stepped

theorem returned_of_reports {talks : Sender}
    (moved : (TaskState.talking talks).step (.reports result) = some state) :
    talks = .returned result := by
  cases talks with
  | returned value =>
      simp only [TaskState.step] at moved
      split at moved
      · rename_i same
        rw [same]
      · cases moved
  | _ => cases moved

theorem Linked.work (linked : Linked world nodes i id link past task transfer)
    (handlerSame : SameHandler nodes after link) (moved : task.state.step event = some state)
    (found : (after i).tasks[id]? = some { task with state })
    (events : taskEvents id (after i).log = event :: taskEvents id (nodes i).log)
    (ready : event = .prepared → link.Written world)
    (available : ∀ byte, event = .sender (.received byte) →
      link.consumed < link.arrived ∧ transfer.connection.written[link.consumed]? = some byte) :
    ∃ past transfer, Linked world after i id (link.read event) past { task with state } transfer := by
  have runs := linked.follows
  cases here : task.state with
  | preparing =>
    rw [here] at moved runs
    cases event with
    | prepared =>
      cases moved
      exact ⟨_, _, linked.keep handlerSame found events (.inl ⟨runs.symm, ready rfl⟩) (by simp)
        (by simp)⟩
    | failed error =>
      cases moved
      exact ⟨_, _, linked.keep handlerSame found events (.inr ⟨error, rfl⟩) (by simp) (by simp)⟩
    | sender | reports => cases moved
  | reported =>
    rw [here] at moved
    cases moved
  | talking talks =>
    rw [here] at moved runs
    cases event with
    | prepared | failed => cases moved
    | reports result =>
      obtain rfl := Sending.reported_of_step moved
      refine ⟨_, _, linked.keep handlerSame found events trivial ?_ (by simp)⟩
      rintro value ⟨⟩
      obtain rfl := returned_of_reports moved
      exact runs.imp (fun here => here.1.symm) fun ⟨error, same⟩ => ⟨error, Sender.returned.inj same⟩
    | sender event =>
      obtain ⟨sender, stepped, rfl⟩ := Option.map_eq_some_iff.mp moved
      have running := Sender.step_running stepped
      obtain ⟨rfl, written⟩ := runs.resolve_right fun ⟨_, same⟩ => running _ same
      cases event with
      | received byte =>
        have available := available byte rfl
        rw [← linked.arrived, ← linked.consumed] at available
        refine ⟨_, _, linked.send handlerSame found events ?_ running written⟩
        rw [Transfer.step, if_pos available, stepped, Option.map_some, linked.consumed]
      | readFailed | timedOut | published =>
        refine ⟨_, _, linked.send handlerSame found events ?_ running written⟩
        rw [Transfer.step, stepped, Option.map_some, ← linked.consumed]
        simp

end Links

theorem Unlinked.next {node after : Node} (unlinked : Unlinked node id)
    (stepped : node.step env action = some after) (barred : action ≠ .task id .prepared) :
    Unlinked after id := by
  cases Node.step_task stepped id with
  | kept other events same =>
      exact ⟨by simpa only [same] using unlinked.state, by simpa only [events] using unlinked.reports,
        by simpa only [events] using unlinked.silent⟩
  | spawned task other events fresh found preparing =>
      refine ⟨?_, by simpa only [events] using unlinked.reports,
        by simpa only [events] using unlinked.silent⟩
      intro task' found'
      obtain rfl := Option.some.inj (found.symm.trans found')
      rw [preparing]
      trivial
  | moved event task state own found moved found' events =>
      have unconnected := unlinked.state task found
      have goesOn : state.Unconnected ∧ (∀ result, event = .reports result →
          ∃ error, result = .error error) ∧ ∀ sent, event ≠ .sender sent := by
        cases here : task.state with
        | preparing =>
            rw [here] at moved
            cases event with
            | prepared => exact absurd own barred
            | failed error =>
                cases moved
                exact ⟨⟨error, rfl⟩, by simp, by simp⟩
            | sender | reports => cases moved
        | reported =>
            rw [here] at moved
            cases moved
        | talking talks =>
            rw [here] at moved unconnected
            obtain ⟨error, rfl⟩ := unconnected
            cases event with
            | prepared | failed => cases moved
            | sender event => cases event <;> cases moved
            | reports result =>
                obtain rfl := Sending.reported_of_step moved
                refine ⟨trivial, ?_, by simp⟩
                rintro value ⟨⟩
                exact ⟨error, (Sender.returned.inj (returned_of_reports moved)).symm⟩
      refine ⟨?_, ?_, ?_⟩
      · intro task' found''
        obtain rfl := Option.some.inj (found'.symm.trans found'')
        exact goesOn.1
      · intro result inside
        rw [events] at inside
        rcases List.mem_cons.mp inside with same | old
        · exact goesOn.2.1 result same.symm
        · exact unlinked.reports result old
      · intro bytes inside
        rw [events] at inside
        rcases List.mem_cons.mp inside with same | old
        · exact goesOn.2.2 _ same.symm
        · exact unlinked.silent bytes old

namespace Network
variable {ι : Type} [DecidableEq ι] {world : World ι} {net after : Network ι}
  {files : ι → List PathBuf} {actions : List (NetworkAction ι)} {nodes : ι → Node}
  {past : List TransferEvent} {i k : ι} {link : Link ι} {task : Task} {transfer : Transfer}

inductive Move (world : World ι) (net : Network ι) : NetworkAction ι → Network ι → Prop where
  | own (i : ι) (action : Action) (nodes : ι → Node) (admitted : net.admits world i action = true)
      (stepped : stepAt (fun i => Node.step (world.env i)) net.nodes i action = some nodes) :
      Move world net (.own i action) ⟨nodes, net.reads i action⟩
  | dialed (i : ι) (id : Nat) (j : ι) (handler : Nat) (offer : Offer) (answers : Answers)
      (budget : Option Nat) (task : Task) (nodes : ι → Node) (free : net.links (i, id) = none)
      (found : (net.nodes i).tasks[id]? = some task) (preparing : task.state = .preparing)
      (addressed : task.endpointAddr.id = world.ident j)
      (prepared : prepareOffer (world.ident i) task.filename answers = .ok offer)
      (stepped : stepAt (fun i => Node.step (world.env i)) net.nodes j
        (.connect handler (world.ident i) (world.write offer budget).2.written) = some nodes) :
      Move world net (.dial i id j handler offer answers budget)
        ⟨nodes, Function.update net.links (i, id) (some ⟨j, handler, offer, budget, 0, 0⟩)⟩
  | arrived (i : ι) (id : Nat) (link : Link ι) (known : net.links (i, id) = some link)
      (more : link.arrived < (net.written link).length) : Move world net (.arrives i id)
        ⟨net.nodes, Function.update net.links (i, id)
          (some { link with arrived := link.arrived + 1 })⟩

theorem step_move (stepped : net.step world action = some after) :
    Move world net action after := by
  cases action with
  | own i action =>
      simp only [step] at stepped
      split at stepped
      · rename_i admitted
        obtain ⟨nodes, moved, rfl⟩ := Option.map_eq_some_iff.mp stepped
        exact .own i action nodes admitted moved
      · cases stepped
  | dial i id j handler offer answers budget =>
      simp only [step] at stepped
      split at stepped
      · rename_i dialed
        obtain ⟨nodes, moved, rfl⟩ := Option.map_eq_some_iff.mp stepped
        simp only [dials, Bool.and_eq_true, Option.isNone_iff_eq_none, Option.any_eq_true,
          decide_eq_true_eq] at dialed
        obtain ⟨free, task, found, preparing, addressed, prepared⟩ := dialed
        exact .dialed i id j handler offer answers budget task nodes free found preparing addressed
          prepared moved
      · cases stepped
  | arrives i id =>
      obtain ⟨link, known, moved⟩ := Option.bind_eq_some_iff.mp stepped
      split at moved <;> cases moved
      rename_i more
      exact .arrived i id link known more

theorem step_node (k : ι) (stepped : net.step world action = some after) :
    (action.at world k).elim (after.nodes k = net.nodes k) fun own =>
      Steps (Node.step (world.env k)) (net.nodes k) own (after.nodes k) := by
  cases step_move stepped with
  | own i action nodes admitted moved => exact stepAt_label moved k
  | dialed i id j handler offer answers budget task nodes _ _ _ _ _ moved =>
      exact stepAt_label moved k
  | arrived => rfl

theorem nodes_run (run : Run (Steps (Network.step world)) net actions after) (k : ι) :
    Run (Steps (Node.step (world.env k))) (net.nodes k)
      (actions.filterMap (NetworkAction.at world k)) (after.nodes k) :=
  run.project (fun net => net.nodes k) (NetworkAction.at world k) (step_node k)

/-- Each device of a network runs the program. -/
theorem node_run (run : Run (Steps (Network.step world)) (.new files) actions net) (k : ι) :
    Run (Steps (Node.step (world.env k))) (.new (files k))
      (actions.filterMap (NetworkAction.at world k)) (net.nodes k) :=
  nodes_run run k

omit [DecidableEq ι] in
theorem written_eq (linked : Linked world net.nodes i id link past task transfer) :
    net.written link = transfer.connection.written := by
  rw [written, linked.handler, Option.elim_some]

theorem reads_task (i : ι) (id : Nat) (event : TaskEvent) :
    net.reads i (.task id event) (i, id) = (net.links (i, id)).map (·.read event) := by
  cases event with
  | sender event =>
      cases event with
      | received byte => exact Function.update_self _ _ _
      | _ => exact (Option.map_id_apply).symm
  | _ => exact (Option.map_id_apply).symm

theorem reads_other {action : Action} (other : k = i → ∀ event, action ≠ .task id event) :
    net.reads k action (i, id) = net.links (i, id) := by
  unfold reads
  split
  · rename_i actor byte
    refine Function.update_of_ne ?_ _ _
    rintro ⟨⟩
    exact other rfl _ rfl
  · rfl

theorem reads_cases (action : Action) (key : ι × Nat) :
    net.reads k action key = net.links key ∨ ∃ link, net.links key = some link ∧
      net.reads k action key = some { link with consumed := link.consumed + 1 } := by
  unfold reads
  split
  · rename_i actor byte
    by_cases here : key = (k, actor)
    · rw [here, Function.update_self]
      cases net.links (k, actor) with
      | none => exact .inl rfl
      | some link => exact .inr ⟨link, rfl, rfl⟩
    · exact .inl (Function.update_of_ne here _ _)
  · exact .inl rfl

theorem reads_eq_none {action : Action} :
    net.reads k action (i, id) = none ↔ net.links (i, id) = none := by
  have read : net.reads k action (i, id) = net.links (i, id) ∨ _ := reads_cases action (i, id)
  rcases read with kept | ⟨link, known, read⟩
  · rw [kept]
  · rw [known, read]
    exact iff_of_false (Option.some_ne_none _) (Option.some_ne_none _)

theorem reads_back {action : Action} {key : ι × Nat} (known : net.reads k action key = some link) :
    ∃ before, net.links key = some before ∧ before.Same link := by
  rcases reads_cases action key with kept | ⟨before, found, read⟩
  · exact ⟨link, kept.symm.trans known, rfl, rfl, rfl⟩
  · obtain rfl := Option.some.inj (read.symm.trans known)
    exact ⟨before, found, rfl, rfl, rfl⟩

theorem link_origin (stepped : net.step world action = some after)
    (known : after.links key = some link) :
    (∃ before, net.links key = some before ∧ before.Same link) ∨ ∃ answers budget,
      action = .dial key.1 key.2 link.device link.handler link.offer answers budget ∧
      stepAt (fun i => Node.step (world.env i)) net.nodes link.device (.connect link.handler
        (world.ident key.1) (world.write link.offer budget).2.written) = some after.nodes := by
  cases step_move stepped with
  | own k action nodes => exact .inl (reads_back known)
  | dialed i id j handler offer answers budget task nodes free found preparing addressed prepared
      moved =>
      rcases update_eq_some.mp known with ⟨rfl, rfl⟩ | ⟨_, known⟩
      · exact .inr ⟨answers, budget, rfl, moved⟩
      · exact .inl ⟨link, known, rfl, rfl, rfl⟩
  | arrived i id before found =>
      rcases update_eq_some.mp known with ⟨rfl, rfl⟩ | ⟨_, known⟩
      · exact .inl ⟨before, found, rfl, rfl, rfl⟩
      · exact .inl ⟨link, known, rfl, rfl, rfl⟩

theorem handler_side (linked : Linked world net.nodes i id link past task transfer)
    (moved : stepAt (fun i => Node.step (world.env i)) net.nodes k action = some nodes) :
    (∃ event next, action = .handler link.handler event ∧
      transfer.connection.step world.parse event = some next ∧
      (nodes link.device).router.handlers link.handler = some next ∧
      ownEvents link.handler (nodes link.device).log =
        event :: ownEvents link.handler (net.nodes link.device).log) ∨
    SameHandler net.nodes nodes link := by
  rcases stepAt_cases moved link.device with same | ⟨_, stepped⟩
  · exact .inr ⟨by simp only [same], by simp only [same]⟩
  · cases Node.step_handler stepped linked.handler with
    | moved event next own stepped known events =>
        exact .inl ⟨event, next, own, stepped, known, events⟩
    | kept known events => exact .inr ⟨known.trans linked.handler.symm, events⟩

theorem task_side (found : (net.nodes i).tasks[id]? = some task)
    (moved : stepAt (fun i => Node.step (world.env i)) net.nodes k action = some nodes) :
    (∃ event state, k = i ∧ action = .task id event ∧ task.state.step event = some state ∧
      (nodes i).tasks[id]? = some { task with state } ∧
      taskEvents id (nodes i).log = event :: taskEvents id (net.nodes i).log) ∨
    SameTask net.nodes nodes i id ∧ (k = i → ∀ event, action ≠ .task id event) := by
  by_cases here : k = i
  · subst here
    have stepped : (net.nodes k).step (world.env k) action = some (nodes k) := stepAt_self moved
    cases Node.step_task stepped id with
    | moved event other state own known stepped known' events =>
        obtain rfl := Option.some.inj (found.symm.trans known)
        exact .inl ⟨event, state, rfl, own, stepped, known', events⟩
    | kept other events same => exact .inr ⟨⟨same, events⟩, fun _ => other⟩
    | spawned task other events fresh => cases found.symm.trans fresh
  · have same := stepAt_other moved (Ne.symm here)
    exact .inr ⟨⟨by simp only [same], by simp only [same]⟩, fun same => absurd same here⟩

/-- A step of one device keeps a link of any device a transfer. -/
theorem linked_own (linked : Linked world net.nodes i id link past task transfer)
    (known : net.links (i, id) = some link) (admitted : net.admits world k action = true)
    (moved : stepAt (fun i => Node.step (world.env i)) net.nodes k action = some nodes) :
    ∃ link', net.reads k action (i, id) = some link' ∧ ∃ past task transfer,
      Linked world nodes i id link' past task transfer := by
  rcases task_side linked.found moved with
    ⟨event, state, rfl, rfl, stepped, found, events⟩ | ⟨taskSame, other⟩
  · refine ⟨link.read event, by rw [reads_task, known, Option.map_some], ?_⟩
    rcases handler_side linked moved with
      ⟨_, _, own, _⟩ | handlerSame
    · cases own
    · have available (byte : UInt8) (reads : event = .sender (.received byte)) :
          link.consumed < link.arrived ∧
            transfer.connection.written[link.consumed]? = some byte := by
        subst reads
        rw [← written_eq linked]
        simpa [admits, known] using admitted
      have ready (prepares : event = .prepared) : link.Written world := by
        subst prepares
        simpa [Link.Written, admits, known] using admitted
      obtain ⟨past, transfer, goesOn⟩ :=
        linked.work handlerSame stepped found events ready available
      exact ⟨past, _, transfer, goesOn⟩
  · refine ⟨link, by rw [reads_other other, known], ?_⟩
    rcases handler_side linked moved with
      ⟨event, next, rfl, stepped, known, events⟩ | handlerSame
    · exact ⟨_, _, _, linked.handle taskSame stepped known events⟩
    · exact ⟨_, _, _, linked.frame taskSame handlerSame⟩

theorem unlinked_own (unlinked : Unlinked (net.nodes i) id) (free : net.links (i, id) = none)
    (admitted : net.admits world k action = true)
    (moved : stepAt (fun i => Node.step (world.env i)) net.nodes k action = some nodes) :
    Unlinked (nodes i) id := by
  rcases stepAt_cases moved i with same | ⟨rfl, stepped⟩
  · rw [same]
    exact unlinked
  · refine unlinked.next stepped ?_
    rintro rfl
    simp [admits, free] at admitted

/-- Dialing starts a transfer. -/
theorem linked_dialed (run : Run (Steps (Network.step world)) (.new files) actions net)
    (unlinked : Unlinked (net.nodes i) id) (found : (net.nodes i).tasks[id]? = some task)
    (preparing : task.state = .preparing) (addressed : task.endpointAddr.id = world.ident j)
    (prepared : prepareOffer (world.ident i) task.filename answers = .ok offer)
    (moved : stepAt (fun i => Node.step (world.env i)) net.nodes j
      (.connect handler (world.ident i) (world.write offer budget).2.written) = some nodes) :
    Linked world nodes i id ⟨j, handler, offer, budget, 0, 0⟩ [] task
      (.new (world.ident i) (world.write offer budget).2.written) := by
  have stepped : (net.nodes j).step (world.env j)
      (.connect handler (world.ident i) (world.write offer budget).2.written) = some (nodes j) :=
    stepAt_self moved
  have inv := Node.receiving_inv (node_run run j)
  have connected : (nodes j).router.handlers handler =
      some (.new (world.ident i) (world.write offer budget).2.written) ∧
      ownEvents handler (nodes j).log = [] := by
    generalize nodes j = after at stepped
    cases Node.step_move stepped with
    | connected _ _ _ free => exact ⟨Function.update_self _ _ _, inv.absent handler free⟩
  have same : SameTask net.nodes nodes i id := by
    rcases task_side found moved with ⟨_, _, _, own, _⟩ | ⟨same, _⟩
    · cases own
    · exact same
  refine ⟨.start, connected.1, connected.2.symm, rfl, rfl, same.found.trans found, addressed,
    ⟨answers, prepared⟩, ?_, .inl rfl, ?_, ?_⟩
  · rw [preparing]
    rfl
  · rw [same.events]
    exact fun result inside => .inr (unlinked.reports result inside)
  · rw [same.events]
    exact fun bytes inside => absurd inside (unlinked.silent bytes)

theorem links_stay (known : net.links key = some link)
    (run : Run (Steps (Network.step world)) net actions after) :
    ∃ link', after.links key = some link' ∧ link.Same link' := by
  apply run.invariant (P := fun after => ∃ link', after.links key = some link' ∧ link.Same link')
  · exact ⟨link, known, rfl, rfl, rfl⟩
  · rintro before action after ⟨link', known, same⟩ stepped
    cases step_move stepped with
    | own k action nodes =>
      rcases reads_cases action key with kept | ⟨link'', known', read⟩
      · exact ⟨link', kept.trans known, same⟩
      · obtain rfl := Option.some.inj (known.symm.trans known')
        exact ⟨_, read, same.device, same.handler, same.offer⟩
    | dialed i id j handler offer answers budget task nodes free =>
      have other : key ≠ (i, id) := by
        rintro rfl
        cases known.symm.trans free
      exact ⟨link', (Function.update_of_ne other _ _).trans known, same⟩
    | arrived i id link'' known' =>
      by_cases here : key = (i, id)
      · subst here
        obtain rfl := Option.some.inj (known.symm.trans known')
        exact ⟨_, Function.update_self _ _ _, same.device, same.handler, same.offer⟩
      · exact ⟨link', (Function.update_of_ne here _ _).trans known, same⟩

theorem inv_next (run : Run (Steps (Network.step world)) (.new files) actions net)
    (inv : net.Inv world) (stepped : net.step world action = some after) : after.Inv world := by
  cases step_move stepped with
  | own k action nodes admitted moved =>
      constructor
      · intro i id link' known'
        cases known : net.links (i, id) with
        | none => cases known'.symm.trans (reads_eq_none.mpr known)
        | some link =>
            obtain ⟨past, task, transfer, linked⟩ := inv.linked i id link known
            obtain ⟨_, reads, goesOn⟩ := linked_own linked known admitted moved
            obtain rfl := Option.some.inj (reads.symm.trans known')
            exact goesOn
      · intro i id free'
        have free := reads_eq_none.mp free'
        exact unlinked_own (inv.unlinked i id free) free admitted moved
  | dialed i id j handler offer answers budget task nodes free found preparing addressed prepared
      moved =>
      constructor
      · intro i' id' link known
        rcases update_eq_some.mp known with ⟨same, rfl⟩ | ⟨_, known⟩
        · cases same
          exact ⟨_, _, _, linked_dialed run (inv.unlinked i id free) found preparing addressed
            prepared moved⟩
        · obtain ⟨past, task, transfer, linked⟩ := inv.linked i' id' link known
          obtain ⟨_, reads, goesOn⟩ := linked_own linked known rfl moved
          obtain rfl := Option.some.inj (known.symm.trans reads)
          exact goesOn
      · intro i' id' free'
        have free := update_eq_none free'
        exact unlinked_own (inv.unlinked i' id' free) free rfl moved
  | arrived i id link known more =>
      constructor
      · intro i' id' link' known'
        rcases update_eq_some.mp known' with ⟨same, rfl⟩ | ⟨_, known'⟩
        · cases same
          obtain ⟨past, task, transfer, linked⟩ := inv.linked i id link known
          exact ⟨_, _, _, linked.arrive (written_eq linked ▸ more)⟩
        · exact inv.linked i' id' link' known'
      · intro i' id' free
        exact inv.unlinked i' id' (update_eq_none free)

theorem inv (run : Run (Steps (Network.step world)) (.new files) actions net) : net.Inv world := by
  apply run.history (P := fun _ net => net.Inv world)
  · constructor
    · intro i id link known
      cases known
    · intro i id _
      constructor
      · intro task found
        cases found
      · intro result inside
        cases inside
      · intro bytes inside
        cases inside
  · intro actions net action after run inv stepped
    exact inv_next run inv stepped

end Network

end IrohShare
