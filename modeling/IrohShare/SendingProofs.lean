import IrohShare.Sending
import IrohShare.Approval

/-! At most one send is outstanding. The task started last runs, or its result waits,
exactly while the window shows a send; all others have been consumed in order. -/
namespace IrohShare
open Wire Unix Channel Transition

variable {id : Nat} {log : List Entry} {task : Task} {state : TaskState} {event : TaskEvent}

def Entry.consumedId : Entry → Option Nat
  | .consumed id _ => some id
  | _ => none

/-- The tasks whose results have been consumed, latest first. -/
def consumedIds (log : List Entry) : List Nat := log.filterMap Entry.consumedId

@[simp] theorem consumedIds_consumed :
    consumedIds (.consumed id result :: log) = id :: consumedIds log := rfl

@[simp] theorem consumedIds_task : consumedIds (.task id event :: log) = consumedIds log := rfl

theorem consumedIds_unsent {entry : Entry} (unsent : entry.unsent = true) :
    consumedIds (entry :: log) = consumedIds log := by
  cases entry with
  | task | consumed => cases unsent
  | _ => rfl

namespace Sending

/-- One send is outstanding while the window shows it, none otherwise. -/
def outstanding (side : Sending) : Nat := if side.status = some .sending then 1 else 0

structure Inv (side : Sending) : Prop where
  busy : side.outstanding ≤ side.tasks.length
  consumed : consumedIds side.log = (List.range (side.tasks.length - side.outstanding)).reverse
  done : ∀ id task, side.tasks[id]? = some task → id + side.outstanding < side.tasks.length →
    task.state = .reported
  queue : side.results = [] ∨ ∃ id result task, side.results = [(id, result)] ∧
    side.status = some .sending ∧ id + 1 = side.tasks.length ∧ side.tasks[id]? = some task ∧
    task.state = .reported ∧ .task id (.reports result) ∈ side.log
  backed : ∀ id result, .consumed id result ∈ side.log → .task id (.reports result) ∈ side.log
  kept : side.isOpen = true → ∀ id result, .task id (.reports result) ∈ side.log →
    (id, result) ∈ side.results ∨ .consumed id result ∈ side.log
  progress : side.status = some .sending → side.progress.value = 0 ∨ ∃ id,
    id + 1 = side.tasks.length ∧ .task id (.sender (.published side.progress.value true)) ∈ side.log
  names : side.status = some .sending → ∃ id task, id + 1 = side.tasks.length ∧
    side.tasks[id]? = some task ∧ Names side.pickedPath side.droppedFiles task.filename
  outcome : ∀ status, side.status = some status → status = .sending ∨ ∃ id result,
    id + 1 = side.tasks.length ∧ .consumed id result ∈ side.log ∧ status = .ofResult result

variable {side after : Sending}

theorem outstanding_sending (busy : side.status = some .sending) : side.outstanding = 1 := by
  simp [outstanding, busy]

theorem outstanding_free (free : side.status ≠ some .sending) : side.outstanding = 0 := by
  simp [outstanding, free]

/-- A task that takes a step is the one started last, it is shown as being sent, and
no result waits. -/
theorem Inv.running (inv : side.Inv) (found : side.tasks[id]? = some task)
    (moved : task.state.step event = some state) :
    side.status = some .sending ∧ id + 1 = side.tasks.length ∧ side.results = [] := by
  have unreported : task.state ≠ .reported := by
    intro same
    rw [same] at moved
    cases moved
  obtain ⟨inRange, _⟩ := List.getElem?_eq_some_iff.mp found
  have last : ¬ id + side.outstanding < side.tasks.length := fun earlier =>
    unreported (inv.done id task found earlier)
  have busy : side.status = some .sending := by
    by_contra free
    rw [outstanding_free free] at last
    omega
  rw [outstanding_sending busy] at last
  have latest : id + 1 = side.tasks.length := by omega
  refine ⟨busy, latest, ?_⟩
  rcases inv.queue with empty | ⟨other, result, task', _, _, last', found', reported, _⟩
  · exact empty
  · have same : other = id := by omega
    subst same
    obtain rfl := Option.some.inj (found.symm.trans found')
    exact absurd reported unreported

/-- What a step of the running task keeps, whatever it does to the channels. -/
theorem Inv.work (inv : side.Inv) (found : side.tasks[id]? = some task)
    (moved : task.state.step event = some state) (progress : Watch UInt64)
    (results : List (Nat × Except Error SendOutcome))
    (shows : progress = side.progress ∨
      event = .sender (.published progress.value true))
    (queue : results = [] ∧ (side.isOpen = true → ∀ result, event ≠ .reports result) ∨
      ∃ result, results = [(id, result)] ∧ event = .reports result ∧ state = .reported) :
    ({ side.work id task event state with progress, results } : Sending).Inv := by
  obtain ⟨busy, latest, empty⟩ := inv.running found moved
  have inRange : id < side.tasks.length := by omega
  have length : (side.tasks.set id { task with state }).length = side.tasks.length :=
    List.length_set
  have before : side.outstanding = 1 := outstanding_sending busy
  have still : ({ side.work id task event state with progress, results } : Sending).outstanding = 1 :=
    outstanding_sending busy
  constructor
  case busy =>
    rw [still]
    simp only [Sending.work, length]
    omega
  case consumed =>
    have consumed := inv.consumed
    rw [before] at consumed
    rw [still]
    simpa only [Sending.work, length, consumedIds_task] using consumed
  case done =>
    intro other task' found' earlier
    rw [still] at earlier
    simp only [Sending.work, length] at found' earlier
    have distinct : id ≠ other := by omega
    rw [List.getElem?_set_ne distinct] at found'
    exact inv.done other task' found' (by omega)
  case queue =>
    rcases queue with ⟨rfl, _⟩ | ⟨result, rfl, rfl, rfl⟩
    · exact .inl rfl
    · refine .inr ⟨id, result, { task with state := .reported }, rfl, busy, ?_, ?_, rfl, .head _⟩
      · simpa only [Sending.work, length] using latest
      · simp [Sending.work, inRange]
  case backed =>
    intro other result inside
    have old : .consumed other result ∈ side.log := by simpa [Sending.work] using inside
    exact .tail _ (inv.backed other result old)
  case kept =>
    intro isOpen other result inside
    rcases List.mem_cons.mp inside with same | old
    · obtain ⟨rfl, rfl⟩ := Entry.task.inj same
      rcases queue with ⟨_, silent⟩ | ⟨value, rfl, same, _⟩
      · exact absurd rfl (silent isOpen result)
      · cases same
        exact .inl (.head _)
    · rcases inv.kept isOpen other result old with waits | consumed
      · rw [empty] at waits
        cases waits
      · exact .inr (.tail _ consumed)
  case progress =>
    intro _
    rcases shows with rfl | rfl
    · rcases inv.progress busy with zero | ⟨last, here, inside⟩
      · exact .inl zero
      · refine .inr ⟨last, ?_, .tail _ inside⟩
        simpa only [Sending.work, length] using here
    · refine .inr ⟨id, ?_, .head _⟩
      simpa only [Sending.work, length] using latest
  case names =>
    intro _
    obtain ⟨last, task', here, found', names⟩ := inv.names busy
    have same : last = id := by omega
    subst same
    obtain rfl := Option.some.inj (found.symm.trans found')
    refine ⟨last, { task with state }, ?_, ?_, names⟩
    · simpa only [Sending.work, length] using latest
    · simp [Sending.work, inRange]
  case outcome =>
    intro status shown
    exact .inl (Option.some.inj (shown.symm.trans busy))

theorem reported_of_step {before : TaskState} (moved : before.step (.reports result) = some state) :
    state = .reported := by
  cases before with
  | preparing | reported => cases moved
  | talking sender =>
      cases sender with
      | returned value =>
          simp only [TaskState.step] at moved
          split at moved <;> cases moved
          rfl
      | _ => cases moved

theorem Inv.consume {results : List (Nat × Except Error SendOutcome)} (inv : side.Inv) (queued : side.results = (id, result) :: results) :
    ({ side with
      status := some (.ofResult result), results, log := .consumed id result :: side.log } :
        Sending).Inv := by
  rcases inv.queue with empty | ⟨last, value, task, single, busy, latest, found, reported, inside⟩
  · cases queued.symm.trans empty
  · obtain ⟨same, rfl⟩ := List.cons.inj (queued.symm.trans single)
    obtain ⟨rfl, rfl⟩ := Prod.mk.inj same
    have free : some (SendStatus.ofResult result) ≠ some .sending := by
      cases result with
      | ok outcome => cases outcome <;> simp [SendStatus.ofResult]
      | error => simp [SendStatus.ofResult]
    have before : side.outstanding = 1 := outstanding_sending busy
    have after : ({ side with
        status := some (.ofResult result), results := [], log := .consumed id result :: side.log } :
          Sending).outstanding = 0 := outstanding_free free
    constructor
    case busy =>
      rw [after]
      exact Nat.zero_le _
    case consumed =>
      rw [after, consumedIds_consumed, inv.consumed, before, ← latest]
      simp [List.range_succ]
    case done =>
      intro other task' found' inRange
      by_cases here : other = id
      · subst here
        obtain rfl := Option.some.inj (found.symm.trans found')
        exact reported
      · rw [after] at inRange
        simp only at inRange
        exact inv.done other task' found' (by omega)
    case queue => exact .inl rfl
    case backed =>
      intro other value consumed
      rcases List.mem_cons.mp consumed with same | old
      · cases same
        exact .tail _ inside
      · exact .tail _ (inv.backed other value old)
    case kept =>
      intro isOpen other value returned
      rcases List.mem_cons.mp returned with same | old
      · cases same
      · rcases inv.kept isOpen other value old with waits | consumed
        · rw [single, List.mem_singleton] at waits
          cases waits
          exact .inr (.head _)
        · exact .inr (.tail _ consumed)
    case progress => exact fun busy => absurd busy free
    case names => exact fun busy => absurd busy free
    case outcome =>
      intro status shown
      exact .inr ⟨id, result, latest, .head _, (Option.some.inj shown).symm⟩

theorem Inv.start {pickedPath : Option String} {droppedFiles : List PathBuf} (inv : side.Inv)
    (free : side.status ≠ some .sending)
    (names : Names pickedPath droppedFiles filename) :
    ({ side with
      pickedPath, droppedFiles
      status := some .sending
      progress := side.progress.send 0
      tasks := side.tasks ++ [⟨filename, endpointAddr, .preparing⟩] } : Sending).Inv := by
  have before : side.outstanding = 0 := outstanding_free free
  have after : ({ side with
      pickedPath, droppedFiles
      status := some .sending
      progress := side.progress.send 0
      tasks := side.tasks ++ [⟨filename, endpointAddr, .preparing⟩] } : Sending).outstanding = 1 :=
    outstanding_sending rfl
  have empty : side.results = [] := by
    rcases inv.queue with empty | ⟨_, _, _, _, busy, _⟩
    · exact empty
    · exact absurd busy free
  constructor
  case busy =>
    rw [after]
    simp
  case consumed =>
    rw [after]
    simpa [before] using inv.consumed
  case done =>
    intro id task found earlier
    rw [after] at earlier
    simp only [List.length_append, List.length_singleton] at earlier
    rw [List.getElem?_append_left (by omega)] at found
    exact inv.done id task found (by omega)
  case queue => exact .inl empty
  case backed => exact inv.backed
  case kept => exact inv.kept
  case progress => exact fun _ => .inl rfl
  case names =>
    intro _
    exact ⟨side.tasks.length, ⟨filename, endpointAddr, .preparing⟩, by simp, by simp, names⟩
  case outcome => exact fun status shown => .inl (Option.some.inj shown).symm

theorem Inv.next (inv : side.Inv) (move : Move side after) : after.Inv := by
  cases move with
  | idle => exact inv
  | noted entry unsent =>
      have task {id : Nat} {event : TaskEvent} :
          .task id event ∈ entry :: side.log ↔ .task id event ∈ side.log := by
        cases entry with
        | task | consumed => cases unsent
        | _ => simp
      have consumed {id : Nat} {result : Except Error SendOutcome} :
          .consumed id result ∈ entry :: side.log ↔ .consumed id result ∈ side.log := by
        cases entry with
        | task | consumed => cases unsent
        | _ => simp
      constructor
      case busy => exact inv.busy
      case consumed =>
        rw [consumedIds_unsent unsent]
        exact inv.consumed
      case done => exact inv.done
      case queue => simpa only [task] using inv.queue
      case backed => simpa only [task, consumed] using inv.backed
      case kept => simpa only [task, consumed] using inv.kept
      case progress => simpa only [task] using inv.progress
      case names => exact inv.names
      case outcome => simpa only [consumed] using inv.outcome
  | consumed id result results queued => exact inv.consume queued
  | cleared progress free =>
      have before : side.outstanding = 0 := outstanding_free free
      have after : ({ side with
          droppedFiles := [], pickedPath := none, status := none, progress } : Sending).outstanding =
            0 := outstanding_free (by simp)
      constructor
      case busy =>
        rw [after]
        exact Nat.zero_le _
      case consumed =>
        rw [after, ← before]
        exact inv.consumed
      case done =>
        rw [after, ← before]
        exact inv.done
      case queue =>
        rcases inv.queue with empty | ⟨_, _, _, _, busy, _⟩
        · exact .inl empty
        · exact absurd busy free
      case backed => exact inv.backed
      case kept => exact inv.kept
      case progress =>
        intro busy
        cases busy
      case names =>
        intro busy
        cases busy
      case outcome =>
        intro status shown
        cases shown
  | started filename endpointAddr pickedPath droppedFiles free names => exact inv.start free names
  | worked id task event state found moved running =>
      obtain ⟨_, _, empty⟩ := inv.running found moved
      exact inv.work found moved side.progress side.results (.inl rfl)
        (.inl ⟨empty, fun _ => running⟩)
  | posted id task bytes state found moved =>
      obtain ⟨_, _, empty⟩ := inv.running found moved
      exact inv.work found moved (side.progress.send bytes) side.results (.inr rfl)
        (.inl ⟨empty, fun _ _ same => by cases same⟩)
  | reported id task result state found moved =>
      obtain ⟨_, _, empty⟩ := inv.running found moved
      refine inv.work found moved side.progress _ (.inl rfl) ?_
      by_cases isOpen : side.isOpen = true
      · rw [if_pos isOpen, empty]
        exact .inr ⟨result, rfl, rfl, reported_of_step moved⟩
      · rw [if_neg isOpen]
        exact .inl ⟨empty, fun here => absurd here isOpen⟩
  | closed =>
      exact ⟨inv.busy, inv.consumed, inv.done, inv.queue, inv.backed,
        (fun isOpen => by cases isOpen), inv.progress, inv.names, inv.outcome⟩

end Sending
variable {env : Env} {files : List PathBuf} {past : List Action} {node : Node}

theorem Node.sending_inv (run : Run (Steps (Node.step env)) (.new files) past node) :
    node.sending.Inv := by
  apply run.invariant (P := fun node => node.sending.Inv)
  · constructor
    case busy => exact Nat.le_refl 0
    case consumed => exact rfl
    case done =>
      intro id task found
      cases found
    case queue => exact .inl rfl
    case backed =>
      intro id result inside
      cases inside
    case kept =>
      intro _ id result inside
      cases inside
    case progress =>
      intro busy
      cases busy
    case names =>
      intro busy
      cases busy
    case outcome =>
      intro status shown
      cases shown
  · intro before action after inv stepped
    exact inv.next (Node.step_sending stepped)

/-- The number of spawned send tasks whose result has not been consumed. -/
def Node.unconsumed (node : Node) : Nat :=
  ((List.range node.tasks.length).filter fun id => id ∉ consumedIds node.log).length

theorem length_filter_range (bound : k ≤ n) :
    ((List.range n).filter fun id => id ∉ (List.range k).reverse).length = n - k := by
  obtain ⟨rest, rfl⟩ := Nat.exists_eq_add_of_le bound
  rw [List.range_add, List.filter_append, List.length_append]
  have early : (List.range k).filter (fun id => id ∉ (List.range k).reverse) = [] := by
    simp [List.filter_eq_nil_iff]
  have late : ((List.range rest).map (k + ·)).filter (fun id => id ∉ (List.range k).reverse) =
      (List.range rest).map (k + ·) := by
    simp [List.filter_eq_self]
  rw [early, late]
  simp

/-- At most one send is outstanding, and everything shown belongs to it. -/
structure Node.OneSend (node : Node) : Prop where
  outstanding : node.unconsumed = if node.app.sendStatus = some .sending then 1 else 0
  latest : ∀ id result, (id, result) ∈ node.sendResults →
    id + 1 = node.tasks.length ∧ .task id (.reports result) ∈ node.log
  consumed : ∀ id result, .consumed id result ∈ node.log → .task id (.reports result) ∈ node.log
  once : (consumedIds node.log).Nodup
  kept : node.isOpen = true → ∀ id result, .task id (.reports result) ∈ node.log →
    (id, result) ∈ node.sendResults ∨ .consumed id result ∈ node.log
  progress : node.app.sendStatus = some .sending → node.sendProgress.value = 0 ∨ ∃ id,
    id + 1 = node.tasks.length ∧
      .task id (.sender (.published node.sendProgress.value true)) ∈ node.log
  names : node.app.sendStatus = some .sending → ∃ id task, id + 1 = node.tasks.length ∧
    node.tasks[id]? = some task ∧ Names node.app.pickedPath node.app.droppedFiles task.filename
  outcome : ∀ status, node.app.sendStatus = some status → status = .sending ∨ ∃ id result,
    id + 1 = node.tasks.length ∧ .consumed id result ∈ node.log ∧ status = .ofResult result

theorem one_send_outstanding (run : Run (Steps (Node.step env)) (.new files) past node) :
    node.OneSend := by
  have inv := Node.sending_inv run
  have consumed : consumedIds node.log =
      (List.range (node.tasks.length - node.sending.outstanding)).reverse := inv.consumed
  constructor
  case outstanding =>
    have busy : node.sending.outstanding ≤ node.tasks.length := inv.busy
    calc node.unconsumed
        = node.tasks.length - (node.tasks.length - node.sending.outstanding) := by
          rw [Node.unconsumed, consumed]
          exact length_filter_range (Nat.sub_le _ _)
      _ = node.sending.outstanding := Nat.sub_sub_self busy
  case latest =>
    intro id result inside
    rcases inv.queue with empty | ⟨last, value, task, single, _, latest, _, _, returned⟩
    · have empty : node.sendResults = [] := empty
      rw [empty] at inside
      cases inside
    · have single : node.sendResults = [(last, value)] := single
      rw [single, List.mem_singleton] at inside
      cases inside
      exact ⟨latest, returned⟩
  case consumed => exact inv.backed
  case once =>
    rw [consumed, List.nodup_reverse]
    exact List.nodup_range
  case kept => exact inv.kept
  case progress => exact inv.progress
  case names => exact inv.names
  case outcome => exact inv.outcome

/-- A file is dropped on a discovered device, and the receiver reports three bytes. -/
def sampleSend : List Action :=
  [.discovery (.discovered ⟨sampleTicket.addr.id, [], some "laptop"⟩)
    [("laptop", ⟨sampleTicket.addr.id, []⟩)]] ++ List.replicate 7 (.ui {}) ++
  [.ui { clicked := [true] }, .ui { dropped := [sampleTarget], length := some 12 },
    .task 0 .prepared] ++
  ([1, 2, 0, 0, 0, 0, 0, 0, 0, 3].map fun byte => .task 0 (.sender (.received byte))) ++
  [.task 0 (.sender (.published 3 true))]

theorem one_send_outstanding_sample : ∃ node : Node,
    node.app.sendStatus = some .sending ∧ node.sendProgress.value = 3 ∧ node.OneSend := by
  obtain ⟨node, run, busy, value⟩ : ∃ node : Node,
      Run (Steps (Node.step sampleEnv)) (.new []) sampleSend.reverse node ∧
      node.app.sendStatus = some .sending ∧ node.sendProgress.value = 3 := by
    apply execute_reaches
    decide +kernel
  exact ⟨node, busy, value, one_send_outstanding run⟩

end IrohShare
