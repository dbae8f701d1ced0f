import IrohShare.NodeMoves

/-! The sending side of the program and the moves it makes, and that at most one send
is outstanding: its result, its progress and its file name are all that is shown. -/
namespace IrohShare
open Wire Unix Channel Transition

structure Sending where
  isOpen : Bool
  droppedFiles : List PathBuf
  pickedPath : Option String
  status : Option SendStatus
  tasks : List Task
  progress : Watch UInt64
  results : List (Nat × Except Error SendOutcome)
  log : List Entry

def Node.sending (node : Node) : Sending where
  isOpen := node.isOpen
  droppedFiles := node.app.droppedFiles
  pickedPath := node.app.pickedPath
  status := node.app.sendStatus
  tasks := node.tasks
  progress := node.sendProgress
  results := node.sendResults
  log := node.log

/-- Entries that do not concern sending. -/
def Entry.unsent : Entry → Bool
  | .task .. | .consumed .. => false
  | _ => true

namespace Sending

def work (side : Sending) (id : Nat) (task : Task) (event : TaskEvent) (state : TaskState) :
    Sending :=
  { side with
    tasks := side.tasks.set id { task with state }
    log := .task id event :: side.log }

/-- The moves of the sending side. -/
inductive Move : Sending → Sending → Prop where
  | idle (side : Sending) : Move side side
  | noted (side : Sending) (entry : Entry) (unsent : entry.unsent = true) :
      Move side { side with log := entry :: side.log }
  | consumed (side : Sending) (id : Nat) (result : Except Error SendOutcome)
      (results : List (Nat × Except Error SendOutcome))
      (queued : side.results = (id, result) :: results) : Move side
        { side with
          status := some (.ofResult result), results, log := .consumed id result :: side.log }
  | cleared (side : Sending) (progress : Watch UInt64) (free : side.status ≠ some .sending) :
      Move side { side with droppedFiles := [], pickedPath := none, status := none, progress }
  | started (side : Sending) (filename : String) (endpointAddr : EndpointAddr)
      (pickedPath : Option String) (droppedFiles : List PathBuf)
      (free : side.status ≠ some .sending) (names : Names pickedPath droppedFiles filename) :
      Move side
        { side with
          pickedPath, droppedFiles
          status := some .sending
          progress := side.progress.send 0
          tasks := side.tasks ++ [⟨filename, endpointAddr, .preparing⟩] }
  | worked (side : Sending) (id : Nat) (task : Task) (event : TaskEvent) (state : TaskState)
      (found : side.tasks[id]? = some task) (moved : task.state.step event = some state)
      (running : ∀ result, event ≠ .reports result) : Move side (side.work id task event state)
  | posted (side : Sending) (id : Nat) (task : Task) (bytes : UInt64) (state : TaskState)
      (found : side.tasks[id]? = some task)
      (moved : task.state.step (.sender (.published bytes true)) = some state) : Move side
        { side.work id task (.sender (.published bytes true)) state with
          progress := side.progress.send bytes }
  | reported (side : Sending) (id : Nat) (task : Task) (result : Except Error SendOutcome)
      (state : TaskState) (found : side.tasks[id]? = some task)
      (moved : task.state.step (.reports result) = some state) : Move side
        { side.work id task (.reports result) state with
          results := if side.isOpen then side.results ++ [(id, result)] else side.results }
  | closed (side : Sending) : Move side { side with isOpen := false }

end Sending

/-- The functions of a frame that concern sending. -/
theorem Node.Frame.sending (frame : Frame decodeString input node after) :
    Sending.Move node.sending after.sending := by
  cases frame with
  | consumed id result results queued =>
      exact .consumed node.sending id result results queued
  | wentBack selected free => exact .cleared node.sending node.sendProgress free
  | reset selected free => exact .cleared node.sending (node.sendProgress.send 0) free
  | started path name endpointAddr sendTotal pickedPath droppedFiles selected free names =>
      exact .started node.sending path.toStringLossy endpointAddr pickedPath droppedFiles free names
  | asked | declined | accepted => exact .noted _ _ rfl
  | _ => exact .idle _

theorem Node.step_sending {env : Env} {node after : Node} (stepped : node.step env action = some after) :
    Sending.Move node.sending after.sending := by
  cases step_move stepped with
  | framed input after isOpen frame => exact frame.sending
  | worked id task event state found moved running =>
      exact .worked node.sending id task event state found moved running
  | published id task bytes state found moved =>
      exact .posted node.sending id task bytes state found moved
  | reported id task result state found moved =>
      exact .reported node.sending id task result state found moved
  | connected | ended | waited => exact .idle _
  | handled | offered | posted | ignored | announced => exact .noted _ _ rfl
  | closed => exact .closed _

end IrohShare
