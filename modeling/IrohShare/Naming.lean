import IrohShare.Unix.Lossy
import IrohShare.Approval
import IrohShare.FileNames
import IrohShare.SendingProofs

/-! The name a transfer is shown with: whatever bytes the path of the file is made of, it
is the name that the offer of the send carries. -/
namespace IrohShare
open Wire Unix Transition

/-- The last component of the shown file is the one that `run_sender` finds in the text it
is given for the path, decoded lossily or not. -/
theorem Names.selected {node : Node}
    (names : Names node.app.pickedPath node.app.droppedFiles filename)
    (named : PathBuf.fileName ⟨utf8 filename⟩ = some (utf8 name)) :
    node.selectedFilename = name := by
  unfold Node.selectedFilename
  rcases names with ⟨picked, _⟩ | ⟨unpicked, file, dropped, rfl⟩
  · simp only [picked, Option.map_some, Option.some_or, Option.bind_some, named, Option.getD_some,
      fromUtf8Lossy_utf8]
  · have decoded : (PathBuf.fileName file).map lossy = some (utf8 name) := by
      rw [← named]
      exact (PathBuf.fileName_lossy file.bytes).symm
    obtain ⟨last, found, same⟩ := Option.map_eq_some_iff.mp decoded
    simp only [unpicked, dropped, Option.map_none, Option.none_or, List.head?_cons,
      Option.bind_some, found, Option.getD_some]
    exact utf8_injective same

namespace Sending

/-- The window names the file of the task started last. -/
def Latest (side : Sending) : Prop := ∃ id task, id + 1 = side.tasks.length ∧
  side.tasks[id]? = some task ∧ Names side.pickedPath side.droppedFiles task.filename

theorem Latest.work {side : Sending} (latest : side.Latest) (event : TaskEvent)
    (found : side.tasks[actor]? = some task) :
    (side.work actor task event state).Latest := by
  obtain ⟨id, last, here, found', names⟩ := latest
  refine ⟨id, if actor = id then { task with state } else last, ?_, ?_, ?_⟩
  · simpa only [Sending.work, List.length_set] using here
  · obtain ⟨inRange, _⟩ := List.getElem?_eq_some_iff.mp found
    by_cases same : actor = id
    · subst same
      rw [if_pos rfl]
      exact List.getElem?_set_self inRange
    · rw [if_neg same]
      exact (List.getElem?_set_ne same).trans found'
  · by_cases same : actor = id
    · subst same
      obtain rfl := Option.some.inj (found.symm.trans found')
      rw [if_pos rfl]
      exact names
    · rw [if_neg same]
      exact names

theorem latest_next {side after : Sending} (inv : side.Inv)
    (latest : side.status ≠ none → side.Latest) (move : Move side after) :
    after.status ≠ none → after.Latest := by
  cases move with
  | idle | noted => exact latest
  | consumed id result results queued =>
      rcases inv.queue with empty | ⟨_, _, _, _, busy, _⟩
      · cases queued.symm.trans empty
      · exact fun _ => latest (by simp [busy])
  | cleared => exact fun shown => absurd rfl shown
  | started filename endpointAddr pickedPath droppedFiles free names =>
      exact fun _ => ⟨side.tasks.length, ⟨filename, endpointAddr, .preparing⟩, by simp, by simp, names⟩
  | worked id task event state found => exact fun shown => (latest shown).work event found
  | posted id task bytes state found =>
      exact fun shown => (latest shown).work (.sender (.published bytes true)) found
  | reported id task result state found =>
      exact fun shown => (latest shown).work (.reports result) found
  | closed => exact latest

end Sending

theorem Node.names_latest (run : Run (Steps (Node.step env)) (.new files) past node)
    (shown : node.app.sendStatus = some status) : node.sending.Latest := by
  have latest : node.sending.status ≠ none → node.sending.Latest := by
    apply run.history (P := fun _ node => node.sending.status ≠ none → node.sending.Latest)
    · exact fun shown => absurd rfl shown
    · intro past before action after run latest stepped
      exact Sending.latest_next (sending_inv run) latest (step_sending stepped)
  exact latest fun hidden => by cases shown.symm.trans hidden

/-- Whatever status a transfer is shown with, and whatever bytes the path of its file is
made of: an offer that the task started last prepares carries the shown name. -/
theorem shown_file_is_offered (run : Run (Steps (Node.step env)) (.new files) past node)
    (shown : node.app.sendStatus = some status) : ∃ id task, id + 1 = node.tasks.length ∧
      node.tasks[id]? = some task ∧ ∀ endpointId answers offer,
        prepareOffer endpointId task.filename answers = .ok offer →
          node.selectedFilename = offer.filename := by
  obtain ⟨id, task, latest, found, names⟩ := Node.names_latest run shown
  refine ⟨id, task, latest, found, fun endpointId answers offer prepared => ?_⟩
  have names : Names node.app.pickedPath node.app.droppedFiles task.filename := names
  exact names.selected (prepared_name prepared)

def sampleInvalid : PathBuf := ⟨utf8 "/home/me/" ++ 0xFF :: utf8 ".txt"⟩

def sampleInvalidSend : List Action :=
  [.discovery (.discovered ⟨sampleTicket.addr.id, [], some "laptop"⟩)
    [("laptop", ⟨sampleTicket.addr.id, []⟩)]] ++ List.replicate 7 (.ui {}) ++
  [.ui { clicked := [true] }, .ui { dropped := [sampleInvalid] }, .task 0 (.failed .io)]

theorem shown_file_is_offered_sample : ∃ node : Node, ∃ task,
    Run (Steps (Node.step sampleEnv)) (.new []) sampleInvalidSend.reverse node ∧
    node.selectedFilename = String.ofList [Char.ofNat 0xFFFD, '.', 't', 'x', 't'] ∧
    node.tasks[0]? = some task ∧ ∀ endpointId answers offer,
      prepareOffer endpointId task.filename answers = .ok offer →
        node.selectedFilename = offer.filename := by
  obtain ⟨node, run, single, shown, name⟩ : ∃ node : Node,
      Run (Steps (Node.step sampleEnv)) (.new []) sampleInvalidSend.reverse node ∧
      node.tasks.length = 1 ∧ node.app.sendStatus = some .sending ∧
      node.selectedFilename = String.ofList [Char.ofNat 0xFFFD, '.', 't', 'x', 't'] := by
    apply execute_reaches
    decide +kernel
  obtain ⟨id, task, latest, found, offered⟩ := shown_file_is_offered run shown
  obtain rfl : id = 0 := by omega
  exact ⟨node, task, run, name, found, offered⟩

end IrohShare
