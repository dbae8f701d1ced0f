import IrohShare.Approval

/-! What the user approves and what is written: the prompt shows the name and the size
as the sender gave them, the download takes the last component of that name and the
blob behind the ticket's hash. -/
namespace IrohShare
open Wire Unix Channel Transition

/-- The file an event writes: an export puts the blob of the hash at its target. -/
def Event.writes (blob : Hash → Bytes) : Event → Option (PathBuf × Bytes)
  | .exported hash target .saved => some (target, blob hash)
  | _ => none

def written (blob : Hash → Bytes) (log : List Event) : List (PathBuf × Bytes) :=
  log.filterMap (Event.writes blob)

theorem mem_written : file ∈ written blob log ↔
    ∃ hash target, .exported hash target .saved ∈ log ∧ file = (target, blob hash) := by
  rw [written, List.mem_filterMap]
  constructor
  · rintro ⟨event, inside, writes⟩
    cases event with
    | exported hash target result =>
        cases result <;> cases writes
        exact ⟨hash, target, inside, rfl⟩
    | _ => cases writes
  · rintro ⟨hash, target, inside, rfl⟩
    exact ⟨_, inside, rfl⟩

/-- `download` has returned `Ok`, right after its last progress value. -/
def Returned (log : List Event) : Prop := ∃ filesize, .replaced filesize ∈ log

/-- The file is the one the prompt announced, by its name and by its size. -/
def AsShown (offer : Offer) (file : PathBuf × Bytes) : Prop :=
  file.1.fileName = some (utf8 offer.filename) ∧ file.2.length = offer.filesize.toNat

/-- One file is written: the blob of the ticket, in the chosen folder, under the last
component of the shown name. It is as shown for a plain name and an honest size. -/
def WrittenAs (blob : Hash → Bytes) (downloadDir : PathBuf) (offer : Offer) (log : List Event) :
    Prop :=
  ∃ name, PathBuf.fileName ⟨utf8 offer.filename⟩ = some name ∧ written blob log ≠ [] ∧
    ∀ file ∈ written blob log,
      file = (downloadDir.join ⟨name⟩, blob offer.ticket.hash) ∧
      file.1.fileName = some name ∧
      (AsShown offer file ↔ IsFileName (utf8 offer.filename) ∧
        (blob offer.ticket.hash).length = offer.filesize.toNat)

theorem fileName_self_iff : PathBuf.fileName ⟨name⟩ = some name ↔ IsFileName name :=
  ⟨PathBuf.isFileName_of_fileName, PathBuf.fileName_fileName⟩

theorem Handler.Facts.writtenAs (facts : Handler.Facts remote log state)
    (approved : Approved remote log offer downloadDir) (returned : Returned log) :
    WrittenAs blob downloadDir offer log := by
  obtain ⟨filesize, replaced⟩ := returned
  obtain ⟨hash, target, saved⟩ := facts.lastly filesize replaced
  obtain ⟨_, found, _⟩ := facts.serves approved saved rfl
  obtain ⟨name, named, rfl⟩ := Option.map_eq_some_iff.mp found
  have isName := PathBuf.isFileName_of_fileName named
  refine ⟨name, named, List.ne_nil_of_mem (mem_written.mpr ⟨_, _, saved, rfl⟩), ?_⟩
  intro file inside
  obtain ⟨hash, target, exported, rfl⟩ := mem_written.mp inside
  obtain ⟨_, found', rfl, rfl⟩ := facts.serves approved exported rfl
  obtain rfl := Option.some.inj (found.symm.trans found')
  have last := PathBuf.fileName_join downloadDir isName
  refine ⟨rfl, last, and_congr_left fun _ => ?_⟩
  rw [last, ← named, fileName_self_iff]

/-- Whatever the peer offers and whatever its blob holds: for every connection, and for
every run of the window, in which the user saw and accepted that very offer. -/
theorem approved_is_written (blob : Hash → Bytes) :
    (∀ {parse : String → Option BlobTicket}
      {remote incoming log connection offer downloadDir},
      Run (Steps (Connection.step parse)) (.new remote incoming) log connection →
      Approved remote log offer downloadDir → Returned log →
      WrittenAs blob downloadDir offer log) ∧
    ∀ {env : Env} {files past node id}, Run (Steps (Node.step env)) (.new files) past node →
      Returned (ownEvents id node.log) →
      ∃ offer downloadDir, ApprovedIn env files past (offer, id) downloadDir ∧
        WrittenAs blob downloadDir offer (ownEvents id node.log) := by
  constructor
  · intro parse remote incoming log connection offer downloadDir run approved returned
    obtain ⟨_, _, facts, _⟩ := connection_facts run
    exact facts.writtenAs approved returned
  · intro env files past node id run returned
    obtain ⟨filesize, replaced⟩ := returned
    have inv := Node.receiving_inv run
    obtain ⟨connection, known⟩ := inv.handler_of_event replaced
    have facts := inv.facts id connection known
    obtain ⟨offer, downloadDir, _, approved, _⟩ := facts.transfers _ replaced rfl
    exact ⟨offer, downloadDir, Node.approved_in run known approved,
      facts.writtenAs approved ⟨filesize, replaced⟩⟩

theorem approved_is_written_sample : ∃ node : Node,
    Run (Steps (Node.step sampleEnv)) (.new []) sampleApproval.reverse node ∧
    ∃ offer downloadDir,
      ApprovedIn sampleEnv [] sampleApproval.reverse (offer, 0) downloadDir ∧
      WrittenAs (fun _ => utf8 "hello") downloadDir offer (ownEvents 0 node.log) := by
  obtain ⟨node, run, own, _⟩ := sampleApproval_run
  exact ⟨node, run, (approved_is_written fun _ => utf8 "hello").2 run ⟨12, by rw [own]; decide⟩⟩

/-- The user accepts '../notes.txt/.' of 12 bytes and gets a 'notes.txt' of 5 bytes. -/
theorem written_differs : ∃ node : Node,
    Run (Steps (Node.step sampleEnv)) (.new []) sampleApproval.reverse node ∧
    Returned (ownEvents 0 node.log) ∧
    .modal (sampleOffer, 0) (some (.accept sampleDir)) ∈ node.log ∧
    (sampleTarget, utf8 "hello") ∈ written (fun _ => utf8 "hello") (ownEvents 0 node.log) ∧
    sampleTarget.fileName ≠ some (utf8 sampleOffer.filename) ∧
    (utf8 "hello").length ≠ sampleOffer.filesize.toNat := by
  obtain ⟨node, run, own, accepted⟩ := sampleApproval_run
  refine ⟨node, run, ⟨12, by rw [own]; decide⟩, accepted, ?_, by decide +kernel, by decide +kernel⟩
  rw [own]
  exact mem_written.mpr ⟨_, _, (by decide : sampleExport ∈ sampleReceive.reverse), rfl⟩

end IrohShare
