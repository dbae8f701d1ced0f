import IrohShare.ReceiverMoves
import IrohShare.ProtocolProofs
import IrohShare.Transition.Run

/-! What every run of one connection's handler keeps: a download only follows an
approval of the very offer that was read, and touches one path. Logs list the
handler's events, newest first. -/
namespace IrohShare
open Wire Unix Transition

variable {parse : String → Option BlobTicket} {remote : EndpointId} {log : List Event}

/-- The user chose this directory for this offer, which the remote end owns. -/
structure Approved (remote : EndpointId) (log : List Event) (offer : Offer)
    (downloadDir : PathBuf) : Prop where
  read : .read (.ok offer) ∈ log
  authentic : offer.ticket.addr.id = remote
  offered : .offered true ∈ log
  chosen : .decided (some (.accept downloadDir)) ∈ log

/-- Declined by the user, or the request was dropped unanswered. -/
def TurnedDown (log : List Event) : Prop :=
  .decided (some .decline) ∈ log ∨ .decided none ∈ log

def Saved (log : List Event) : Prop := ∃ hash target, .exported hash target .saved ∈ log

def Event.isTransfer : Event → Bool
  | .existed .. | .opened .. | .item _ | .published .. | .exported .. | .replaced _ => true
  | _ => false

/-- A download event that is about this offer and this target. -/
def Event.Serves (offer : Offer) (target : PathBuf) : Event → Prop
  | .existed path _ => path = target
  | .opened hash provider _ => hash = offer.ticket.hash ∧ provider = offer.ticket.addr.id
  | .exported hash path _ => hash = offer.ticket.hash ∧ path = target
  | .replaced filesize => filesize = offer.filesize
  | _ => True

theorem Approved.cons (approved : Approved remote log offer downloadDir) (event : Event) :
    Approved remote (event :: log) offer downloadDir :=
  ⟨.tail _ approved.read, approved.authentic, .tail _ approved.offered, .tail _ approved.chosen⟩

theorem saved_cons : Saved (event :: log) ↔
    (∃ hash target, event = .exported hash target .saved) ∨ Saved log := by
  simp only [Saved, List.mem_cons]
  constructor
  · rintro ⟨hash, target, rfl | old⟩
    · exact .inl ⟨hash, target, rfl⟩
    · exact .inr ⟨hash, target, old⟩
  · rintro (⟨hash, target, rfl⟩ | ⟨hash, target, old⟩)
    · exact ⟨hash, target, .inl rfl⟩
    · exact ⟨hash, target, .inr old⟩

/-- What the log says about a handler suspended at each await point. -/
def Handler.Stage (remote : EndpointId) (log : List Event) : Handler → Prop
  | .accepting | .reading => (∀ decision, .decided decision ∉ log) ∧ ∀ offer, .read (.ok offer) ∉ log
  | .offering offer => (∀ decision, .decided decision ∉ log) ∧
      .read (.ok offer) ∈ log ∧ offer.ticket.addr.id = remote
  | .deciding offer => (∀ decision, .decided decision ∉ log) ∧
      .read (.ok offer) ∈ log ∧ offer.ticket.addr.id = remote ∧ .offered true ∈ log
  | .declining => TurnedDown log
  | .accepted offer downloadDir => Approved remote log offer downloadDir ∧ ¬ Saved log
  | .downloading offer target point => (∃ downloadDir, Approved remote log offer downloadDir ∧
      targetOf downloadDir offer = some target) ∧ (Saved log ↔ point = .replacing)
  | .completing => Saved log
  | .failing _ => (∃ offer downloadDir, Approved remote log offer downloadDir) ∧ ¬ Saved log
  | .finishing _ | .closing _ | .returned _ => True

structure Handler.Facts (remote : EndpointId) (log : List Event) (state : Handler) : Prop where
  stage : state.Stage remote log
  transfers : ∀ event ∈ log, event.isTransfer = true → ∃ offer downloadDir target,
    Approved remote log offer downloadDir ∧ targetOf downloadDir offer = some target ∧
      event.Serves offer target
  oneDecision : ∀ first second, .decided first ∈ log → .decided second ∈ log → first = second
  oneOffer : ∀ first second, .read (.ok first) ∈ log → .read (.ok second) ∈ log → first = second
  lastly : ∀ filesize, .replaced filesize ∈ log → Saved log

theorem Download.Move.serves (move : Download.Move offer target point event next) :
    event.Serves offer target := by
  cases move <;> trivial

/-- Only the await points of `download` make transfer events. -/
theorem Handler.Move.of_transfer (move : Handler.Move remote state event next)
    (transfer : event.isTransfer = true) : ∃ offer target point result,
      state = .downloading offer target point ∧ Download.Move offer target point event result := by
  cases move with
  | downloading move => exact ⟨_, _, _, _, rfl, move⟩
  | _ => cases transfer

theorem Handler.Move.of_decided (move : Handler.Move remote state (.decided decision) next) :
    ∃ offer, state = .deciding offer := by
  cases move with
  | downloading move => cases move
  | _ => exact ⟨_, rfl⟩

theorem Handler.Move.of_read (move : Handler.Move remote state (.read result) next) :
    state = .reading := by
  cases move with
  | downloading move => cases move
  | _ => rfl

theorem Handler.Move.of_replaced (move : Handler.Move remote state (.replaced filesize) next) :
    ∃ offer target, state = .downloading offer target .replacing := by
  cases move with
  | downloading move =>
      cases move
      exact ⟨_, _, rfl⟩

theorem Handler.Facts.undecided_unsaved (facts : Handler.Facts remote log state)
    (undecided : ∀ decision, .decided decision ∉ log) : ¬ Saved log := by
  rintro ⟨hash, target, saved⟩
  obtain ⟨_, _, _, approved, _⟩ := facts.transfers _ saved rfl
  exact undecided _ approved.chosen

theorem Handler.Stage.lost {state : Handler} (stage : state.Stage remote log) :
    state.Stage remote (.lost :: log) := by
  cases state <;> simp only [Handler.Stage, TurnedDown] at stage ⊢
  case accepting | reading => simpa using stage
  case offering | deciding => simpa using stage
  case declining => simpa using stage
  case accepted => exact ⟨stage.1.cons _, by simpa [saved_cons] using stage.2⟩
  case downloading =>
    obtain ⟨⟨downloadDir, approved, found⟩, saved⟩ := stage
    exact ⟨⟨downloadDir, approved.cons _, found⟩, by simpa [saved_cons] using saved⟩
  case completing => exact saved_cons.mpr (.inr stage)
  case failing =>
    obtain ⟨⟨offer, downloadDir, approved⟩, unsaved⟩ := stage
    exact ⟨⟨offer, downloadDir, approved.cons _⟩, by simpa [saved_cons] using unsaved⟩

/-- The file is saved by exactly the export that leads to the last progress value. -/
theorem Download.stage_next (move : Download.Move offer target point event next)
    (approved : Approved remote log offer downloadDir)
    (found : targetOf downloadDir offer = some target) (saved : Saved log ↔ point = .replacing) :
    (Handler.resume offer target next).Stage remote (event :: log) := by
  have approved := approved.cons event
  cases move <;> simp only [Handler.resume, Handler.Stage, saved_cons]
  case replaced => exact .inr (saved.mpr rfl)
  case saved => exact ⟨⟨downloadDir, approved, found⟩, by simp⟩
  case absent | opened | ended | progressed | skipped | published | reported | reporting =>
    exact ⟨⟨downloadDir, approved, found⟩, by simpa using saved⟩
  all_goals exact ⟨⟨offer, downloadDir, approved⟩, by simpa using saved⟩

theorem Handler.stage_next (facts : Handler.Facts remote log state)
    (move : Handler.Move remote state event next) : next.Stage remote (event :: log) := by
  have stage := facts.stage
  cases move with
  | lost state => exact stage.lost
  | connected => exact ⟨by simpa using stage.1, by simpa using stage.2⟩
  | read offer authentic => exact ⟨by simpa using stage.1, .head _, authentic⟩
  | offered offer => exact ⟨by simpa using stage.1, .tail _ stage.2.1, stage.2.2, .head _⟩
  | chosen offer downloadDir =>
    obtain ⟨undecided, read, authentic, offered⟩ := stage
    refine ⟨⟨.tail _ read, authentic, .tail _ offered, .head _⟩, ?_⟩
    simpa [saved_cons] using facts.undecided_unsaved undecided
  | turnedDown offer answer not =>
    rcases not with rfl | rfl
    · exact .inl (.head _)
    · exact .inr (.head _)
  | greeted offer downloadDir =>
    obtain ⟨approved, unsaved⟩ := stage
    unfold download
    cases found : targetOf downloadDir offer with
    | none => exact ⟨⟨offer, downloadDir, approved.cons _⟩, by simpa [saved_cons] using unsaved⟩
    | some target =>
      exact ⟨⟨downloadDir, approved.cons _, found⟩, by simpa [saved_cons] using unsaved⟩
  | downloading move =>
    obtain ⟨⟨downloadDir, approved, found⟩, saved⟩ := stage
    exact Download.stage_next move approved found saved
  | _ => trivial

theorem unique_cons {make : α → Event} (injective : ∀ {a b}, make a = make b → a = b)
    (unique : ∀ a b, make a ∈ log → make b ∈ log → a = b)
    (fresh : ∀ a, event = make a → ∀ b, make b ∉ log) (a b : α)
    (here : make a ∈ event :: log) (there : make b ∈ event :: log) : a = b := by
  rcases List.mem_cons.mp here with first | here <;> rcases List.mem_cons.mp there with second | there
  · exact injective (first.trans second.symm)
  · exact absurd there (fresh a first.symm b)
  · exact absurd here (fresh b second.symm a)
  · exact unique a b here there

theorem Handler.facts_next (facts : Handler.Facts remote log state)
    (move : Handler.Move remote state event next) : Handler.Facts remote (event :: log) next where
  stage := Handler.stage_next facts move
  transfers := by
    intro e member transfer
    rcases List.mem_cons.mp member with rfl | old
    · obtain ⟨offer, target, point, result, rfl, moved⟩ := move.of_transfer transfer
      obtain ⟨⟨downloadDir, approved, found⟩, _⟩ := facts.stage
      exact ⟨offer, downloadDir, target, approved.cons _, found, moved.serves⟩
    · obtain ⟨offer, downloadDir, target, approved, found, serves⟩ := facts.transfers e old transfer
      exact ⟨offer, downloadDir, target, approved.cons _, found, serves⟩
  oneDecision := by
    apply unique_cons Event.decided.inj facts.oneDecision
    rintro decision rfl
    obtain ⟨offer, rfl⟩ := move.of_decided
    exact facts.stage.1
  oneOffer := by
    apply unique_cons (fun same => Except.ok.inj (Event.read.inj same)) facts.oneOffer
    rintro offer rfl
    obtain rfl := move.of_read
    exact facts.stage.2
  lastly := by
    intro filesize inside
    rcases List.mem_cons.mp inside with rfl | old
    · obtain ⟨offer, target, rfl⟩ := move.of_replaced
      exact saved_cons.mpr (.inr (facts.stage.2.mpr rfl))
    · exact saved_cons.mpr (.inr (facts.lastly filesize old))

theorem Handler.facts_initial : Handler.Facts remote [] .accepting :=
  ⟨⟨by simp, by simp⟩, by simp, by simp, by simp, by simp⟩

/-- The facts hold in every run of a connection, whatever its peer sends, and an
offer that was read is the one its bytes stand for. -/
theorem connection_facts
    (run : Run (Steps (Connection.step parse)) (.new remote incoming) log connection) :
    connection.remote = remote ∧ connection.incoming = incoming ∧
      Handler.Facts remote log connection.state ∧
      ∀ offer, .read (.ok offer) ∈ log → Offer.decode parse incoming = .ok offer := by
  apply run.history (P := fun log connection => connection.remote = remote ∧
    connection.incoming = incoming ∧ Handler.Facts remote log connection.state ∧
    ∀ offer, .read (.ok offer) ∈ log → Offer.decode parse incoming = .ok offer)
  · exact ⟨rfl, rfl, Handler.facts_initial, by simp⟩
  · rintro log before event after _ ⟨sameRemote, sameIncoming, facts, decoded⟩ stepped
    obtain ⟨admitted, move, same⟩ := Connection.step_move stepped
    rw [sameRemote] at move
    rw [same]
    refine ⟨sameRemote, sameIncoming, Handler.facts_next facts move, ?_⟩
    intro offer inside
    rcases List.mem_cons.mp inside with rfl | old
    · simpa [sameIncoming, eq_comm] using admitted
    · exact decoded offer old

/-- A handler's transfers are those of the one offer and directory approved on it. -/
theorem Handler.Facts.serves (facts : Handler.Facts remote log state)
    (approved : Approved remote log offer downloadDir) (inside : event ∈ log)
    (transfer : event.isTransfer = true) :
    ∃ target, targetOf downloadDir offer = some target ∧ event.Serves offer target := by
  obtain ⟨other, otherDir, target, there, found, serves⟩ := facts.transfers event inside transfer
  obtain rfl := facts.oneOffer _ _ approved.read there.read
  have sameDir := facts.oneDecision _ _ approved.chosen there.chosen
  simp only [Option.some.injEq, OfferDecision.accept.injEq] at sameDir
  subst sameDir
  exact ⟨target, found, serves⟩

theorem transfer_serves
    (run : Run (Steps (Connection.step parse)) (.new remote incoming) log connection)
    (approved : Approved remote log offer downloadDir) (inside : event ∈ log)
    (transfer : event.isTransfer = true) :
    ∃ target, targetOf downloadDir offer = some target ∧ event.Serves offer target := by
  obtain ⟨_, _, facts, _⟩ := connection_facts run
  exact facts.serves approved inside transfer

/-- Either the download fails before its first await, or every path it checks and
exports to is the chosen directory extended by one plain component. -/
def Confined (downloadDir : PathBuf) (offer : Offer) (log : List Event) : Prop :=
  (download downloadDir offer = .failing (.message "offer contains no filename") ∧
    ∀ event ∈ log, event.isTransfer = false) ∨
  ∃ name, IsFileName name ∧
    (downloadDir.join ⟨name⟩).components = downloadDir.components ++ [.normal name] ∧
    (downloadDir.join ⟨name⟩).parent = some downloadDir.components ∧
    downloadDir.bytes <+: (downloadDir.join ⟨name⟩).bytes ∧
    (∀ path found, .existed path found ∈ log → path = downloadDir.join ⟨name⟩) ∧
    ∀ hash path result, .exported hash path result ∈ log → path = downloadDir.join ⟨name⟩

/-- Whatever bytes the remote end sends, and whichever directory the user chooses. -/
theorem download_confined
    (run : Run (Steps (Connection.step parse)) (.new remote incoming) log connection)
    (approved : Approved remote log offer downloadDir) : Confined downloadDir offer log := by
  cases named : PathBuf.fileName ⟨utf8 offer.filename⟩ with
  | none =>
    have missing : targetOf downloadDir offer = none := by simp [targetOf, named]
    refine .inl ⟨by simp [download, missing], ?_⟩
    intro event inside
    by_contra transfer
    obtain ⟨target, found, _⟩ :=
      transfer_serves run approved inside (by simpa using transfer)
    simp [missing] at found
  | some name =>
    have isName := PathBuf.isFileName_of_fileName named
    have target : targetOf downloadDir offer = some (downloadDir.join ⟨name⟩) := by
      simp [targetOf, named]
    refine .inr ⟨name, isName, PathBuf.components_join _ isName, PathBuf.parent_join _ isName,
      PathBuf.prefix_join _ isName, ?_, ?_⟩
    · intro path found inside
      obtain ⟨_, same, serves⟩ := transfer_serves run approved inside rfl
      exact serves.trans (Option.some.inj (same.symm.trans target))
    · intro hash path result inside
      obtain ⟨_, same, serves⟩ := transfer_serves run approved inside rfl
      exact serves.2.trans (Option.some.inj (same.symm.trans target))

def sampleOffer : Offer := ⟨"../notes.txt/.", 12, sampleTicket⟩

def sampleDir : PathBuf := ⟨utf8 "/home/me/"⟩

def sampleReceive : List Event :=
  [.acceptBi true, .read (.ok sampleOffer), .offered true,
    .decided (some (.accept sampleDir)), .wrote 1,
    .existed ⟨utf8 "/home/me/notes.txt"⟩ (some false),
    .opened sampleTicket.hash sampleTicket.addr.id true, .item none,
    .exported sampleTicket.hash ⟨utf8 "/home/me/notes.txt"⟩ .saved, .replaced 12, .wrote 3]

theorem sampleReceive_run : ∃ connection, Run (Steps (Connection.step sampleParse))
    (.new sampleTicket.addr.id (sampleOffer.encode sampleText)) sampleReceive.reverse connection := by
  have runs : (execute (Connection.step sampleParse)
      (.new sampleTicket.addr.id (sampleOffer.encode sampleText)) sampleReceive).isSome = true := by
    decide +kernel
  obtain ⟨connection, done⟩ := Option.isSome_iff_exists.mp runs
  exact ⟨connection, execute_run done⟩

theorem download_confined_sample : Confined sampleDir sampleOffer sampleReceive.reverse := by
  obtain ⟨connection, run⟩ := sampleReceive_run
  exact download_confined run ⟨by decide, rfl, by decide, by decide⟩

end IrohShare
