import IrohShare.Exchange
import IrohShare.Delivered

/-! Every send of a network is an exchange between its two devices: each step of the network
is one of the exchange or leaves it alone, so what is general about exchanges holds of sends. -/
namespace IrohShare
open Wire Unix Transition Exchanges

variable {id : Nat} {log : List Entry} {hash : Hash} {target : PathBuf}

/-- The file of an offer: its bytes, under its name in the folder. -/
def Offer.Fits (offer : Offer) (downloadDir : PathBuf) (file : Hash × PathBuf) : Prop :=
  file.1 = offer.ticket.hash ∧ targetOf downloadDir offer = some file.2

/-- The user's answer to the request of a handler. -/
def Entry.answerTo (id : Nat) : Entry → Option (Offer × OfferDecision)
  | .modal (offer, actor) (some decision) => if actor = id then some (offer, decision) else none
  | _ => none

def answerTo (id : Nat) (log : List Entry) : Option (Offer × OfferDecision) :=
  log.findSome? (Entry.answerTo id)

def Event.savedFile : Event → Option (Hash × PathBuf)
  | .exported hash target .saved => some (hash, target)
  | _ => none

/-- The files that a handler has saved, whatever the user has answered. -/
def savedFiles (id : Nat) (log : List Entry) : List (Hash × PathBuf) :=
  (ownEvents id log).filterMap Event.savedFile

theorem answerTo_cons (unanswered : Entry.answerTo id entry = none) :
    answerTo id (entry :: log) = answerTo id log := by
  rw [answerTo, List.findSome?_cons, unanswered, answerTo]

theorem answerTo_quiet {entry : Entry} (quiet : entry.quiet = true) :
    answerTo id (entry :: log) = answerTo id log := by
  cases entry with
  | handler | modal => cases quiet
  | _ => exact answerTo_cons rfl

theorem mem_of_answerTo (answers : answerTo id log = some (offer, decision)) :
    .modal (offer, id) (some decision) ∈ log := by
  obtain ⟨entry, inside, answer⟩ := List.exists_of_findSome?_eq_some answers
  unfold Entry.answerTo at answer
  split at answer
  · split at answer <;> cases answer
    rename_i same
    exact same ▸ inside
  · cases answer

theorem savedFile_eq_some : Event.savedFile event = some (hash, target) ↔
    event = .exported hash target .saved := by
  cases event with
  | exported hash path result => cases result <;> simp [Event.savedFile]
  | _ => simp [Event.savedFile]

theorem mem_savedFiles : (hash, target) ∈ savedFiles id log ↔
    .exported hash target .saved ∈ ownEvents id log := by
  rw [savedFiles, List.mem_filterMap]
  constructor
  · rintro ⟨event, inside, saves⟩
    exact savedFile_eq_some.mp saves ▸ inside
  · intro inside
    exact ⟨_, inside, rfl⟩

theorem savedFiles_nil (unsaved : ¬ Saved (ownEvents id log)) : savedFiles id log = [] := by
  refine List.eq_nil_iff_forall_not_mem.mpr ?_
  rintro ⟨hash, target⟩ inside
  exact unsaved ⟨hash, target, mem_savedFiles.mp inside⟩

namespace Receiving
variable {parse : String → Option BlobTicket} {stage : FrameStage} {side after : Receiving}
  {action : Action}

/-- The offer of a handler that the user is asked about. -/
def prompt (side : Receiving) (id : Nat) : Option Offer :=
  side.pending.bind fun request => if request.2 = id then some request.1 else none

/-- What this side has answered to the offer that a handler reads. -/
def answer (side : Receiving) (id : Nat) : Answer Offer PathBuf :=
  match answerTo id side.log with
  | some (offer, .accept downloadDir) => .approved offer downloadDir
  | some (_, .decline) => .refused
  | none =>
    if side.isOpen = false then .refused
    else (side.prompt id).elim .unseen .asked

/-- How far this side has come with it: nothing ties the files to the answer here. -/
def receipt (side : Receiving) (id : Nat) : Receipt Offer PathBuf (Hash × PathBuf) :=
  ⟨side.answer id, savedFiles id side.log⟩

/-- The answer depends on the decision made, and before it on the prompt. -/
theorem answer_frame (answers : answerTo id after.log = answerTo id side.log)
    (isOpen : after.isOpen = side.isOpen)
    (prompt : after.prompt id = side.prompt id) : after.answer id = side.answer id := by
  unfold answer
  rw [answers, isOpen, prompt]

theorem receipt_frame (answers : answerTo id after.log = answerTo id side.log)
    (isOpen : after.isOpen = side.isOpen)
    (prompt : after.prompt id = side.prompt id)
    (own : ownEvents id after.log = ownEvents id side.log) : after.receipt id = side.receipt id := by
  unfold receipt savedFiles
  rw [answer_frame answers isOpen prompt, own]

theorem Inv.answerTo_none (inv : side.Inv) (unanswered : side.replies id = none) :
    answerTo id side.log = none := by
  rw [Option.eq_none_iff_forall_ne_some]
  rintro ⟨offer, decision⟩ answers
  cases unanswered.symm.trans (inv.answered offer id decision (mem_of_answerTo answers)).1

/-- There is one answer to a handler, about the offer that it has read. -/
theorem Inv.answerTo_some (inv : side.Inv)
    (inside : .modal (offer, id) (some decision) ∈ side.log) :
    answerTo id side.log = some (offer, decision) := by
  obtain ⟨replied, read⟩ := inv.answered offer id decision inside
  cases answers : answerTo id side.log with
  | none =>
    have unanswered := List.findSome?_eq_none_iff.mp answers _ inside
    simp [Entry.answerTo] at unanswered
  | some answer =>
    obtain ⟨other, given⟩ := answer
    obtain ⟨replied', read'⟩ := inv.answered other id given (mem_of_answerTo answers)
    obtain rfl := Option.some.inj (replied.symm.trans replied')
    obtain ⟨connection, known⟩ := inv.handler_of_event read
    obtain rfl := (inv.facts id connection known).oneOffer _ _ read read'
    rfl

theorem Inv.answer_approved (inv : side.Inv)
    (facts : Handler.Facts remote (ownEvents id side.log) state)
    (approved : Approved remote (ownEvents id side.log) offer downloadDir) :
    side.answer id = .approved offer downloadDir := by
  obtain ⟨_, shown, modal⟩ := inv.replied id _ (inv.decided id _ approved.chosen)
  obtain rfl := facts.oneOffer _ _ approved.read (inv.answered shown id _ modal).2
  rw [Receiving.answer, inv.answerTo_some modal]

/-- Before the user has answered nothing has been saved. -/
theorem Inv.files_nil (inv : side.Inv) (unanswered : side.replies id = none) :
    savedFiles id side.log = [] := by
  refine savedFiles_nil ?_
  rintro ⟨hash, target, saved⟩
  obtain ⟨connection, known⟩ := inv.handler_of_event saved
  obtain ⟨_, downloadDir, _, approved, _⟩ :=
    (inv.facts id connection known).transfers _ saved rfl
  cases unanswered.symm.trans (inv.decided id _ approved.chosen)

/-- A handler saves the file that fits what was approved, and it saves it once. -/
theorem receipt_handled (id : Nat) (inv : side.Inv) (known : side.handlers actor = some connection)
    (moved : connection.step parse event = some next) (isOpen : after.isOpen = side.isOpen)
    (pending : after.pending = side.pending) (log : after.log = .handler actor event :: side.log) :
    after.receipt id = side.receipt id ∨
      Receipt.Step Offer.Fits (side.receipt id) (after.receipt id) := by
  have answers : answerTo id after.log = answerTo id side.log := by rw [log]; exact answerTo_cons rfl
  by_cases here : id = actor
  · subst here
    have same : after.answer id = side.answer id := answer_frame answers isOpen (by rw [prompt, pending, prompt])
    unfold receipt
    rw [same, log, savedFiles, ownEvents_self, List.filterMap_cons]
    cases saves : event.savedFile with
    | none => exact .inl rfl
    | some file =>
      obtain ⟨hash, path⟩ := file
      obtain rfl := savedFile_eq_some.mp saves
      have facts := inv.facts id connection known
      have stage := facts.stage
      obtain ⟨offer, target, point, result, state, move⟩ :=
        (Connection.step_move moved).2.1.of_transfer rfl
      rw [state] at stage
      obtain ⟨⟨downloadDir, approved, found⟩, saved⟩ := stage
      cases move with
      | saved =>
        have unsaved : ¬ Saved (ownEvents id side.log) := fun old => by cases saved.mp old
        have none : (ownEvents id side.log).filterMap Event.savedFile = [] := savedFiles_nil unsaved
        rw [inv.answer_approved facts approved, savedFiles, none]
        exact .inr (.saves offer downloadDir _ ⟨rfl, found⟩)
  · exact .inl (receipt_frame answers isOpen (by rw [prompt, pending, prompt])
      (by rw [log, ownEvents_other here]))

theorem receipt_answer (id : Nat) (inv : side.Inv) (isOpen : side.isOpen = true)
    (pending : side.pending = some (offer, actor)) (decision : OfferDecision)
    (open_ : after.isOpen = side.isOpen) (asked : after.pending = none)
    (log : after.log = .modal (offer, actor) (some decision) :: side.log) :
    after.receipt id = side.receipt id ∨
      Receipt.Step Offer.Fits (side.receipt id) (after.receipt id) := by
  by_cases here : id = actor
  · subst here
    have unanswered := (inv.waiting offer id (by simp [requests, pending])).1
    have before : side.answer id = .asked offer := by
      simp [answer, inv.answerTo_none unanswered, isOpen, prompt, pending]
    have answers : answerTo id after.log = some (offer, decision) := by
      simp [log, answerTo, Entry.answerTo]
    have files : savedFiles id after.log = [] := by
      rw [log]
      exact inv.files_nil unanswered
    rw [receipt, receipt, before, files, inv.files_nil unanswered, answer, answers]
    cases decision with
    | accept downloadDir => exact .inr (.approves offer downloadDir)
    | decline => exact .inr (.refuses offer)
  · refine .inl (receipt_frame ?_ open_ ?_ (by rw [log, ownEvents_modal]))
    · rw [log]
      exact answerTo_cons (by simp [Entry.answerTo, Ne.symm here])
    · simp [prompt, asked, pending, Ne.symm here]

theorem receipt_closed (id : Nat) (inv : side.Inv) (isOpen : after.isOpen = false)
    (log : after.log = side.log) : after.receipt id = side.receipt id ∨
      Receipt.Step Offer.Fits (side.receipt id) (after.receipt id) := by
  cases replied : side.replies id with
  | some decision =>
    obtain ⟨_, offer, modal⟩ := inv.replied id decision replied
    left
    rw [receipt, receipt, answer, answer, log, inv.answerTo_some modal]
    cases decision <;> rfl
  | none =>
    rw [receipt, receipt, answer, answer, log, inv.answerTo_none replied, inv.files_nil replied,
      if_pos isOpen]
    by_cases closed : side.isOpen = false
    · rw [if_pos closed]
      exact .inl rfl
    · rw [if_neg closed]
      cases side.prompt id with
      | none => exact .inr .closes
      | some offer => exact .inr (.refuses offer)

/-- Every move of the receiving side is a step of each receipt, or leaves it alone. -/
theorem receipt_next (inv : side.Inv) (move : Move parse stage side action after) (id : Nat) :
    after.receipt id = side.receipt id ∨
      Receipt.Step Offer.Fits (side.receipt id) (after.receipt id) := by
  cases move with
  | handled actor event connection next known moved =>
    exact receipt_handled id inv known moved rfl rfl rfl
  | offered actor offer connection next known state moved =>
    exact receipt_handled id inv known moved rfl rfl rfl
  | posted actor event bytes connection next known moved =>
    exact receipt_handled id inv known moved rfl rfl rfl
  | noted _ entry quiet =>
    exact .inl (receipt_frame (answerTo_quiet quiet) rfl rfl (ownEvents_quiet quiet))
  | asked => exact .inl (receipt_frame (answerTo_cons rfl) rfl rfl rfl)
  | pulled input request offers isOpen empty queued =>
    by_cases here : request.2 = id
    · subst here
      have unanswered := (inv.waiting request.1 request.2 (by simp [requests, queued])).1
      have files := inv.files_nil unanswered
      right
      simpa [receipt, answer, inv.answerTo_none unanswered, isOpen, prompt, empty, files] using
        .asks request.1
    · exact .inl (receipt_frame rfl rfl (by simp [prompt, empty, here]) rfl)
  | declined input offer actor due isOpen pending =>
    exact receipt_answer id inv isOpen pending .decline rfl rfl rfl
  | accepted input offer actor downloadDir due isOpen pending =>
    exact receipt_answer id inv isOpen pending (.accept downloadDir) rfl rfl rfl
  | closed => exact receipt_closed id inv rfl rfl
  | _ => exact .inl (receipt_frame rfl rfl rfl rfl)

/-- A handler that has been turned down has a refused offer, and has saved nothing. -/
theorem Inv.receipt_turnedDown (inv : side.Inv) (offering : side.Offering)
    (turnedDown : TurnedDown (ownEvents id side.log))
    (unsaved : ¬ Saved (ownEvents id side.log)) : side.receipt id = ⟨.refused, []⟩ := by
  rw [receipt, savedFiles_nil unsaved]
  rcases turnedDown with declined | dropped
  · obtain ⟨_, offer, modal⟩ := inv.replied id _ (inv.decided id _ declined)
    rw [Receiving.answer, inv.answerTo_some modal]
  · have isOpen : side.isOpen = false :=
      Bool.eq_false_of_not_eq_true fun isOpen => offering.undropped isOpen id dropped
    have unanswered : side.replies id = none := by
      rw [Option.eq_none_iff_forall_ne_some]
      intro decision replied
      obtain ⟨_, _, delivers⟩ := offering.delivers id decision replied
      have got : none ∈ received id side.log := List.mem_filterMap.mpr ⟨_, dropped, rfl⟩
      rcases delivers with ⟨_, nothing⟩ | single
      · rw [nothing] at got
        cases got
      · rw [single] at got
        cases List.mem_singleton.mp got
    rw [Receiving.answer, inv.answerTo_none unanswered, if_pos isOpen]

theorem receipt_absent (inv : side.Inv) (absent : side.handlers id = none) :
    side.receipt id = ⟨.unseen, []⟩ ∨ side.receipt id = ⟨.refused, []⟩ := by
  have unanswered : side.replies id = none := by
    rw [Option.eq_none_iff_forall_ne_some]
    intro decision replied
    obtain ⟨⟨connection, known, _⟩, _⟩ := inv.replied id decision replied
    cases absent.symm.trans known
  have unasked : side.prompt id = none := by
    rw [Option.eq_none_iff_forall_ne_some]
    intro offer asked
    obtain ⟨⟨other, actor⟩, pending, here⟩ := Option.bind_eq_some_iff.mp asked
    split at here <;> cases here
    rename_i same
    obtain rfl : actor = id := same
    obtain ⟨_, connection, known, _⟩ := inv.waiting other actor (by simp [requests, pending])
    cases absent.symm.trans known
  rw [receipt, inv.files_nil unanswered, answer, inv.answerTo_none unanswered, unasked]
  dsimp only
  split
  · exact .inr rfl
  · exact .inl rfl

end Receiving

def TaskEvent.result : TaskEvent → Option (Except Error SendOutcome)
  | .reports result => some result
  | _ => none

def outcomeOf (result : Except Error SendOutcome) : Outcome :=
  match result with
  | .ok .completed => .completed
  | .ok .declined => .declined
  | .error _ => .failed

/-- What a task has been told, by its own events. -/
def outcome (events : List TaskEvent) : Outcome :=
  ((events.findSome? TaskEvent.result).map outcomeOf).getD .waiting

theorem outcome_silent (silent : event.result = none) :
    outcome (event :: events) = outcome events := by
  rw [outcome, List.findSome?_cons, silent, outcome]

theorem outcome_reports : outcome (.reports result :: events) = outcomeOf result := rfl

theorem TaskState.step_reports {state next : TaskState} (stepped : state.step event = some next)
    (running : next ≠ .reported) : event.result = none ∧ state ≠ .reported := by
  cases state with
  | preparing => cases event <;> cases stepped <;> exact ⟨rfl, TaskState.noConfusion⟩
  | talking sender =>
    cases event with
    | sender event => exact ⟨rfl, TaskState.noConfusion⟩
    | reports result =>
      cases sender with
      | returned value =>
        simp only [step] at stepped
        split at stepped <;> cases stepped
        exact absurd rfl running
      | _ => cases stepped
    | _ => cases sender <;> cases stepped
  | reported => cases event <;> cases stepped

/-- A task that has not handed over its result has been told nothing. -/
theorem TaskState.unreported {state : TaskState}
    (run : Run (Steps TaskState.step) .preparing events state) (running : state ≠ .reported) :
    outcome events = .waiting := by
  induction run with
  | start => rfl
  | next before last ih =>
    obtain ⟨silent, waits⟩ := step_reports last running
    rw [outcome_silent silent]
    exact ih waits

namespace Network
variable {ι : Type} [DecidableEq ι] {world : World ι} {net after : Network ι}
  {files : ι → List PathBuf} {actions later : List (NetworkAction ι)} {action : NetworkAction ι}
  {i : ι} {id : Nat}

/-- How far the receiving device has come with the offer of a send task. -/
def receipt (net : Network ι) (key : ι × Nat) : Receipt Offer PathBuf (Hash × PathBuf) :=
  (net.links key).elim ⟨.unseen, []⟩ fun link =>
    (net.nodes link.device).receiving.receipt link.handler

/-- The exchange of a send task with the device it is addressed to. -/
def exchange (net : Network ι) (key : ι × Nat) : Option (Exchange Offer PathBuf (Hash × PathBuf)) :=
  ((net.nodes key.1).tasks[key.2]?).map fun _ =>
    ⟨net.receipt key, outcome (taskEvents key.2 (net.nodes key.1).log)⟩

theorem receipt_step (run : Run (Steps (Network.step world)) (.new files) actions net)
    (stepped : net.step world action = some after) (key : ι × Nat) :
    after.receipt key = net.receipt key ∨
      Receipt.Step Offer.Fits (net.receipt key) (after.receipt key) := by
  have one : Run (Steps (Network.step world)) net [action] after := .next .start stepped
  unfold receipt
  cases known : net.links key with
  | some link =>
    obtain ⟨link', known', same⟩ := links_stay known one
    rw [known', Option.elim_some, Option.elim_some, same.device, same.handler]
    have moved := step_node link.device stepped
    cases own : action.at world link.device with
    | none =>
      rw [own, Option.elim_none] at moved
      rw [moved]
      exact .inl rfl
    | some step =>
      rw [own, Option.elim_some] at moved
      exact Receiving.receipt_next (Node.receiving_inv (node_run run link.device))
        (Node.step_receiving moved) link.handler
  | none =>
    cases known' : after.links key with
    | none => exact .inl rfl
    | some link =>
      rcases link_origin stepped known' with ⟨before, found, _⟩ | ⟨answers, budget, rfl, dialed⟩
      · cases known.symm.trans found
      · have inv := Node.receiving_inv (node_run run link.device)
        have moved : (net.nodes link.device).step (world.env link.device) (.connect link.handler
            (world.ident key.1) (world.write link.offer budget).2.written) =
              some (after.nodes link.device) := stepAt_self dialed
        have fresh : (after.nodes link.device).receiving.receipt link.handler =
            (net.nodes link.device).receiving.receipt link.handler ∧
              (net.nodes link.device).router.handlers link.handler = none := by
          generalize after.nodes link.device = node at moved
          cases Node.step_move moved with
          | connected _ _ _ free => exact ⟨rfl, free⟩
        rw [Option.elim_none, Option.elim_some, fresh.1]
        rcases Receiving.receipt_absent inv fresh.2 with unseen | refused
        · exact .inl unseen
        · exact .inr (refused ▸ .closes)

theorem savedTo_map (log : List Event) :
    log.filterMap Event.savesTo = (log.filterMap Event.savedFile).map Prod.snd := by
  rw [List.map_filterMap]
  refine congrArg (log.filterMap ·) (funext fun event => ?_)
  cases event with
  | exported hash target result => cases result <;> rfl
  | _ => rfl

theorem told_of_reported (run : Run (Steps (Network.step world)) (.new files) actions net)
    (reported : .reports result ∈ taskEvents id (net.nodes i).log) :
    Told (net.receipt (i, id)) (outcomeOf result) := by
  cases result with
  | error error => exact .failed _
  | ok come =>
    obtain ⟨link, past, task, transfer, known, _, linked, scanned⟩ :=
      linked_reported run (mem_taskEvents.mp reported)
    have inv := Transfer.inv linked.run
    have side := Node.receiving_inv (node_run run link.device)
    obtain ⟨_, _, facts, _⟩ := connection_facts inv.runs
    unfold receipt
    rw [known, Option.elim_some]
    cases come with
    | completed =>
      obtain ⟨hash, path, saved⟩ := inv.spoken.backed.completed scanned
      obtain ⟨offer, downloadDir, target, approved, _⟩ := facts.transfers _ saved rfl
      have once := saves_once inv.runs
      rw [savedTo_map, List.length_map] at once
      rw [linked.log] at facts approved saved once
      have inside := mem_savedFiles.mpr saved
      obtain ⟨file, single⟩ : ∃ file, savedFiles link.handler (net.nodes link.device).log = [file] :=
        List.length_eq_one_iff.mp (Nat.le_antisymm once (List.length_pos_of_mem inside))
      have single : savedFiles link.handler (net.nodes link.device).receiving.log = [file] := single
      rw [Receiving.receipt, side.answer_approved facts approved, single]
      exact .completed offer downloadDir file
    | declined =>
      have turnedDown := inv.spoken.backed.declined scanned
      have unsaved : ¬ Saved transfer.log := by
        rintro ⟨hash, path, saved⟩
        cases turnedDown.no_transfer facts _ saved
      rw [linked.log] at turnedDown unsaved
      rw [side.receipt_turnedDown (Node.offering_inv (node_run run link.device)) turnedDown unsaved]
      exact .declined

omit [DecidableEq ι] in
theorem exchange_some (found : (net.nodes i).tasks[id]? = some task) : net.exchange (i, id) =
    some ⟨net.receipt (i, id), outcome (taskEvents id (net.nodes i).log)⟩ := by
  rw [exchange, found, Option.map_some]

omit [DecidableEq ι] in
theorem exchange_none (missing : (net.nodes i).tasks[id]? = none) : net.exchange (i, id) = none := by
  rw [exchange, missing, Option.map_none]

/-- The receiving side may move under what the sender has been told. -/
theorem exchange_receives (run : Run (Steps (Network.step world)) (.new files) actions net)
    (stepped : net.step world action = some after) (key : ι × Nat) (told : Outcome) :
    Relation.ReflTransGen (Exchange.Step Offer.Fits) (some ⟨net.receipt key, told⟩)
      (some ⟨after.receipt key, told⟩) := by
  rcases receipt_step run stepped key with same | step
  · rw [same]
  · exact .single (.receives told step)

theorem exchange_moved (run : Run (Steps (Network.step world)) (.new files) actions net)
    (stepped : net.step world action = some after) (found : (net.nodes i).tasks[id]? = some task)
    (moved : task.state.step event = some state)
    (found' : (after.nodes i).tasks[id]? = some { task with state })
    (events : taskEvents id (after.nodes i).log = event :: taskEvents id (net.nodes i).log) :
    Relation.ReflTransGen (Exchange.Step Offer.Fits) (net.exchange (i, id)) (after.exchange (i, id)) := by
  have receives := exchange_receives run stepped (i, id)
  rw [exchange_some found, exchange_some found', events]
  cases event with
  | reports result =>
    have running : task.state ≠ .reported := by
      intro reported
      rw [reported] at moved
      cases moved
    rw [TaskState.unreported (Node.task_run (node_run run i) found) running, outcome_reports]
    refine (receives .waiting).tail (.ends (told_of_reported (run.next stepped) ?_))
    rw [events]
    exact List.mem_cons_self
  | _ =>
    rw [outcome_silent rfl]
    exact receives _

theorem exchange_spawned (run : Run (Steps (Network.step world)) (.new files) actions net)
    (stepped : net.step world action = some after) (fresh : (net.nodes i).tasks[id]? = none)
    (found : (after.nodes i).tasks[id]? = some task)
    (events : taskEvents id (after.nodes i).log = taskEvents id (net.nodes i).log) :
    Relation.ReflTransGen (Exchange.Step Offer.Fits) (net.exchange (i, id)) (after.exchange (i, id)) := by
  have unlinked : net.links (i, id) = none := by
    rw [Option.eq_none_iff_forall_ne_some]
    intro link known
    obtain ⟨_, task, _, linked⟩ := (Network.inv run).linked i id link known
    cases fresh.symm.trans linked.found
  have receives := exchange_receives run stepped (i, id) .waiting
  rw [receipt, unlinked] at receives
  rw [exchange_none fresh, exchange_some found, events,
    Node.task_absent (node_run run i) fresh]
  exact .head .begins receives

/-- Whatever step the network takes, a send takes steps of its exchange, or none. -/
theorem exchange_next (run : Run (Steps (Network.step world)) (.new files) actions net)
    (stepped : net.step world action = some after) (key : ι × Nat) :
    Relation.ReflTransGen (Exchange.Step Offer.Fits) (net.exchange key) (after.exchange key) := by
  obtain ⟨i, id⟩ := key
  have kept (same : (after.nodes i).tasks[id]? = (net.nodes i).tasks[id]?)
      (events : taskEvents id (after.nodes i).log = taskEvents id (net.nodes i).log) :
      Relation.ReflTransGen (Exchange.Step Offer.Fits) (net.exchange (i, id)) (after.exchange (i, id)) := by
    cases found : (net.nodes i).tasks[id]? with
    | none => rw [exchange_none found, exchange_none (same.trans found)]
    | some task =>
      rw [exchange_some found, exchange_some (same.trans found), events]
      exact exchange_receives run stepped (i, id) _
  have moved := step_node i stepped
  cases own : action.at world i with
  | none =>
    rw [own, Option.elim_none] at moved
    exact kept (by rw [moved]) (by rw [moved])
  | some step =>
    rw [own, Option.elim_some] at moved
    cases Node.step_task moved id with
    | moved event task state own found moved found' events =>
      exact exchange_moved run stepped found moved found' events
    | kept other events same => exact kept same events
    | spawned task other events fresh found =>
      exact exchange_spawned run stepped fresh found events

theorem exchange_steps (run : Run (Steps (Network.step world)) (.new files) actions net)
    (more : Run (Steps (Network.step world)) net later after) (key : ι × Nat) :
    Relation.ReflTransGen (Exchange.Step Offer.Fits) (net.exchange key) (after.exchange key) := by
  induction more with
  | start => exact .refl
  | next before stepped ih => exact ih.trans (exchange_next (run.trans before) stepped key)

theorem exchange_begun (run : Run (Steps (Network.step world)) (.new files) actions net)
    (key : ι × Nat) : Relation.ReflTransGen (Exchange.Step Offer.Fits) none (net.exchange key) := by
  have steps : Relation.ReflTransGen (Exchange.Step Offer.Fits) ((new files).exchange key)
      (net.exchange key) := exchange_steps .start run key
  exact steps

/-- However the devices of a network interleave, each send runs as an exchange, from its
beginning and from any later state on. -/
theorem refines_exchange (run : Run (Steps (Network.step world)) (.new files) actions net)
    (more : Run (Steps (Network.step world)) net later after) (key : ι × Nat) :
    Relation.ReflTransGen (Exchange.Step Offer.Fits) none (net.exchange key) ∧
      Relation.ReflTransGen (Exchange.Step Offer.Fits) (net.exchange key) (after.exchange key) :=
  ⟨exchange_begun run key, exchange_steps run more key⟩

/-- What a sender has been told its receiver has come to, and no file is saved that does
not fit what was approved; a result other than a failure is final on both sides, and so is
an approval. -/
theorem outcomes_are_final (run : Run (Steps (Network.step world)) (.new files) actions net)
    (more : Run (Steps (Network.step world)) net later after) (key : ι × Nat)
    (known : net.exchange key = some come) :
    come.Sound Offer.Fits ∧
      (come.outcome = .completed ∨ come.outcome = .declined → after.exchange key = some come) ∧
      ∀ offer downloadDir, come.receipt.answer = .approved offer downloadDir →
        ∃ saved told, after.exchange key = some ⟨⟨.approved offer downloadDir, saved⟩, told⟩ ∧
          come.receipt.files <+: saved := by
  have sound := sound_of_steps (exchange_begun run key) come known
  have steps := exchange_steps run more key
  rw [known] at steps
  refine ⟨sound, ?_, ?_⟩
  · intro succeeds
    refine steps_of_told (sound.told.resolve_left ?_) ?_ steps
    · rcases succeeds with same | same <;> rw [same] <;> exact Outcome.noConfusion
    · rcases succeeds with same | same <;> rw [same] <;> exact Outcome.noConfusion
  · intro offer downloadDir approved
    obtain ⟨⟨answer, saved⟩, told⟩ := come
    obtain rfl : answer = .approved offer downloadDir := approved
    exact steps_of_approved steps

end Network

def sampleRest : List (NetworkAction Bool) :=
  sampleHandles 0 [.item none, .exported sampleTicket.hash sampleTarget .saved, .replaced 12,
    .wrote 3] ++ sampleReads 0 [3] ++ sampleResult 0 .completed

/-- The exchange of an offer that was approved, with what has been saved. -/
def sampleExchange (offer : Offer) (saved : List PathBuf) (told : Outcome) :
    Option (Exchange Offer PathBuf (Hash × PathBuf)) :=
  some ⟨⟨.approved offer sampleDir, saved.map fun target => (sampleTicket.hash, target)⟩, told⟩

theorem refines_exchange_sample : ∃ net after : Network Bool,
    net.exchange (true, 0) = sampleExchange sampleNotes [] .waiting ∧
    after.exchange (true, 0) = sampleExchange sampleNotes [sampleTarget] .completed ∧
    Relation.ReflTransGen (Exchange.Step Offer.Fits) none (net.exchange (true, 0)) ∧
    Relation.ReflTransGen (Exchange.Step Offer.Fits) (net.exchange (true, 0))
      (after.exchange (true, 0)) := by
  obtain ⟨net, run, approved, rest⟩ : ∃ net : Network Bool,
      Run (Steps (Network.step sampleWorld)) (.new fun _ => []) sampleSending.reverse net ∧
      net.exchange (true, 0) = sampleExchange sampleNotes [] .waiting ∧
      (execute (Network.step sampleWorld) net sampleRest).any (fun after =>
        decide (after.exchange (true, 0) =
          sampleExchange sampleNotes [sampleTarget] .completed)) = true := by
    apply execute_reaches
    decide +kernel
  obtain ⟨after, more, saved⟩ := execute_reaches rest
  exact ⟨net, after, approved, saved, Network.refines_exchange run more (true, 0)⟩

/-- The second delivery does not touch the first. -/
theorem outcomes_are_final_sample : ∃ after : Network Bool,
    after.exchange (true, 0) = sampleExchange sampleNotes [sampleTarget] .completed ∧
    after.exchange (true, 1) = sampleExchange ⟨"song.ogg", 12, sampleTicket⟩
      [⟨utf8 "/home/me/song.ogg"⟩] .completed := by
  obtain ⟨net, run, first, rest⟩ : ∃ net : Network Bool,
      Run (Steps (Network.step sampleWorld)) (.new fun _ => []) sampleSent.reverse net ∧
      net.exchange (true, 0) = sampleExchange sampleNotes [sampleTarget] .completed ∧
      (execute (Network.step sampleWorld) net
        (sampleDelivery 1 ⟨utf8 "/home/me/song.ogg"⟩ ⟨"song.ogg", 12, sampleTicket⟩)).any
          (fun after => decide (after.exchange (true, 1) =
            sampleExchange ⟨"song.ogg", 12, sampleTicket⟩ [⟨utf8 "/home/me/song.ogg"⟩]
              .completed)) = true := by
    apply execute_reaches
    decide +kernel
  obtain ⟨after, more, second⟩ := execute_reaches rest
  have final := (Network.outcomes_are_final run more (true, 0) first).2.1
  exact ⟨after, final (.inl rfl), second⟩

end IrohShare
