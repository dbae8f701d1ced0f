import IrohShare.NetworkProofs
import IrohShare.Naming
import IrohShare.Offering

/-! From window to window: what the sending window shows at the end of a send is what the
receiving user decided and the receiving handler did, and the progress it shows on the way
was reported there. -/
namespace IrohShare
open Wire Unix Transition

def Event.savesTo : Event → Option PathBuf
  | .exported _ target .saved => some target
  | _ => none

theorem savesTo_eq_some : Event.savesTo event = some target ↔
    ∃ hash, event = .exported hash target .saved := by
  cases event with
  | exported hash path result => cases result <;> simp [Event.savesTo]
  | _ => simp [Event.savesTo]

theorem saved_of_savesTo (inside : target ∈ log.filterMap Event.savesTo) : Saved log := by
  obtain ⟨event, inside, saves⟩ := List.mem_filterMap.mp inside
  obtain ⟨hash, rfl⟩ := savesTo_eq_some.mp saves
  exact ⟨hash, target, inside⟩

theorem saves_once
    (run : Run (Steps (Connection.step parse)) (.new remote incoming) log connection) :
    (log.filterMap Event.savesTo).length ≤ 1 := by
  apply run.history (P := fun log _ => (log.filterMap Event.savesTo).length ≤ 1)
  · exact Nat.zero_le _
  · intro log before event after run once stepped
    obtain ⟨_, _, facts, _⟩ := connection_facts run
    cases saves : event.savesTo with
    | none => simpa [List.filterMap_cons, saves] using once
    | some target =>
      obtain ⟨hash, rfl⟩ := savesTo_eq_some.mp saves
      have unsaved : ¬ Saved log := by
        obtain ⟨offer, path, point, result, state, move⟩ :=
          (Connection.step_move stepped).2.1.of_transfer rfl
        have stage := facts.stage
        rw [state] at stage
        cases move with
        | saved => exact fun saved => by cases stage.2.mp saved
      have none : log.filterMap Event.savesTo = [] :=
        List.eq_nil_iff_forall_not_mem.mpr fun _ inside => unsaved (saved_of_savesTo inside)
      simp [saves, none]

variable {ι : Type} [DecidableEq ι] {world : World ι} {net : Network ι}
  {files : ι → List PathBuf} {actions : List (NetworkAction ι)} {i : ι} {id : Nat}

theorem relays_eq_some {event : Event} :
    event.relays = some bytes ↔ event = .published bytes true := by
  cases event with
  | published value ok => cases ok <;> simp [Event.relays]
  | _ => simp [Event.relays]

theorem SendStatus.ofResult_ok (same : SendStatus.ofResult (.ok outcome) = .ofResult result) :
    result = .ok outcome := by
  cases result with
  | error error => cases outcome <;> cases same
  | ok other => cases outcome <;> cases other <;> first | rfl | cases same

/-- The last result a window shows is the one its latest task reported. -/
theorem Node.shown_reported (outcome : SendOutcome)
    (run : Run (Steps (Node.step env)) (.new disk) past node)
    (shown : node.app.sendStatus = some (.ofResult (.ok outcome))) :
    ∃ id, id + 1 = node.tasks.length ∧ .task id (.reports (.ok outcome)) ∈ node.log := by
  have inv := Node.sending_inv run
  rcases inv.outcome _ shown with busy | ⟨id, result, latest, consumed, same⟩
  · cases outcome <;> cases busy
  · obtain rfl := SendStatus.ofResult_ok same
    exact ⟨id, latest, inv.backed id _ consumed⟩

def NetworkAction.sends : NetworkAction ι → Option Offer
  | .dial _ _ _ _ offer _ _ => some offer
  | _ => none

/-- Parsing undoes the text of each ticket that is sent. -/
def World.Undoes (world : World ι) (actions : List (NetworkAction ι)) : Prop :=
  ∀ offer ∈ actions.filterMap NetworkAction.sends,
    world.parse (world.toString offer.ticket) = some offer.ticket

namespace Network

/-- A task that reports an outcome has written its offer and has read it in the reply. -/
theorem linked_reported (run : Run (Steps (Network.step world)) (.new files) actions net)
    (reported : .task id (.reports (.ok outcome)) ∈ (net.nodes i).log) :
    ∃ link past task transfer, net.links (i, id) = some link ∧ link.Written world ∧
      Linked world net.nodes i id link past task transfer ∧
      Sender.scan transfer.connection.written = .returned (.ok outcome) := by
  have inv := Network.inv run
  have inside := mem_taskEvents.mpr reported
  cases known : net.links (i, id) with
  | none =>
    obtain ⟨error, same⟩ := (inv.unlinked i id known).reports _ inside
    cases same
  | some link =>
    obtain ⟨past, task, transfer, linked⟩ := inv.linked i id link known
    have returned : transfer.sender = .returned (.ok outcome) := by
      rcases linked.reports _ inside with returned | ⟨error, same⟩
      · exact returned
      · cases same
    have written : link.Written world := linked.wrote.resolve_left fun deciding => by
      cases deciding.symm.trans returned
    have scanned := (Transfer.inv linked.run).scanned returned (by simp [returned, Sender.GaveUp])
    exact ⟨link, past, task, transfer, rfl, written, linked, scanned⟩

end Network

/-- The file of a send task is with the device it was addressed to: the user there saw the
offer, with the last component of the file's path as its name, and accepted it, and one file
was saved, under that name in the folder the user chose. -/
structure Delivered (world : World ι) (files : ι → List PathBuf) (actions : List (NetworkAction ι))
    (net : Network ι) (i : ι) (id : Nat) (task : Task) (link : Link ι) (downloadDir : PathBuf) :
    Prop where
  found : (net.nodes i).tasks[id]? = some task
  known : net.links (i, id) = some link
  addressed : task.endpointAddr.id = world.ident link.device
  named : PathBuf.fileName ⟨utf8 task.filename⟩ = some (utf8 link.offer.filename)
  genuine : link.offer.ticket.addr.id = world.ident i
  approved : ApprovedIn (world.env link.device) (files link.device)
    (actions.filterMap (NetworkAction.at world link.device)) (link.offer, link.handler) downloadDir
  saved : .exported link.offer.ticket.hash (downloadDir.join ⟨utf8 link.offer.filename⟩) .saved ∈
    ownEvents link.handler (net.nodes link.device).log
  once : (ownEvents link.handler (net.nodes link.device).log).filterMap Event.savesTo =
    [downloadDir.join ⟨utf8 link.offer.filename⟩]

/-- The receiving user declined the offer, or closed the window without having decided about
it, and nothing was transferred. -/
structure Refused (world : World ι) (net : Network ι) (i : ι) (id : Nat) (task : Task)
    (link : Link ι) : Prop where
  found : (net.nodes i).tasks[id]? = some task
  known : net.links (i, id) = some link
  addressed : task.endpointAddr.id = world.ident link.device
  declined : .modal (link.offer, link.handler) (some .decline) ∈ (net.nodes link.device).log ∨
    .decided none ∈ ownEvents link.handler (net.nodes link.device).log ∧
      (net.nodes link.device).isOpen = false
  untouched : ∀ event ∈ ownEvents link.handler (net.nodes link.device).log,
    event.isTransfer = false

namespace Network

omit [DecidableEq ι] in
theorem read_offer (undoes : world.parse (world.toString link.offer.ticket) = some link.offer.ticket)
    (linked : Linked world net.nodes i id link past task transfer) (written : link.Written world)
    (read : .read (.ok offer) ∈ transfer.log) : offer = link.offer := by
  obtain ⟨_, _, _, decoded⟩ := connection_facts (Transfer.inv linked.run).runs
  have sent : world.write link.offer link.budget = (.ok (), (world.write link.offer link.budget).2) :=
    Prod.ext written rfl
  exact decode_written undoes sent (decoded offer read)

theorem links_sent (run : Run (Steps (Network.step world)) (.new files) actions net) :
    ∀ key link, net.links key = some link → link.offer ∈ actions.filterMap NetworkAction.sends := by
  apply run.history (P := fun actions net => ∀ key link, net.links key = some link →
    link.offer ∈ actions.filterMap NetworkAction.sends)
  · intro key link known
    cases known
  · intro actions before action after _ sent stepped key link known
    rw [List.filterMap_cons]
    rcases link_origin stepped known with ⟨earlier, found, same⟩ | ⟨answers, budget, rfl, _⟩
    · have inside := sent key earlier found
      rw [same.offer]
      split
      · exact inside
      · exact List.mem_cons_of_mem _ inside
    · exact List.mem_cons_self

theorem delivered_of_reported (run : Run (Steps (Network.step world)) (.new files) actions net)
    (undoes : world.Undoes actions)
    (reported : .task id (.reports (.ok .completed)) ∈ (net.nodes i).log) :
    ∃ task link downloadDir, Delivered world files actions net i id task link downloadDir := by
  obtain ⟨link, past, task, transfer, known, written, linked, scanned⟩ :=
    linked_reported run reported
  have inv := Transfer.inv linked.run
  obtain ⟨hash, path, saved⟩ := inv.spoken.backed.completed scanned
  obtain ⟨remote, _, facts, _⟩ := connection_facts inv.runs
  obtain ⟨offer, downloadDir, target, approved, found, rfl, rfl⟩ := facts.transfers _ saved rfl
  obtain rfl := read_offer (undoes _ (links_sent run _ _ known)) linked written approved.read
  obtain ⟨answers, prepared⟩ := linked.prepared
  have named := prepared_name prepared
  have target : path = downloadDir.join ⟨utf8 link.offer.filename⟩ := by
    rw [targetOf, PathBuf.fileName_fileName (PathBuf.isFileName_of_fileName named)] at found
    exact (Option.some.inj found).symm
  subst target
  have once : transfer.log.filterMap Event.savesTo =
      [downloadDir.join ⟨utf8 link.offer.filename⟩] := by
    have inside : downloadDir.join ⟨utf8 link.offer.filename⟩ ∈
        transfer.log.filterMap Event.savesTo := List.mem_filterMap.mpr ⟨_, saved, rfl⟩
    obtain ⟨target, single⟩ := List.length_eq_one_iff.mp
      (Nat.le_antisymm (saves_once inv.runs) (List.length_pos_of_mem inside))
    rw [single, List.mem_singleton] at inside
    rw [single, inside]
  have chosen := Node.approved_in (node_run run link.device) linked.handler
    (by rw [remote, ← linked.log]; exact approved)
  exact ⟨task, link, downloadDir, linked.found, known, linked.addressed, named,
    approved.authentic, chosen, linked.log ▸ saved, linked.log ▸ once⟩

theorem refused_of_reported (run : Run (Steps (Network.step world)) (.new files) actions net)
    (undoes : world.Undoes actions)
    (reported : .task id (.reports (.ok .declined)) ∈ (net.nodes i).log) :
    ∃ task link, Refused world net i id task link := by
  obtain ⟨link, past, task, transfer, known, written, linked, scanned⟩ :=
    linked_reported run reported
  have inv := Transfer.inv linked.run
  have turnedDown := inv.spoken.backed.declined scanned
  obtain ⟨_, _, facts, _⟩ := connection_facts inv.runs
  have untouched := turnedDown.no_transfer facts
  rw [linked.log] at turnedDown untouched
  refine ⟨task, link, linked.found, known, linked.addressed, ?_, untouched⟩
  have side := Node.receiving_inv (node_run run link.device)
  rcases turnedDown with declined | dropped
  · obtain ⟨_, offer, shown⟩ := side.replied _ _ (side.decided _ _ declined)
    obtain ⟨_, read⟩ := side.answered _ _ _ shown
    have read : .read (.ok offer) ∈ transfer.log := by
      rw [linked.log]
      exact read
    obtain rfl := read_offer (undoes _ (links_sent run _ _ known)) linked written read
    exact .inl shown
  · refine .inr ⟨dropped, Bool.eq_false_of_not_eq_true fun isOpen => ?_⟩
    exact (Node.offering_inv (node_run run link.device)).undropped isOpen _ dropped

/-- The offer of the task started last carries the name the window shows. -/
theorem shown_offer (run : Run (Steps (Network.step world)) (.new files) actions net)
    (shown : (net.nodes i).app.sendStatus = some status) (latest : id + 1 = (net.nodes i).tasks.length)
    (found : (net.nodes i).tasks[id]? = some task)
    (named : PathBuf.fileName ⟨utf8 task.filename⟩ = some (utf8 name)) :
    (net.nodes i).selectedFilename = name := by
  obtain ⟨last, other, here, found', names⟩ := Node.names_latest (node_run run i) shown
  have here : last + 1 = (net.nodes i).tasks.length := here
  obtain rfl : last = id := by omega
  obtain rfl := Option.some.inj (found.symm.trans found')
  have names : Names (net.nodes i).app.pickedPath (net.nodes i).app.droppedFiles task.filename :=
    names
  exact names.selected named

/-- However many devices send to each other at once, whatever their users do, and whatever
strangers connect: a send that a window shows as completed has been delivered, under the
name that the window shows. -/
theorem completed_is_delivered
    (run : Run (Steps (Network.step world)) (.new files) actions net) (undoes : world.Undoes actions)
    (shown : (net.nodes i).app.sendStatus = some .completed) :
    ∃ id task link downloadDir, id + 1 = (net.nodes i).tasks.length ∧
      Delivered world files actions net i id task link downloadDir ∧
      (net.nodes i).selectedFilename = link.offer.filename := by
  obtain ⟨id, latest, reported⟩ := Node.shown_reported .completed (node_run run i) shown
  obtain ⟨task, link, downloadDir, delivered⟩ := delivered_of_reported run undoes reported
  exact ⟨id, task, link, downloadDir, latest, delivered,
    shown_offer run shown latest delivered.found delivered.named⟩

/-- A send that a window shows as declined was declined by the receiving user, or with the
receiving window; nothing of it is transferred, now or in any later state. -/
theorem declined_is_refused
    (run : Run (Steps (Network.step world)) (.new files) actions net)
    (shown : (net.nodes i).app.sendStatus = some .declined)
    (more : Run (Steps (Network.step world)) net later after)
    (undoes : world.Undoes (later ++ actions)) :
    ∃ id task link, id + 1 = (net.nodes i).tasks.length ∧ Refused world after i id task link ∧
      (net.nodes i).selectedFilename = link.offer.filename := by
  obtain ⟨id, latest, reported⟩ := Node.shown_reported .declined (node_run run i) shown
  have still := (Node.log_grows (nodes_run more i)).subset reported
  obtain ⟨task, link, refused⟩ := refused_of_reported (run.trans more) undoes still
  obtain ⟨before, _, task', _, known, _, linked, _⟩ := linked_reported run reported
  obtain ⟨link', known', same⟩ := links_stay known more
  obtain rfl := Option.some.inj (refused.known.symm.trans known')
  obtain ⟨answers, prepared⟩ := linked.prepared
  have named := shown_offer run shown latest linked.found (prepared_name prepared)
  exact ⟨id, task, link, latest, refused, named.trans (congrArg Offer.filename same.offer.symm)⟩

theorem links_distinct (run : Run (Steps (Network.step world)) (.new files) actions net) :
    ∀ first second link link', net.links first = some link → net.links second = some link' →
      link.device = link'.device → link.handler = link'.handler → first = second := by
  apply run.history (P := fun _ net => ∀ first second link link', net.links first = some link →
    net.links second = some link' → link.device = link'.device → link.handler = link'.handler →
      first = second)
  · intro first second link link' known
    cases known
  · intro actions before action after run distinct stepped first second link link' known known'
      device handler
    have inv := Network.inv run
    -- a handler that already serves a link is not free
    have taken {key key' : ι × Nat} {link link' : Link ι} {budget : Option Nat}
        (known : before.links key = some link)
        (dialed : stepAt (fun i => Node.step (world.env i)) before.nodes link'.device
          (.connect link'.handler (world.ident key'.1)
            (world.write link'.offer budget).2.written) = some after.nodes)
        (device : link.device = link'.device) : link.handler ≠ link'.handler := by
      intro same
      obtain ⟨_, _, transfer, linked⟩ := inv.linked key.1 key.2 link known
      have serves := linked.handler
      rw [device, same] at serves
      obtain ⟨router, connected, _⟩ := Option.map_eq_some_iff.mp (stepAt_self dialed)
      cases serves.symm.trans (Router.step_connect connected).1
    rcases link_origin stepped known with ⟨earlier, found, same⟩ | ⟨answers, budget, rfl, dialed⟩ <;>
      rcases link_origin stepped known' with
        ⟨earlier', found', same'⟩ | ⟨answers', budget', dials, dialed'⟩
    · refine distinct first second earlier earlier' found found' ?_ ?_
      · rw [← same.device, device, same'.device]
      · rw [← same.handler, handler, same'.handler]
    · exact absurd (same.handler.symm.trans handler)
        (taken found dialed' (same.device.symm.trans device))
    · exact absurd (same'.handler.symm.trans handler.symm)
        (taken found' dialed (same'.device.symm.trans device.symm))
    · injection dials with device task
      exact Prod.ext device task

/-- No delivery is counted twice: two sends that were reported as completed, on one device
or on two, have been received by different handlers, each of which saved its own file. -/
theorem deliveries_distinct
    (run : Run (Steps (Network.step world)) (.new files) actions net) (undoes : world.Undoes actions)
    (first : .task id (.reports (.ok .completed)) ∈ (net.nodes i).log)
    (second : .task id' (.reports (.ok .completed)) ∈ (net.nodes i').log)
    (other : (i, id) ≠ (i', id')) :
    ∃ task link downloadDir task' link' downloadDir',
      Delivered world files actions net i id task link downloadDir ∧
      Delivered world files actions net i' id' task' link' downloadDir' ∧
      (link.device, link.handler) ≠ (link'.device, link'.handler) := by
  obtain ⟨task, link, downloadDir, delivered⟩ := delivered_of_reported run undoes first
  obtain ⟨task', link', downloadDir', delivered'⟩ := delivered_of_reported run undoes second
  refine ⟨task, link, downloadDir, task', link', downloadDir', delivered, delivered', ?_⟩
  intro same
  obtain ⟨device, handler⟩ := Prod.mk.inj same
  exact other (links_distinct run _ _ _ _ delivered.known delivered'.known device handler)

/-- The progress that a window shows for a running send is still zero, or was reported by
the handler that serves it to its own window before. -/
theorem progress_is_reported (run : Run (Steps (Network.step world)) (.new files) actions net)
    (busy : (net.nodes i).app.sendStatus = some .sending) :
    (net.nodes i).sendProgress.value = 0 ∨ ∃ id link, id + 1 = (net.nodes i).tasks.length ∧
      net.links (i, id) = some link ∧ .published (net.nodes i).sendProgress.value true ∈
        ownEvents link.handler (net.nodes link.device).log := by
  rcases (Node.sending_inv (node_run run i)).progress busy with zero | ⟨id, latest, told⟩
  · exact .inl zero
  · refine .inr ⟨id, ?_⟩
    have told := mem_taskEvents.mpr told
    have inv := Network.inv run
    cases known : net.links (i, id) with
    | none => exact absurd told ((inv.unlinked i id known).silent _)
    | some link =>
      obtain ⟨past, task, transfer, linked⟩ := inv.linked i id link known
      have relays := (sender_hears_reports linked.run).subset (linked.tells _ told)
      obtain ⟨event, inside, relays⟩ := List.mem_filterMap.mp (List.mem_reverse.mp relays)
      refine ⟨link, latest, rfl, ?_⟩
      rw [← linked.log]
      exact relays_eq_some.mp relays ▸ inside

end Network

/-- Two devices: `true` sends, and `false` receives. -/
def sampleWorld : World Bool where
  ident device := if device then sampleTicket.addr.id else ⟨7⟩
  resolve _ path := path
  parse := sampleParse
  toString := sampleToString
  decodeString _ := none

def sampleNotes : Offer := ⟨"notes.txt", 12, sampleTicket⟩

def sampleOwn (actions : List Action) : List (NetworkAction Bool) := actions.map (.own true)

def sampleHandles (id : Nat) (events : List Event) : List (NetworkAction Bool) :=
  events.map fun event => .own false (.handler id event)

def sampleReads (id : Nat) (bytes : Bytes) : List (NetworkAction Bool) :=
  bytes.flatMap fun byte => [.arrives true id, .own true (.task id (.sender (.received byte)))]

/-- The sending window selects the other device in its first frame. -/
def sampleSelects : List (NetworkAction Bool) :=
  sampleOwn ([.discovery (.discovered ⟨⟨7⟩, [], some "desk"⟩) [("desk", ⟨⟨7⟩, []⟩)]] ++
    List.replicate 7 (.ui {}) ++ [.ui { clicked := [true] }, .ui {}])

/-- A file is dropped on the window, and the other user sees its offer and decides. -/
def sampleOffered (id : Nat) (target : PathBuf) (offer : Offer) (input : Input) :
    List (NetworkAction Bool) :=
  sampleOwn (List.replicate 8 (.ui {}) ++ [.ui { dropped := [target], length := some 12 }]) ++
  [.dial true id false id offer sampleAnswers none, .own true (.task id .prepared)] ++
  sampleHandles id [.acceptBi true, .read (.ok offer), .offered true] ++
  (sampleFrame input).map (.own false)

/-- The user accepts, and the sending window is told of five bytes. -/
def sampleHalfway (id : Nat) (target : PathBuf) (offer : Offer) : List (NetworkAction Bool) :=
  sampleOffered id target offer sampleAccept ++
  sampleHandles id ([.decided (some (.accept sampleDir)), .wrote 1,
    .existed target (some false), .opened sampleTicket.hash sampleTicket.addr.id true,
    .item (some (.progress 5)), .published 5 true] ++
      (DownloadStatus.progress 5).bytes.map .wrote) ++
  sampleReads id (1 :: (DownloadStatus.progress 5).bytes) ++
  sampleOwn [.task id (.sender (.published 5 true))]

def sampleResult (id : Nat) (outcome : SendOutcome) : List (NetworkAction Bool) :=
  sampleOwn ([.task id (.reports (.ok outcome))] ++ List.replicate 9 (.ui {}))

def sampleDelivery (id : Nat) (target : PathBuf) (offer : Offer) : List (NetworkAction Bool) :=
  sampleHalfway id target offer ++
  sampleHandles id [.item none, .exported sampleTicket.hash target .saved, .replaced 12, .wrote 3] ++
  sampleReads id [3] ++ sampleResult id .completed

def sampleRefusal : List (NetworkAction Bool) :=
  sampleSelects ++ sampleOffered 0 sampleTarget sampleNotes { decline := true } ++
  sampleHandles 0 [.decided (some .decline), .wrote 0] ++ sampleReads 0 [0] ++
  sampleResult 0 .declined

def sampleSending : List (NetworkAction Bool) :=
  sampleSelects ++ sampleHalfway 0 sampleTarget sampleNotes

def sampleSent : List (NetworkAction Bool) :=
  sampleSelects ++ sampleDelivery 0 sampleTarget sampleNotes

def sampleDeliveries : List (NetworkAction Bool) :=
  sampleSent ++ sampleDelivery 1 ⟨utf8 "/home/me/song.ogg"⟩ ⟨"song.ogg", 12, sampleTicket⟩

theorem completed_is_delivered_sample : ∃ net : Network Bool, ∃ task link downloadDir,
    Run (Steps (Network.step sampleWorld)) (.new fun _ => []) sampleSent.reverse net ∧
    Delivered sampleWorld (fun _ => []) sampleSent.reverse net true 0 task link downloadDir ∧
    (net.nodes true).selectedFilename = link.offer.filename := by
  obtain ⟨net, run, shown, single⟩ : ∃ net : Network Bool,
      Run (Steps (Network.step sampleWorld)) (.new fun _ => []) sampleSent.reverse net ∧
      (net.nodes true).app.sendStatus = some .completed ∧ (net.nodes true).tasks.length = 1 := by
    apply execute_reaches
    decide +kernel
  have undoes : sampleWorld.Undoes sampleSent.reverse := by
    unfold World.Undoes
    decide +kernel
  obtain ⟨id, task, link, downloadDir, latest, delivered⟩ :=
    Network.completed_is_delivered run undoes shown
  obtain rfl : id = 0 := by omega
  exact ⟨net, task, link, downloadDir, run, delivered⟩

theorem declined_is_refused_sample : ∃ net : Network Bool, ∃ task link,
    Run (Steps (Network.step sampleWorld)) (.new fun _ => []) sampleRefusal.reverse net ∧
    Refused sampleWorld net true 0 task link := by
  obtain ⟨net, run, shown, single⟩ : ∃ net : Network Bool,
      Run (Steps (Network.step sampleWorld)) (.new fun _ => []) sampleRefusal.reverse net ∧
      (net.nodes true).app.sendStatus = some .declined ∧ (net.nodes true).tasks.length = 1 := by
    apply execute_reaches
    decide +kernel
  have undoes : sampleWorld.Undoes ([] ++ sampleRefusal.reverse) := by
    unfold World.Undoes
    decide +kernel
  obtain ⟨id, task, link, latest, refused, _⟩ :=
    Network.declined_is_refused run shown .start undoes
  obtain rfl : id = 0 := by omega
  exact ⟨net, task, link, run, refused⟩

theorem progress_is_reported_sample : ∃ net : Network Bool, ∃ link,
    Run (Steps (Network.step sampleWorld)) (.new fun _ => []) sampleSending.reverse net ∧
    net.links (true, 0) = some link ∧
    .published 5 true ∈ ownEvents link.handler (net.nodes link.device).log := by
  obtain ⟨net, run, busy, value, single⟩ : ∃ net : Network Bool,
      Run (Steps (Network.step sampleWorld)) (.new fun _ => []) sampleSending.reverse net ∧
      (net.nodes true).app.sendStatus = some .sending ∧
      (net.nodes true).sendProgress.value = 5 ∧ (net.nodes true).tasks.length = 1 := by
    apply execute_reaches
    decide +kernel
  rcases Network.progress_is_reported run busy with zero | ⟨id, link, latest, known, told⟩
  · simp [value] at zero
  · obtain rfl : id = 0 := by omega
    exact ⟨net, link, run, known, value ▸ told⟩

theorem deliveries_distinct_sample : ∃ net : Network Bool,
    ∃ task link downloadDir task' link' downloadDir',
    Run (Steps (Network.step sampleWorld)) (.new fun _ => []) sampleDeliveries.reverse net ∧
    Delivered sampleWorld (fun _ => []) sampleDeliveries.reverse net true 0 task link downloadDir ∧
    Delivered sampleWorld (fun _ => []) sampleDeliveries.reverse net true 1 task' link' downloadDir' ∧
    (link.device, link.handler) ≠ (link'.device, link'.handler) := by
  obtain ⟨net, run, first, second⟩ : ∃ net : Network Bool,
      Run (Steps (Network.step sampleWorld)) (.new fun _ => []) sampleDeliveries.reverse net ∧
      .task 0 (.reports (.ok .completed)) ∈ (net.nodes true).log ∧
      .task 1 (.reports (.ok .completed)) ∈ (net.nodes true).log := by
    apply execute_reaches
    decide +kernel
  have undoes : sampleWorld.Undoes sampleDeliveries.reverse := by
    unfold World.Undoes
    decide +kernel
  obtain ⟨task, link, downloadDir, task', link', downloadDir', delivered, delivered', other⟩ :=
    Network.deliveries_distinct run undoes first second (by decide)
  exact ⟨net, task, link, downloadDir, task', link', downloadDir', run, delivered, delivered', other⟩

end IrohShare
