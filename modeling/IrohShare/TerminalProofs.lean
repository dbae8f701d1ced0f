import IrohShare.Terminal
import IrohShare.CliProofs
import IrohShare.Offering

/-! The loop of `Command::Receive` among its handlers. It takes the requests in the order
in which they were handed over, its decisions are those of `receive` on that list, and a
handler transfers what was confirmed, when it was confirmed with a 'y', and nothing else. -/
namespace IrohShare
open Wire Unix Channel Transition Buffered

variable {env : Env} {downloadDir : PathBuf} {files : List PathBuf} {stdin : List Bytes}
  {past : List TerminalAction} {terminal after : Terminal} {id : Nat} {log : List Entry}

def Entry.decision : Entry → Option (Nat × OfferDecision)
  | .modal request (some decision) => some (request.2, decision)
  | _ => none

def decisions (log : List Entry) : List (Nat × OfferDecision) := collect Entry.decision log

def unread (stdin : List Bytes) : Nat → List Bytes
  | 0 => stdin
  | count + 1 => unread (confirm stdin).2 count

/-- One more request, after requests that were all decided. -/
theorem receive_concat (done : receive downloadDir requests stdin = (decided, .ok ()))
    (request : OfferRequest) : receive downloadDir (requests ++ [request]) stdin =
      match (confirm (unread stdin requests.length)).1 with
      | .ok accepted => (decided ++ [(request.2, .ofAnswer downloadDir accepted)], .ok ())
      | .error error => (decided, .error error) := by
  induction requests generalizing stdin decided with
  | nil =>
    cases done
    obtain ⟨offer, reply⟩ := request
    simp only [List.nil_append, receive, List.length_nil, unread]
    cases answered : confirm stdin with
    | mk result rest => cases result <;> rfl
  | cons first requests ih =>
    obtain ⟨offer, reply⟩ := first
    simp only [List.cons_append, receive, List.length_cons, unread] at done ⊢
    cases answered : confirm stdin with
    | mk result rest =>
      cases result with
      | error error =>
        rw [answered] at done
        cases done
      | ok accepted =>
        rw [answered] at done
        simp only [Prod.mk.injEq] at done
        obtain ⟨rfl, ended⟩ := done
        have more := ih (Prod.ext rfl ended)
        simp only [more]
        cases (confirm (unread rest requests.length)).1 <;> rfl

theorem unread_succ (stdin : List Bytes) (count : Nat) :
    unread stdin (count + 1) = (confirm (unread stdin count)).2 := by
  induction count generalizing stdin with
  | zero => rfl
  | succ count ih => exact ih (confirm stdin).2

/-- Without the window, it does not matter which request is on display. -/
theorem Receiving.Move.redisplay {side next : Receiving}
    (move : Receiving.Move parse due side action next) (background : action.background = true)
    (pending : Option OfferRequest) :
    Receiving.Move parse due { side with pending } action { next with pending } := by
  cases move with
  | idle => exact .idle _ _
  | noted action entry quiet => exact .noted { side with pending } action entry quiet
  | waited elapsed => exact .waited { side with pending } elapsed
  | connected id remote incoming free =>
    exact .connected { side with pending } id remote incoming free
  | handled id event connection next known moved answers silent unoffered =>
    exact .handled { side with pending } id event connection next known moved
      (by cases event with
        | decided decision => cases decision <;> exact answers
        | _ => trivial) silent unoffered
  | offered id offer connection next known state moved isOpen room =>
    exact .offered { side with pending } id offer connection next known state moved isOpen room
  | posted id event bytes connection next known moved posts =>
    exact .posted { side with pending } id event bytes connection next known moved posts
  | pulled | polled | aged | asked | declined | accepted | closed => cases background

/-- What the background does to the history: at most one entry, which decides nothing. -/
structure Background (before after : Node) : Prop where
  isOpen : after.isOpen = before.isOpen
  answered : answered after.log = answered before.log
  decisions : decisions after.log = decisions before.log
  enqueued : enqueued before.log <+: enqueued after.log

theorem Background.of_entry {before after : Node} {entry : Entry}
    (isOpen : after.isOpen = before.isOpen)
    (log : after.log = entry :: before.log) (unanswered : entry.answered = none)
    (undecided : entry.decision = none) : Background before after where
  isOpen := isOpen
  answered := by rw [log, answered_cons, unanswered, Option.toList_none, List.append_nil]
  decisions := by rw [log, IrohShare.decisions, collect_silent undecided]; rfl
  enqueued := by rw [log, enqueued_cons]; exact List.prefix_append _ _

theorem Background.of_same {before after : Node} (isOpen : after.isOpen = before.isOpen)
    (log : after.log = before.log) : Background before after where
  isOpen := isOpen
  answered := by rw [log]
  decisions := by rw [log]
  enqueued := by simp only [log, List.prefix_rfl]

theorem Node.step_background {node next : Node} (stepped : node.step env action = some next)
    (background : action.background = true) : Background node next := by
  cases step_move stepped with
  | connected | ended | waited => exact .of_same rfl rfl
  | handled | offered | posted | ignored | announced => exact .of_entry rfl rfl rfl rfl
  | framed | worked | published | reported | closed => cases background

/-- Whether ctrl-c has ended the loop, and whether its signal came without an error. -/
def interrupt (past : List TerminalAction) : Option Bool := past.findSome? fun
  | .ctrlC ok => some ok
  | _ => none

/-- Where the loop stands after a ctrl-c, or after confirmations with this result, when
this request has been taken and not been confirmed. -/
def ReceiveLoop.standing : Option Bool → Except Error Unit → Option OfferRequest → ReceiveLoop
  | some ok, _, _ => .ended (if ok then .ok () else .error .io)
  | none, .error error, _ => .ended (.error error)
  | none, .ok (), some request => .confirming request
  | none, .ok (), none => .selecting

namespace Terminal

/-- The receiving side, with the request that is being confirmed in place of the modal's. -/
def receiving (terminal : Terminal) : Receiving :=
  { terminal.runtime.receiving with pending := terminal.loop.request }

/-- What the loop does, and its background. -/
inductive Move (env : Env) (downloadDir : PathBuf) (terminal : Terminal) :
    TerminalAction → Terminal → Prop where
  | runtime (action : Action) (runtime : Node) (background : action.background = true)
      (stepped : terminal.runtime.step env action = some runtime) :
      Move env downloadDir terminal (.runtime action) { terminal with runtime }
  | takes (request : OfferRequest) (offers : List OfferRequest)
      (selecting : terminal.loop = .selecting)
      (queued : terminal.runtime.offers = request :: offers) :
      Move env downloadDir terminal .takes
        { terminal with
          runtime := { terminal.runtime with offers }
          loop := .confirming request }
  | failed (request : OfferRequest) (error : Error) (stdin : List Bytes)
      (confirming : terminal.loop = .confirming request)
      (answered : confirm terminal.stdin = (.error error, stdin)) :
      Move env downloadDir terminal .confirms ({ terminal with stdin }.finish (.error error))
  | decided (offer : Offer) (id : Nat) (accepted : Bool) (stdin : List Bytes)
      (confirming : terminal.loop = .confirming (offer, id))
      (answered : confirm terminal.stdin = (.ok accepted, stdin)) :
      Move env downloadDir terminal .confirms
        { runtime := { terminal.runtime with
            replies := Function.update terminal.runtime.replies id
              (some (.ofAnswer downloadDir accepted))
            log := .modal (offer, id) (some (.ofAnswer downloadDir accepted)) ::
              terminal.runtime.log }
          loop := .selecting
          stdin }
  | ended (ok : Bool) (selecting : terminal.loop = .selecting) :
      Move env downloadDir terminal (.ctrlC ok)
        (terminal.finish (if ok then .ok () else .error .io))

theorem step_move (stepped : terminal.step env downloadDir action = some after) :
    Move env downloadDir terminal action after := by
  cases action with
  | runtime action =>
    simp only [step] at stepped
    split at stepped
    · rename_i background
      obtain ⟨runtime, moved, rfl⟩ := Option.map_eq_some_iff.mp stepped
      exact .runtime action runtime background moved
    · cases stepped
  | takes =>
    simp only [step] at stepped
    split at stepped <;> cases stepped
    rename_i request offers selecting queued
    exact .takes request offers selecting queued
  | confirms =>
    obtain ⟨⟨offer, id⟩, confirming, rfl⟩ := Option.map_eq_some_iff.mp stepped
    have confirming : terminal.loop = .confirming (offer, id) := by
      unfold ReceiveLoop.request at confirming
      split at confirming <;> cases confirming
      assumption
    cases answered : confirm terminal.stdin with
    | mk result stdin =>
      cases result with
      | error error =>
        simp only [conclude, answered]
        exact .failed (offer, id) error stdin confirming answered
      | ok accepted =>
        simp only [conclude, answered]
        exact .decided offer id accepted stdin confirming answered
  | ctrlC ok =>
    simp only [step] at stepped
    split at stepped <;> cases stepped
    rename_i selecting
    exact .ended ok selecting

/-- The loop follows `receive`. The requests taken are those handed over first, as their
handlers have read them, and the decisions are those of `receive` on the ones whose
confirmation has returned. The loop has ended by ctrl-c, or with an error exactly if
`receive` fails on these; else it confirms the next request taken, or waits for one. Ctrl-c
only comes between two confirmations. -/
structure Follows (downloadDir : PathBuf) (stdin : List Bytes) (past : List TerminalAction)
    (terminal : Terminal) (taken : List OfferRequest) : Prop where
  order : taken.map Prod.snd <+: enqueued terminal.runtime.log
  read : ∀ offer id, (offer, id) ∈ taken → .read (.ok offer) ∈ ownEvents id terminal.runtime.log
  takes : taken.length = past.count .takes
  decided : (receive downloadDir (taken.take (past.count .confirms)) stdin).1 =
    decisions terminal.runtime.log
  loop : terminal.loop = .standing (interrupt past)
    (receive downloadDir (taken.take (past.count .confirms)) stdin).2
    taken[past.count .confirms]?
  between : ∀ ok, interrupt past = some ok → past.count .confirms = past.count .takes ∧
    (receive downloadDir taken stdin).2 = .ok ()

/-- The requests taken, by the state of the loop: those decided, and one more while it is
confirmed or once its confirmation has failed. -/
inductive Stage (downloadDir : PathBuf) (stdin : List Bytes) (stopped : Option Bool)
    (takes confirms : Nat) (decided : List OfferRequest) (made : List (Nat × OfferDecision)) :
    ReceiveLoop → List OfferRequest → Prop where
  | selecting (running : stopped = none) (takes : takes = decided.length)
      (confirms : confirms = decided.length) :
      Stage downloadDir stdin stopped _ _ decided made .selecting decided
  | confirming (request : OfferRequest) (running : stopped = none)
      (takes : takes = decided.length + 1) (confirms : confirms = decided.length) :
      Stage downloadDir stdin stopped _ _ decided made (.confirming request) (decided ++ [request])
  | interrupted (ok : Bool) (stopped : stopped = some ok) (takes : takes = decided.length)
      (confirms : confirms = decided.length) :
      Stage downloadDir stdin _ _ _ decided made (.ended (if ok then .ok () else .error .io)) decided
  | failed (request : OfferRequest) (error : Error) (running : stopped = none)
      (takes : takes = decided.length + 1) (confirms : confirms = decided.length + 1)
      (fails : receive downloadDir (decided ++ [request]) stdin = (made, .error error)) :
      Stage downloadDir stdin stopped _ _ decided made (.ended (.error error)) (decided ++ [request])

structure Inv (downloadDir : PathBuf) (stdin : List Bytes) (past : List TerminalAction)
    (terminal : Terminal) (taken : List OfferRequest) : Prop where
  order : taken.map Prod.snd <+: enqueued terminal.runtime.log
  read : ∀ offer id, (offer, id) ∈ taken → .read (.ok offer) ∈ ownEvents id terminal.runtime.log
  stage : Stage downloadDir stdin (interrupt past) (past.count .takes) (past.count .confirms)
    (answered terminal.runtime.log) (decisions terminal.runtime.log) terminal.loop taken
  decided : receive downloadDir (answered terminal.runtime.log) stdin =
    (decisions terminal.runtime.log, .ok ())
  side : terminal.receiving.Inv
  offering : terminal.receiving.Offering
  running : (∀ result, terminal.loop ≠ .ended result) → terminal.runtime.isOpen = true
  reads : (∀ result, terminal.loop ≠ .ended result) →
    terminal.stdin = unread stdin (answered terminal.runtime.log).length

variable {taken : List OfferRequest}

/-- The requests taken so far determine where the loop stands. -/
theorem Inv.follows (inv : terminal.Inv downloadDir stdin past taken) :
    terminal.Follows downloadDir stdin past taken := by
  have decided := inv.decided
  have stage := inv.stage
  have facts : taken.length = past.count .takes ∧
      (receive downloadDir (taken.take (past.count .confirms)) stdin).1 =
        decisions terminal.runtime.log ∧
      terminal.loop = .standing (interrupt past)
        (receive downloadDir (taken.take (past.count .confirms)) stdin).2
        taken[past.count .confirms]? ∧
      ∀ ok, interrupt past = some ok → past.count .confirms = past.count .takes ∧
        (receive downloadDir taken stdin).2 = .ok () := by
    generalize terminal.loop = loop at stage
    cases stage with
    | selecting running takes confirms =>
      simp [running, takes, confirms, decided, ReceiveLoop.standing]
    | confirming request running takes confirms =>
      simp [running, takes, confirms, decided, ReceiveLoop.standing]
    | interrupted ok stopped takes confirms =>
      simp [stopped, takes, confirms, decided, ReceiveLoop.standing]
    | failed request error running takes confirms fails =>
      have all : (answered terminal.runtime.log ++ [request]).take (past.count .confirms) =
          answered terminal.runtime.log ++ [request] := List.take_of_length_le (by simp [confirms])
      rw [all]
      simp [running, takes, confirms, fails, ReceiveLoop.standing]
  exact ⟨inv.order, inv.read, facts.1, facts.2.1, facts.2.2.1, facts.2.2.2⟩

theorem Inv.background {runtime : Node} (inv : terminal.Inv downloadDir stdin past taken)
    (background : action.background = true)
    (stepped : terminal.runtime.step env action = some runtime) :
    Inv downloadDir stdin (.runtime action :: past) { terminal with runtime } taken := by
  have kept := Node.step_background stepped background
  have move := (Node.step_receiving stepped).redisplay background terminal.loop.request
  have takes : (TerminalAction.runtime action :: past).count .takes = past.count .takes :=
    List.count_cons_of_ne (by simp)
  have confirms : (TerminalAction.runtime action :: past).count .confirms = past.count .confirms :=
    List.count_cons_of_ne (by simp)
  constructor
  case order => exact inv.order.trans kept.enqueued
  case read =>
    intro offer id inside
    have grown := Node.log_grows (.next .start stepped)
    exact (grown.sublist.filterMap _).subset (inv.read offer id inside)
  case stage =>
    rw [kept.answered, kept.decisions, takes, confirms]
    exact inv.stage
  case decided =>
    rw [kept.answered, kept.decisions]
    exact inv.decided
  case side => exact inv.side.next move
  case offering =>
    refine inv.offering.next inv.side move ?_
    rintro id rfl
    exact Node.refused_closed stepped
  case running => exact fun going => kept.isOpen.trans (inv.running going)
  case reads =>
    intro going
    rw [kept.answered]
    exact inv.reads going

theorem Inv.take {offers : List OfferRequest} (inv : terminal.Inv downloadDir stdin past taken)
    (selecting : terminal.loop = .selecting)
    (queued : terminal.runtime.offers = request :: offers) :
    Inv downloadDir stdin (.takes :: past)
      { terminal with
        runtime := { terminal.runtime with offers }
        loop := .confirming request } (taken ++ [request]) := by
  have going (result : Except Error Unit) : terminal.loop ≠ .ended result := by simp [selecting]
  have empty : terminal.receiving.pending = none := by rw [receiving, selecting]; rfl
  have move : Receiving.Move (fun _ => none) .refreshOffers terminal.receiving (.ui {}) _ :=
    .pulled terminal.receiving {} request offers (inv.running going) empty queued
  have offers_eq : terminal.receiving.offers = request :: offers := queued
  have requests : terminal.receiving.requests = request :: offers := by
    rw [Receiving.requests, empty, offers_eq, Option.toList_none, List.nil_append]
  have stage := inv.stage
  rw [selecting] at stage
  cases stage with
  | selecting running takes confirms =>
    constructor
    case order =>
      have order : enqueued terminal.runtime.log =
          (answered terminal.runtime.log ++ terminal.receiving.requests).map Prod.snd :=
        inv.offering.order (inv.running going)
      refine ⟨offers.map Prod.snd, ?_⟩
      rw [order, requests]
      simp
    case read =>
      intro offer id inside
      rcases List.mem_append.mp inside with old | new
      · exact inv.read offer id old
      · rw [List.mem_singleton] at new
        obtain ⟨_, connection, known, state⟩ := inv.side.waiting offer id
          (by rw [requests, new]; exact .head _)
        have stage := (inv.side.facts id connection known).stage
        rw [state] at stage
        exact stage.2.1
    case stage =>
      exact .confirming request running ((List.count_cons_self).trans (congrArg (· + 1) takes))
        ((List.count_cons_of_ne (by simp)).trans confirms)
    case decided => exact inv.decided
    case side => exact inv.side.next move
    case offering =>
      refine inv.offering.next inv.side move ?_
      rintro id ⟨⟩
    case running => exact fun _ => inv.running going
    case reads => exact fun _ => inv.reads going

theorem Inv.close (inv : terminal.Inv downloadDir stdin past taken) (action : TerminalAction)
    (left : List Bytes) (result : Except Error Unit)
    (stage : Stage downloadDir stdin (interrupt (action :: past)) ((action :: past).count .takes)
      ((action :: past).count .confirms) (answered terminal.runtime.log)
      (decisions terminal.runtime.log) (.ended result) taken) :
    Inv downloadDir stdin (action :: past) ({ terminal with stdin := left }.finish result)
      taken := by
  have move : Receiving.Move (fun _ => none) .refreshOffers terminal.receiving .close _ :=
    .closed terminal.receiving
  constructor
  case order => exact inv.order
  case read => exact inv.read
  case stage => exact stage
  case decided => exact inv.decided
  case side => exact inv.side.next move
  case offering =>
    refine inv.offering.next inv.side move ?_
    rintro id ⟨⟩
  case running => exact fun going => absurd rfl (going _)
  case reads => exact fun going => absurd rfl (going _)

theorem Inv.conclude (inv : terminal.Inv downloadDir stdin past taken)
    (confirming : terminal.loop = .confirming (offer, id))
    (confirmed : confirm terminal.stdin = (.ok accepted, left)) :
    Inv downloadDir stdin (.confirms :: past)
      { runtime := { terminal.runtime with
          replies := Function.update terminal.runtime.replies id
            (some (.ofAnswer downloadDir accepted))
          log := .modal (offer, id) (some (.ofAnswer downloadDir accepted)) ::
            terminal.runtime.log }
        loop := .selecting
        stdin := left } taken := by
  have going (result : Except Error Unit) : terminal.loop ≠ .ended result := by simp [confirming]
  have pending : terminal.receiving.pending = some (offer, id) := by
    rw [receiving, confirming]
    rfl
  have reads := inv.reads going
  have decided := receive_concat inv.decided (offer, id)
  rw [← reads, confirmed] at decided
  have answers : answered (.modal (offer, id) (some (.ofAnswer downloadDir accepted)) ::
      terminal.runtime.log) = answered terminal.runtime.log ++ [(offer, id)] := answered_cons _
  have stage := inv.stage
  rw [confirming] at stage
  cases stage with
  | confirming _ running takes confirms =>
    constructor
    case order =>
      have order := inv.order
      rw [enqueued_cons]
      simpa [Entry.enqueued] using order
    case read => simpa using inv.read
    case stage =>
      rw [← answers]
      refine .selecting running ((List.count_cons_of_ne (by simp)).trans ?_)
        (List.count_cons_self.trans ?_)
      · rw [takes, answers, List.length_append, List.length_singleton]
      · rw [confirms, answers, List.length_append, List.length_singleton]
    case decided =>
      have made : decisions (.modal (offer, id) (some (.ofAnswer downloadDir accepted)) ::
          terminal.runtime.log) = decisions terminal.runtime.log ++
            [(id, .ofAnswer downloadDir accepted)] := collect_cons _ _
      rw [answers, decided]
      exact Prod.ext made.symm rfl
    case side =>
      exact inv.side.answer pending _ terminal.receiving.seen inv.side.behind
        terminal.receiving.status
    case offering =>
      exact inv.offering.answer inv.side pending _ terminal.receiving.seen
        terminal.receiving.status
    case running => exact fun _ => inv.running going
    case reads =>
      intro _
      rw [answers, List.length_append, List.length_singleton, unread_succ, ← reads, confirmed]

theorem inv (run : Run (Steps (Terminal.step env downloadDir)) (.new files stdin) past terminal) :
    ∃ taken, terminal.Inv downloadDir stdin past taken := by
  apply run.history (P := fun past terminal => ∃ taken, terminal.Inv downloadDir stdin past taken)
  · refine ⟨[], ?_⟩
    constructor
    case order => exact List.nil_prefix
    case read =>
      intro offer id inside
      cases inside
    case stage => exact .selecting rfl rfl rfl
    case decided => rfl
    case side => exact Receiving.Inv.initial files
    case offering =>
      exact Node.offering_inv (.start : Run (Steps (Node.step env)) (.new files) [] (.new files))
    case running => exact fun _ => rfl
    case reads => exact fun _ => rfl
  · rintro past before action after run ⟨taken, inv⟩ stepped
    have stage := inv.stage
    cases step_move stepped with
    | runtime action runtime background moved => exact ⟨taken, inv.background background moved⟩
    | takes request offers selecting queued => exact ⟨taken ++ [request], inv.take selecting queued⟩
    | failed request error left confirming confirmed =>
      have going (result : Except Error Unit) : before.loop ≠ .ended result := by simp [confirming]
      have failed := receive_concat inv.decided request
      rw [← inv.reads going, confirmed] at failed
      rw [confirming] at stage
      cases stage with
      | confirming _ running takes confirms =>
        refine ⟨_, inv.close .confirms left _ (.failed request error running ?_ ?_ failed)⟩
        · exact (List.count_cons_of_ne (by simp)).trans takes
        · exact List.count_cons_self.trans (congrArg (· + 1) confirms)
    | decided offer id accepted left confirming confirmed =>
      exact ⟨taken, inv.conclude confirming confirmed⟩
    | ended ok selecting =>
      rw [selecting] at stage
      cases stage with
      | selecting running takes confirms =>
        refine ⟨_, inv.close (.ctrlC ok) before.stdin _ (.interrupted ok rfl ?_ ?_)⟩
        · exact (List.count_cons_of_ne (by simp)).trans takes
        · exact (List.count_cons_of_ne (by simp)).trans confirms

end Terminal

/-- However connections, handlers and confirmations interleave, and however standard input
arrives: receive mode takes and decides the offers as `receive` does, and ends as it does,
or by ctrl-c. -/
theorem receive_mode_follows
    (run : Run (Steps (Terminal.step env downloadDir)) (.new files stdin) past terminal) :
    ∃ taken, terminal.Follows downloadDir stdin past taken := by
  obtain ⟨taken, inv⟩ := Terminal.inv run
  exact ⟨taken, inv.follows⟩

/-- A request and its decision stand at the same place of the two lists. -/
theorem decision_index (inside : .modal request (some decision) ∈ log) :
    ∃ k : Nat, (answered log)[k]? = some request ∧
      (decisions log)[k]? = some (request.2, decision) := by
  have paired (log : List Entry) :
      (decisions log).map Prod.fst = (answered log).map Prod.snd := by
    induction log with
    | nil => rfl
    | cons entry log ih =>
      rw [decisions, collect_cons, answered_cons, List.map_append, List.map_append]
      refine congrArg₂ _ ih ?_
      cases entry with
      | modal request decision => cases decision <;> rfl
      | _ => rfl
  induction log with
  | nil => cases inside
  | cons entry log ih =>
    rw [decisions, collect_cons, answered_cons]
    rcases List.mem_cons.mp inside with rfl | inside
    · have size := congrArg List.length (paired log)
      rw [List.length_map, List.length_map] at size
      refine ⟨(answered log).length, ?_, ?_⟩
      · exact List.getElem?_concat_length
      · rw [← size]
        exact List.getElem?_concat_length
    · obtain ⟨k, request, decided⟩ := ih inside
      refine ⟨k, ?_, ?_⟩
      · rw [List.getElem?_append_left (List.getElem?_eq_some_iff.mp request).1, request]
      · rw [← decided]
        exact List.getElem?_append_left (List.getElem?_eq_some_iff.mp decided).1

/-- Receive mode only ever accepts into its own folder. -/
theorem receive_accepts (inside : (id, .accept path) ∈ (receive downloadDir requests stdin).1) :
    path = downloadDir := by
  induction requests generalizing stdin with
  | nil => cases inside
  | cons request requests ih =>
    obtain ⟨offer, other⟩ := request
    rw [receive] at inside
    split at inside
    · cases inside
    · rename_i accepted rest _
      rcases List.mem_cons.mp inside with same | inside
      · cases accepted <;> cases same
        rfl
      · exact ih inside

/-- What a handler transfers in receive mode serves an offer of its own remote end that was
confirmed, as the k-th one taken, into the folder of the command line. Where standard input
arrives by lines, the k-th line of it is the 'y'. -/
structure Confirmed (downloadDir : PathBuf) (stdin : List Bytes) (terminal : Terminal) (id : Nat)
    (offer : Offer) (k : Nat) : Prop where
  read : .read (.ok offer) ∈ ownEvents id terminal.runtime.log
  genuine : ∃ connection, terminal.runtime.router.handlers id = some connection ∧
    offer.ticket.addr.id = connection.remote
  taken : (answered terminal.runtime.log)[k]? = some (offer, id)
  accepted : (decisions terminal.runtime.log)[k]? = some (id, .accept downloadDir)
  line : ∀ text, stdin.flatten = utf8 text → (∀ chunk ∈ stdin, newline ∉ chunk.dropLast) →
    answer (nthLine newline k (utf8 text)) = .ok true

theorem receive_mode_confirms
    (run : Run (Steps (Terminal.step env downloadDir)) (.new files stdin) past terminal)
    (inside : event ∈ ownEvents id terminal.runtime.log) (transfer : event.isTransfer = true) :
    ∃ offer target k, Confirmed downloadDir stdin terminal id offer k ∧
      targetOf downloadDir offer = some target ∧ event.Serves offer target := by
  obtain ⟨_, inv⟩ := Terminal.inv run
  obtain ⟨connection, known⟩ := inv.side.handler_of_event inside
  have facts := inv.side.facts id connection known
  obtain ⟨offer, path, target, approved, found, serves⟩ := facts.transfers event inside transfer
  obtain ⟨_, shown, modal⟩ := inv.side.replied id _ (inv.side.decided id _ approved.chosen)
  obtain rfl := facts.oneOffer _ _ approved.read (inv.side.answered shown id _ modal).2
  have modal : .modal (offer, id) (some (.accept path)) ∈ terminal.runtime.log := modal
  obtain ⟨k, taken, accepted⟩ := decision_index modal
  have decided := inv.decided
  have member : (id, .accept path) ∈
      (receive downloadDir (answered terminal.runtime.log) stdin).1 := by
    rw [decided]
    exact List.mem_of_getElem? accepted
  obtain rfl := receive_accepts member
  refine ⟨offer, target, k, ⟨approved.read, ⟨connection, known, approved.authentic⟩, taken,
    accepted, fun text whole apart => ?_⟩, found, serves⟩
  have byLine : ByLine path (answered terminal.runtime.log) (utf8 text)
      (receive path (answered terminal.runtime.log) stdin) := receive_apart text whole apart
  rw [decided, ByLine, Prod.mk.injEq] at byLine
  rw [byLine.1, List.getElem?_mapIdx, taken, Option.map_some] at accepted
  simp only [Option.some.injEq, Prod.mk.injEq, true_and] at accepted
  unfold decides at accepted
  split at accepted
  · assumption
  · cases accepted

def sampleCommand : List TerminalAction :=
  (sampleConnect 0 sampleOffer).map .runtime ++ [.takes, .confirms] ++
  ((sampleReceive.drop 3).map (.handler 0)).map .runtime ++ [.ctrlC true]

theorem sampleCommand_run : ∃ terminal : Terminal,
    Run (Steps (Terminal.step sampleEnv sampleDir)) (.new [] [utf8 "y\n"])
      sampleCommand.reverse terminal ∧
    ownEvents 0 terminal.runtime.log = sampleReceive.reverse ∧
    terminal.loop = .ended (.ok ()) ∧ decisions terminal.runtime.log = [(0, .accept sampleDir)] := by
  apply execute_reaches
  decide +kernel

theorem receive_mode_follows_sample : ∃ terminal : Terminal,
    decisions terminal.runtime.log = [(0, .accept sampleDir)] ∧
    ∃ taken, terminal.Follows sampleDir [utf8 "y\n"] sampleCommand.reverse taken := by
  obtain ⟨terminal, run, _, _, made⟩ := sampleCommand_run
  exact ⟨terminal, made, receive_mode_follows run⟩

theorem receive_mode_confirms_sample : ∃ terminal : Terminal, ∃ offer target k,
    Confirmed sampleDir [utf8 "y\n"] terminal 0 offer k ∧
      targetOf sampleDir offer = some target ∧ sampleExport.Serves offer target := by
  obtain ⟨terminal, run, own, _⟩ := sampleCommand_run
  have inside : sampleExport ∈ ownEvents 0 terminal.runtime.log := by
    rw [own]
    decide
  exact ⟨terminal, receive_mode_confirms run inside rfl⟩

end IrohShare
