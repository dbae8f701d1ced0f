import IrohShare.Approval

/-! Offers between the network and the user: each waits with its handler, in the
channel or on display until the user decides it, in the order they came. -/
namespace IrohShare
open Wire Unix Channel Transition

variable {env : Env} {files : List PathBuf} {past : List Action} {node : Node}
  {id : Nat} {log : List Entry}

namespace Entry

def enqueued : Entry → Option Nat
  | .handler id (.offered true) => some id
  | _ => none

def answered : Entry → Option OfferRequest
  | .modal request (some _) => some request
  | _ => none

theorem quiet_offering {entry : Entry} (quiet : entry.quiet = true) :
    entry.enqueued = none ∧ entry.answered = none := by
  cases entry with
  | handler | modal => cases quiet
  | _ => exact ⟨rfl, rfl⟩

theorem enqueued_other {event : Event} (other : event ≠ .offered true) :
    (Entry.handler id event).enqueued = none := by
  cases event with
  | offered ok =>
      cases ok with
      | true => exact absurd rfl other
      | false => rfl
  | _ => rfl

end Entry

def enqueued (log : List Entry) : List Nat := (log.filterMap Entry.enqueued).reverse

def answered (log : List Entry) : List OfferRequest := (log.filterMap Entry.answered).reverse

/-- What a handler's reply channel has given it. -/
def Event.decision : Event → Option (Option OfferDecision)
  | .decided decision => some decision
  | _ => none

def received (id : Nat) (log : List Entry) : List (Option OfferDecision) :=
  (ownEvents id log).filterMap Event.decision

theorem enqueued_cons (entry : Entry) :
    enqueued (entry :: log) = enqueued log ++ entry.enqueued.toList := by
  unfold enqueued
  rw [List.filterMap_cons]
  cases entry.enqueued <;> simp

theorem answered_cons (entry : Entry) :
    answered (entry :: log) = answered log ++ entry.answered.toList := by
  unfold answered
  rw [List.filterMap_cons]
  cases entry.answered <;> simp

theorem mem_answered : request ∈ answered log ↔ ∃ decision, .modal request (some decision) ∈ log := by
  rw [answered, List.mem_reverse, List.mem_filterMap]
  constructor
  · rintro ⟨entry, inside, found⟩
    cases entry with
    | modal request decision =>
        cases decision <;> cases found
        exact ⟨_, inside⟩
    | _ => cases found
  · rintro ⟨decision, inside⟩
    exact ⟨_, inside, rfl⟩

theorem received_nil (undecided : ∀ decision, .decided decision ∉ ownEvents id log) :
    received id log = [] := by
  rw [received, List.filterMap_eq_nil_iff]
  intro event inside
  cases event with
  | decided decision => exact absurd inside (undecided decision)
  | _ => rfl

theorem received_of_own (same : ownEvents id longer = ownEvents id log) :
    received id longer = received id log := by
  rw [received, same, received]

theorem received_self (event : Event) :
    received id (.handler id event :: log) = event.decision.toList ++ received id log := by
  rw [received, ownEvents_self, List.filterMap_cons, received]
  cases event.decision <;> rfl

namespace Receiving

/-- Still waiting for the decision it was sent, or has received exactly that one. -/
def Delivers (side : Receiving) (id : Nat) (decision : OfferDecision) : Prop :=
  ∃ connection, side.handlers id = some connection ∧
    ((∃ offer, connection.state = .deciding offer) ∧ received id side.log = [] ∨
      received id side.log = [some decision])

structure Offering (side : Receiving) : Prop where
  bounded : side.offers.length ≤ 10
  held : side.isOpen = true → ∀ id connection offer, side.handlers id = some connection →
    .read (.ok offer) ∈ ownEvents id side.log → offer.ticket.addr.id = connection.remote →
    connection.state = .offering offer ∨ (offer, id) ∈ side.requests ∨
      ∃ decision, side.replies id = some decision
  order : side.isOpen = true →
    enqueued side.log = (answered side.log ++ side.requests).map Prod.snd
  once : ((answered side.log).map Prod.snd).Nodup
  undropped : side.isOpen = true → ∀ id, .decided none ∉ ownEvents id side.log
  delivers : ∀ id decision, side.replies id = some decision → side.Delivers id decision

variable {side after : Receiving}

theorem Offering.frame (offering : side.Offering) (handlers : after.handlers = side.handlers)
    (isOpen : after.isOpen = side.isOpen) (requests : after.requests = side.requests)
    (replies : after.replies = side.replies) (bounded : after.offers.length ≤ 10)
    (own : ∀ id, ownEvents id after.log = ownEvents id side.log)
    (enqueues : enqueued after.log = enqueued side.log)
    (answers : answered after.log = answered side.log) : after.Offering where
  bounded := bounded
  held := by simpa only [handlers, isOpen, requests, replies, own] using offering.held
  order := by simpa only [isOpen, requests, enqueues, answers] using offering.order
  once := by simpa only [answers] using offering.once
  undropped := by simpa only [isOpen, own] using offering.undropped
  delivers := by
    intro id decision replied
    obtain ⟨connection, known, delivers⟩ := offering.delivers id decision (replies ▸ replied)
    exact ⟨connection, handlers ▸ known, by simpa only [received_of_own (own id)] using delivers⟩

/-- Where the offer of the handler that moves is afterwards. -/
theorem Offering.held_next (offering : side.Offering) (isOpen : side.isOpen = true)
    (known : side.handlers id = some connection)
    (moved : connection.step parse event = some next)
    (refused : event = .offered false → side.isOpen = false)
    (read : .read (.ok offer) ∈ event :: ownEvents id side.log)
    (authentic : offer.ticket.addr.id = connection.remote) :
    next.state = .offering offer ∨ event = .offered true ∧ connection.state = .offering offer ∨
      (offer, id) ∈ side.requests ∨ ∃ decision, side.replies id = some decision := by
  obtain ⟨_, move, _⟩ := Connection.step_move moved
  rcases List.mem_cons.mp read with same | old
  · subst same
    generalize connection.state = before, next.state = state at move
    cases move with
    | read => exact .inl rfl
    | notAllowed _ foreign => exact absurd authentic foreign
    | downloading move => cases move
  · rcases offering.held isOpen id connection offer known old authentic with state | elsewhere
    · rw [state] at move
      generalize next.state = later at move
      cases move with
      | lost => exact .inl rfl
      | offered => exact .inr (.inl ⟨rfl, state⟩)
      | unoffered => cases isOpen.symm.trans (refused rfl)
    · exact .inr (.inr elsewhere)

theorem Offering.delivers_next (offering : side.Offering) (inv : side.Inv)
    (known : side.handlers id = some connection)
    (moved : connection.step parse event = some next) (answers : side.Answers id event)
    (replied : side.replies id = some decision) :
    (∃ offer, next.state = .deciding offer) ∧ event.decision.toList ++ received id side.log = [] ∨
      event.decision.toList ++ received id side.log = [some decision] := by
  obtain ⟨_, move, _⟩ := Connection.step_move moved
  obtain ⟨other, known', waits | done⟩ := offering.delivers id decision replied
  · obtain rfl := Option.some.inj (known.symm.trans known')
    obtain ⟨⟨offer, state⟩, nothing⟩ := waits
    rw [state] at move
    rw [nothing]
    rcases move.of_deciding with ⟨rfl, stays⟩ | ⟨answer, rfl⟩
    · exact .inl ⟨⟨offer, stays⟩, rfl⟩
    · cases answer with
      | none => cases answers.2.symm.trans replied
      | some given =>
          obtain rfl := Option.some.inj (replied.symm.trans answers)
          exact .inr rfl
  · have silent : event.decision = none := by
      cases event with
      | decided answer =>
          obtain ⟨offer, state⟩ := move.of_decided
          have stage := (inv.facts id connection known).stage
          rw [state] at stage
          rw [received_nil stage.1] at done
          cases done
      | _ => rfl
    rw [silent, done]
    exact .inr rfl

theorem Offering.handle (offering : side.Offering) (inv : side.Inv)
    (known : side.handlers id = some connection)
    (moved : connection.step parse event = some next) (answers : side.Answers id event)
    (refused : event = .offered false → side.isOpen = false) (progress : Watch UInt64)
    (offers : List OfferRequest)
    (queues : event ≠ .offered true ∧ offers = side.offers ∨ event = .offered true ∧
      side.offers.length < 10 ∧ ∃ offer, connection.state = .offering offer ∧
        offers = side.offers ++ [(offer, id)]) :
    ({ side.handle id event next with offers, progress } : Receiving).Offering := by
  obtain ⟨_, _, same⟩ := Connection.step_move moved
  have remote : next.remote = connection.remote := by rw [same]
  have kept {request : OfferRequest} (inside : request ∈ side.requests) :
      request ∈ side.pending.toList ++ offers := by
    rcases queues with ⟨_, rfl⟩ | ⟨_, _, offer, _, rfl⟩
    · exact inside
    · rw [← List.append_assoc]
      exact List.mem_append_left _ inside
  constructor
  case bounded =>
    rcases queues with ⟨_, rfl⟩ | ⟨_, room, offer, _, rfl⟩
    · exact offering.bounded
    · rw [List.length_append, List.length_singleton]
      omega
  case held =>
    intro isOpen other found offer known' read authentic
    rcases update_eq_some.mp known' with ⟨rfl, rfl⟩ | ⟨here, known'⟩
    · rw [remote] at authentic
      rcases offering.held_next isOpen known moved refused (by simpa [Receiving.handle] using read)
        authentic with state | ⟨rfl, state⟩ | queued | replied
      · exact .inl state
      · obtain ⟨_, _, offered, state', rfl⟩ := queues.resolve_left fun not => not.1 rfl
        obtain rfl := Handler.offering.inj (state.symm.trans state')
        exact .inr (.inl (by simp [requests]))
      · exact .inr (.inl (kept queued))
      · exact .inr (.inr replied)
    · rcases offering.held isOpen other found offer known'
        (by simpa [Receiving.handle, ownEvents_other here] using read) authentic with
        state | queued | replied
      · exact .inl state
      · exact .inr (.inl (kept queued))
      · exact .inr (.inr replied)
  case order =>
    intro isOpen
    have order := offering.order isOpen
    simp only [Receiving.handle, requests] at order ⊢
    rw [enqueued_cons, answered_cons, order]
    rcases queues with ⟨not, rfl⟩ | ⟨rfl, _, offer, _, rfl⟩
    · rw [Entry.enqueued_other not]
      simp [Entry.answered]
    · simp [Entry.enqueued, Entry.answered]
  case once =>
    simpa [Receiving.handle, answered_cons, Entry.answered] using offering.once
  case undropped =>
    intro isOpen other inside
    by_cases here : other = id
    · subst here
      rcases List.mem_cons.mp (by simpa [Receiving.handle] using inside) with same | old
      · subst same
        cases isOpen.symm.trans answers.1
      · exact offering.undropped isOpen other old
    · exact offering.undropped isOpen other
        (by simpa [Receiving.handle, ownEvents_other here] using inside)
  case delivers =>
    intro other decision replied
    by_cases here : other = id
    · subst here
      refine ⟨next, by simp [Receiving.handle], ?_⟩
      simpa only [Receiving.handle, received_self] using
        offering.delivers_next inv known moved answers replied
    · obtain ⟨found, known', delivers⟩ := offering.delivers other decision replied
      refine ⟨found, by simpa [Receiving.handle, Function.update_of_ne here] using known', ?_⟩
      simpa only [Receiving.handle, received_of_own (ownEvents_other here)] using delivers

/-- The request on display is answered: it joins those decided. -/
theorem Offering.answer (offering : side.Offering) (inv : side.Inv)
    (pending : side.pending = some (offer, id)) (decision : OfferDecision) (seen : Nat)
    (status : Option ReceiveStatus) :
    ({ side with
      pending := none
      seen
      status
      replies := Function.update side.replies id (some decision)
      log := .modal (offer, id) (some decision) :: side.log } : Receiving).Offering := by
  have requests : side.requests = (offer, id) :: side.offers := by
    simp [Receiving.requests, pending]
  obtain ⟨unanswered, connection, known, state⟩ :=
    inv.waiting offer id (by rw [requests]; exact .head _)
  have stage := (inv.facts id connection known).stage
  rw [state] at stage
  constructor
  case bounded => exact offering.bounded
  case held =>
    intro isOpen other found asked known' read authentic
    rcases offering.held isOpen other found asked known' (by simpa using read) authentic with
      state | queued | ⟨given, replied⟩
    · exact .inl state
    · rw [requests] at queued
      rcases List.mem_cons.mp queued with same | queued
      · obtain ⟨rfl, rfl⟩ := Prod.mk.inj same
        exact .inr (.inr ⟨decision, by simp⟩)
      · exact .inr (.inl queued)
    · have here : other ≠ id := by
        rintro rfl
        cases unanswered.symm.trans replied
      exact .inr (.inr ⟨given, by simpa only [Function.update_of_ne here] using replied⟩)
  case order =>
    intro isOpen
    have order := offering.order isOpen
    rw [requests] at order
    rw [enqueued_cons, answered_cons, order]
    simp [Entry.enqueued, Entry.answered, Receiving.requests]
  case once =>
    rw [answered_cons, List.map_append, List.nodup_append]
    refine ⟨offering.once, by simp [Entry.answered], ?_⟩
    rintro _ inside last same rfl
    obtain ⟨⟨asked, other⟩, old, rfl⟩ := List.mem_map.mp inside
    obtain rfl : other = id := by simpa [Entry.answered] using same
    obtain ⟨given, old⟩ := mem_answered.mp old
    cases unanswered.symm.trans (inv.answered asked other given old).1
  case undropped => exact by simpa using offering.undropped
  case delivers =>
    intro other given replied
    rcases update_eq_some.mp replied with ⟨rfl, rfl⟩ | ⟨_, replied⟩
    · exact ⟨connection, known, .inl ⟨⟨offer, state⟩, received_nil stage.1⟩⟩
    · exact offering.delivers other given replied

theorem Offering.connect (offering : side.Offering) (inv : side.Inv)
    (free : side.handlers id = none) :
    ({ side with handlers := Function.update side.handlers id (some (.new remote incoming)) } :
      Receiving).Offering := by
  constructor
  case bounded => exact offering.bounded
  case held =>
    intro isOpen other connection offer known read authentic
    rcases update_eq_some.mp known with ⟨rfl, rfl⟩ | ⟨_, known⟩
    · have silent := inv.absent other free
      rw [silent] at read
      cases read
    · exact offering.held isOpen other connection offer known read authentic
  case order => exact offering.order
  case once => exact offering.once
  case undropped => exact offering.undropped
  case delivers =>
    intro other decision replied
    obtain ⟨connection, known, delivers⟩ := offering.delivers other decision replied
    have here : other ≠ id := by
      rintro rfl
      cases free.symm.trans known
    exact ⟨connection, by simpa only [Function.update_of_ne here] using known, delivers⟩

/-- A handler is only refused by a window that is gone. -/
theorem Offering.next (offering : side.Offering) (inv : side.Inv)
    (move : Move parse due side action after)
    (refused : ∀ id, action = .handler id (.offered false) → side.isOpen = false) :
    after.Offering := by
  cases move with
  | idle => exact offering
  | noted action entry quiet =>
      refine offering.frame rfl rfl rfl rfl offering.bounded (fun _ => ownEvents_quiet quiet) ?_ ?_
      · simp [enqueued_cons, (Entry.quiet_offering quiet).1]
      · simp [answered_cons, (Entry.quiet_offering quiet).2]
  | connected id remote incoming free => exact offering.connect inv free
  | handled id event connection after known moved answers silent unoffered =>
      exact offering.handle inv known moved answers (fun same => refused id (by rw [same]))
        side.progress side.offers (.inl ⟨unoffered, rfl⟩)
  | offered id offer connection after known state moved isOpen room =>
      exact offering.handle inv known moved trivial (fun same => by cases same) side.progress _
        (.inr ⟨rfl, room, offer, state, rfl⟩)
  | posted id event bytes connection after known moved posts =>
      have answers : side.Answers id event := by
        cases event with
        | decided => cases posts
        | _ => trivial
      refine offering.handle inv known moved answers (fun same => refused id (by rw [same])) _
        side.offers (.inl ⟨?_, rfl⟩)
      rintro rfl
      cases posts
  | pulled input request offers isOpen empty queued =>
      have bounded := offering.bounded
      rw [queued, List.length_cons] at bounded
      refine offering.frame rfl rfl ?_ rfl (by simp only; omega) (fun _ => rfl) rfl rfl
      simp [requests, empty, queued]
  | waited | polled | aged =>
      exact offering.frame rfl rfl rfl rfl offering.bounded (fun _ => rfl) rfl rfl
  | asked =>
      exact offering.frame rfl rfl rfl rfl offering.bounded (fun _ => rfl)
        (by simp [enqueued_cons, Entry.enqueued]) (by simp [answered_cons, Entry.answered])
  | declined input offer id due isOpen pending =>
      exact offering.answer inv pending .decline side.seen side.status
  | accepted input offer id downloadDir due isOpen pending =>
      exact offering.answer inv pending (.accept downloadDir) _ _
  | closed =>
      exact ⟨Nat.zero_le _, (fun isOpen => by cases isOpen), (fun isOpen => by cases isOpen),
        offering.once, (fun isOpen => by cases isOpen), offering.delivers⟩

end Receiving

namespace Node

theorem refused_closed (stepped : node.step env (.handler id (.offered false)) = some after) :
    node.isOpen = false := by
  simp only [step, handle] at stepped
  split at stepped
  · rename_i granted
    simpa [grants] using granted
  · cases stepped

theorem offering_inv (run : Run (Steps (Node.step env)) (.new files) past node) :
    node.receiving.Offering := by
  apply run.history (P := fun _ node => node.receiving.Offering)
  · constructor
    case bounded => exact Nat.zero_le _
    case held =>
      intro _ id connection offer known
      cases known
    case order => exact fun _ => rfl
    case once => exact List.nodup_nil
    case undropped =>
      intro _ id inside
      cases inside
    case delivers =>
      intro id decision replied
      cases replied
  · intro past before action after run offering stepped
    refine offering.next (receiving_inv run) (step_receiving stepped) ?_
    rintro id rfl
    exact refused_closed stepped

/-- The number of places that hold this offer of the handler: the handler itself while
it waits for room, the channel, the display, and the decisions made. -/
def places (node : Node) (offer : Offer) (id : Nat) : Nat :=
  (if (node.router.handlers id).any (fun connection => connection.state = .offering offer)
    then 1 else 0) +
  node.offers.count (offer, id) + node.app.pendingOffers.toList.count (offer, id) +
  (node.replies id).toList.length

end Node

/-- An explicit Accept with a chosen folder, or an explicit Decline. -/
def Action.Decides (decision : OfferDecision) : Action → Prop
  | .ui input => input.accept = true ∧ (∃ path, input.folder = some path ∧
      decision = .accept path) ∨ input.decline = true ∧ decision = .decline
  | _ => False

/-- What a step does to the request on display and to the reply channels. -/
inductive Node.Turn (node : Node) (action : Action) (after : Node) : Prop where
  | kept (pending : after.app.pendingOffers = node.app.pendingOffers)
      (replies : after.replies = node.replies)
  | taken (request : OfferRequest) (empty : node.app.pendingOffers = none)
      (queued : node.offers = request :: after.offers)
      (pending : after.app.pendingOffers = some request) (replies : after.replies = node.replies)
  | decided (offer : Offer) (id : Nat) (decision : OfferDecision)
      (pending : node.app.pendingOffers = some (offer, id)) (unanswered : node.replies id = none)
      (explicit : action.Decides decision) (empty : after.app.pendingOffers = none)
      (replies : after.replies = Function.update node.replies id (some decision))

/-- Where the offers are while the program runs. -/
structure Node.Conserves (env : Env) (node : Node) : Prop where
  onePlace : node.isOpen = true → ∀ id connection offer,
    node.router.handlers id = some connection → .read (.ok offer) ∈ ownEvents id node.log →
    offer.ticket.addr.id = connection.remote → node.places offer id = 1
  genuine : ∀ offer id, (offer, id) ∈ node.app.pendingOffers.toList ++ node.offers →
    .read (.ok offer) ∈ ownEvents id node.log ∧
      ∃ connection, node.router.handlers id = some connection ∧ connection.state = .deciding offer
  bounded : node.offers.length ≤ 10
  ordered : node.isOpen = true → enqueued node.log =
    (answered node.log ++ (node.app.pendingOffers.toList ++ node.offers)).map Prod.snd
  once : node.isOpen = true → (enqueued node.log).Nodup
  undecided : node.isOpen = true → ∀ id, node.replies id = none → received id node.log = []
  decisions : ∀ id decision, node.replies id = some decision →
    (∃ offer, .modal (offer, id) (some decision) ∈ node.log ∧
      .read (.ok offer) ∈ ownEvents id node.log) ∧
    (received id node.log = [] ∧
        (node.step env (.handler id (.decided (some decision)))).isSome = true ∨
      received id node.log = [some decision])

theorem Input.decides {input : Input} (decided : input.decision = some choice) :
    (Action.ui input).Decides choice := by
  cases choice with
  | accept path =>
      obtain ⟨accept, folder⟩ := decision_accept decided
      exact .inl ⟨accept, path, folder, rfl⟩
  | decline =>
      refine .inr ⟨?_, rfl⟩
      unfold decision at decided
      split at decided
      · cases decided
      · by_contra unclicked
        rw [if_neg unclicked] at decided
        cases decided

namespace Node

/-- A handler that waits can take its decision as soon as it is sent. -/
theorem step_decided {connection : Connection} (known : node.router.handlers id = some connection)
    (state : connection.state = .deciding offer) (replied : node.replies id = some decision) :
    (node.step env (.handler id (.decided (some decision)))).isSome = true := by
  have granted : node.grants id (.decided (some decision)) = true := by
    simpa only [grants, decide_eq_true_eq] using replied
  obtain ⟨next, moved⟩ : ∃ next, connection.step env.parse (.decided (some decision)) =
      some next := by
    obtain ⟨remote, incoming, written, broken, waits⟩ := connection
    obtain rfl : waits = .deciding offer := state
    exact ⟨_, rfl⟩
  have routed : (node.router.step env.resolve env.parse
      (.handler id (.decided (some decision)))).isSome = true := by
    change (((node.router.handlers id).bind fun connection =>
      (connection.step env.parse (.decided (some decision))).map _).isSome) = true
    rw [known, Option.bind_some, moved]
    rfl
  obtain ⟨router, routed⟩ := Option.isSome_iff_exists.mp routed
  rw [step, handle, if_pos granted, known, Option.bind_some, routed]
  rfl

theorem step_turn (run : Run (Steps (Node.step env)) (.new files) past node)
    (stepped : node.step env action = some after) (running : action ≠ .close) :
    node.Turn action after := by
  have inv := receiving_inv run
  have unanswered {offer : Offer} {id : Nat} (pending : node.app.pendingOffers = some (offer, id)) :
      node.replies id = none := by
    refine (inv.waiting offer id ?_).1
    simp [Receiving.requests, receiving, pending]
  cases step_move stepped with
  | framed input after isOpen frame =>
      cases frame with
      | pulled request offers empty queued => exact .taken request empty queued rfl rfl
      | declined offer id due pending decision =>
          exact .decided offer id .decline pending (unanswered pending)
            (Input.decides decision) rfl rfl
      | accepted offer id downloadDir due pending decision =>
          exact .decided offer id (.accept downloadDir) pending (unanswered pending)
            (Input.decides decision) rfl rfl
      | _ => exact .kept rfl rfl
  | closed => exact absurd rfl running
  | _ => exact .kept rfl rfl

theorem places_eq {connection : Connection} (known : node.router.handlers id = some connection) :
    node.places offer id = (if connection.state = .offering offer then 1 else 0) +
      node.receiving.requests.count (offer, id) + (node.replies id).toList.length := by
  have counted : node.receiving.requests.count (offer, id) =
      node.app.pendingOffers.toList.count (offer, id) + node.offers.count (offer, id) :=
    List.count_append
  simp only [places, known, Option.any_some, decide_eq_true_eq, counted]
  omega

/-- The three places exclude each other, and the channel holds no offer twice. -/
theorem places_eq_one {connection : Connection} (inv : node.receiving.Inv)
    (known : node.router.handlers id = some connection)
    (held : connection.state = .offering offer ∨ (offer, id) ∈ node.receiving.requests ∨
      ∃ decision, node.replies id = some decision) : node.places offer id = 1 := by
  rw [places_eq known]
  by_cases queued : (offer, id) ∈ node.receiving.requests
  · obtain ⟨unanswered, other, known', state⟩ := inv.waiting offer id queued
    obtain rfl := Option.some.inj (known.symm.trans known')
    have unanswered : node.replies id = none := unanswered
    have once := List.count_eq_one_of_mem inv.distinct.of_map queued
    simp [state, unanswered, once]
  · have absent := List.count_eq_zero_of_not_mem queued
    rcases held with state | inside | ⟨decision, replied⟩
    · have unanswered : node.replies id = none := inv.unanswered known (by rw [state]; rfl)
      simp [state, unanswered, absent]
    · exact absurd inside queued
    · have left : connection.state ≠ .offering offer := by
        intro state
        have unanswered : node.replies id = none := inv.unanswered known (by rw [state]; rfl)
        cases unanswered.symm.trans replied
      simp [left, replied, absent]

theorem conserves (run : Run (Steps (Node.step env)) (.new files) past node) :
    node.Conserves env := by
  have inv := receiving_inv run
  have offering := offering_inv run
  constructor
  case onePlace =>
    intro isOpen id connection offer known read authentic
    exact places_eq_one inv known (offering.held isOpen id connection offer known read authentic)
  case genuine =>
    intro offer id inside
    obtain ⟨_, connection, known, state⟩ := inv.waiting offer id inside
    have stage := (inv.facts id connection known).stage
    rw [state] at stage
    exact ⟨stage.2.1, connection, known, state⟩
  case bounded => exact offering.bounded
  case ordered => exact offering.order
  case once =>
    intro isOpen
    have order : enqueued node.log = _ := offering.order isOpen
    rw [order, List.map_append, List.nodup_append]
    refine ⟨offering.once, inv.distinct, ?_⟩
    rintro _ decided _ queued rfl
    obtain ⟨⟨offer, id⟩, inside, rfl⟩ := List.mem_map.mp decided
    obtain ⟨⟨asked, other⟩, waits, same⟩ := List.mem_map.mp queued
    obtain rfl : other = id := same
    obtain ⟨decision, shown⟩ := mem_answered.mp inside
    cases (inv.waiting asked other waits).1.symm.trans (inv.answered offer other decision shown).1
  case undecided =>
    intro isOpen id unanswered
    refine received_nil fun decision inside => ?_
    cases decision with
    | none => exact offering.undropped isOpen id inside
    | some decision => cases unanswered.symm.trans (inv.decided id decision inside)
  case decisions =>
    intro id decision replied
    obtain ⟨_, offer, shown⟩ := inv.replied id decision replied
    refine ⟨⟨offer, shown, (inv.answered offer id decision shown).2⟩, ?_⟩
    obtain ⟨connection, known, ⟨⟨asked, state⟩, nothing⟩ | done⟩ :=
      offering.delivers id decision replied
    · exact .inl ⟨nothing, step_decided known state replied⟩
    · exact .inr done

end Node

/-- For any number of handlers and every order of steps: each offer that passed the
ticket check is in exactly one place, in the order of the channel, and leaves the display
by a decision of the user only, which goes to its own handler; a run without such a
decision leaves the request on display and all replies alone. -/
theorem offers_conserved (run : Run (Steps (Node.step env)) (.new files) past node) :
    node.Conserves env ∧
    (∀ action after, node.step env action = some after → action ≠ .close →
      node.Turn action after) ∧
    ∀ request later after, node.app.pendingOffers = some request →
      Run (Steps (Node.step env)) node later after →
      (∀ action ∈ later, action ≠ .close ∧ ∀ decision, ¬ action.Decides decision) →
      after.app.pendingOffers = some request ∧ after.replies = node.replies := by
  refine ⟨Node.conserves run, fun action after stepped running => Node.step_turn run stepped running,
    ?_⟩
  intro request later after pending rest quiet
  induction rest with
  | start => exact ⟨pending, rfl⟩
  | @next later before action after rest stepped ih =>
    obtain ⟨shown, replies⟩ := ih fun action inside => quiet action (.tail _ inside)
    obtain ⟨running, undecided⟩ := quiet action (.head _)
    cases Node.step_turn (run.trans rest) stepped running with
    | kept shown' replies' => exact ⟨shown'.trans shown, replies'.trans replies⟩
    | taken request empty => cases shown.symm.trans empty
    | decided offer id decision _ _ explicit => exact absurd explicit (undecided decision)

def sampleOffers : List Action :=
  sampleConnect 0 sampleOffer ++ sampleConnect 1 ⟨"song.ogg", 7, sampleTicket⟩ ++
    [.ui {}, .ui {}]

theorem offers_conserved_sample : ∃ node : Node,
    Run (Steps (Node.step sampleEnv)) (.new []) sampleOffers.reverse node ∧
    enqueued node.log = [0, 1] ∧ node.Conserves sampleEnv ∧
    ∀ later after, Run (Steps (Node.step sampleEnv)) node later after →
      (∀ action ∈ later, action ≠ .close ∧ ∀ decision, ¬ action.Decides decision) →
      after.app.pendingOffers = some (sampleOffer, 0) ∧ after.replies = node.replies := by
  obtain ⟨node, run, order, pending⟩ : ∃ node : Node,
      Run (Steps (Node.step sampleEnv)) (.new []) sampleOffers.reverse node ∧
      enqueued node.log = [0, 1] ∧ node.app.pendingOffers = some (sampleOffer, 0) := by
    apply execute_reaches
    decide +kernel
  obtain ⟨conserves, _, untouched⟩ := offers_conserved run
  exact ⟨node, run, order, conserves,
    fun later after => untouched (sampleOffer, 0) later after pending⟩

end IrohShare
