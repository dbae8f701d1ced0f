import IrohShare.Receiving

/-! The invariant of the receiving side: handlers run by their own logs, every open
request belongs to one handler that waits for it, and decisions go to the handler
whose request the user answered. -/
namespace IrohShare
open Wire Unix Channel Transition

variable {parse : String → Option BlobTicket} {due : FrameStage} {id : Nat} {log : List Entry}

def Handler.hasOffered : Handler → Bool
  | .accepting | .reading | .offering _ => false
  | _ => true

theorem Handler.Move.hasOffered (move : Handler.Move remote state event next)
    (offered : state.hasOffered = true) : next.hasOffered = true := by
  cases move with
  | connected | unconnected | read | notAllowed | unread | offered | unoffered => cases offered
  | lost => exact offered
  | greeted =>
      unfold download
      split <;> rfl
  | @downloading offer target point event next _ =>
      rcases next with point | ⟨error | _⟩ <;> rfl
  | _ => rfl

/-- A handler that waits for a decision goes on when it gets one. -/
theorem Handler.Move.of_deciding (move : Handler.Move remote (.deciding offer) event next) :
    event = .lost ∧ next = .deciding offer ∨ ∃ decision, event = .decided decision := by
  cases move with
  | lost => exact .inl ⟨rfl, rfl⟩
  | chosen => exact .inr ⟨_, rfl⟩
  | turnedDown => exact .inr ⟨_, rfl⟩

@[simp] theorem ownEvents_self :
    ownEvents id (.handler id event :: log) = event :: ownEvents id log := by
  simp [ownEvents, Entry.own]

theorem ownEvents_other (distinct : id ≠ actor) :
    ownEvents id (.handler actor event :: log) = ownEvents id log := by
  simp [ownEvents, Entry.own, Ne.symm distinct]

@[simp] theorem ownEvents_modal :
    ownEvents id (.modal request decision :: log) = ownEvents id log := rfl

theorem ownEvents_quiet {entry : Entry} (quiet : entry.quiet = true) :
    ownEvents id (entry :: log) = ownEvents id log := by
  cases entry with
  | handler | modal => cases quiet
  | _ => rfl

theorem ownEvents_subset (inside : event ∈ ownEvents id log) :
    event ∈ ownEvents id (entry :: log) :=
  (List.sublist_cons_self entry log).filterMap _ |>.subset inside

namespace Receiving

/-- The requests that wait for the user, the one on display first. -/
def requests (side : Receiving) : List OfferRequest := side.pending.toList ++ side.offers

structure Inv (side : Receiving) : Prop where
  facts : ∀ id connection, side.handlers id = some connection →
    Handler.Facts connection.remote (ownEvents id side.log) connection.state
  absent : ∀ id, side.handlers id = none → ownEvents id side.log = []
  behind : side.seen ≤ side.progress.version
  live : side.progress.closed = false
  dropped : side.isOpen = false → side.requests = []
  waiting : ∀ offer id, (offer, id) ∈ side.requests → side.replies id = none ∧
    ∃ connection, side.handlers id = some connection ∧ connection.state = .deciding offer
  distinct : (side.requests.map Prod.snd).Nodup
  replied : ∀ id decision, side.replies id = some decision →
    (∃ connection, side.handlers id = some connection ∧ connection.state.hasOffered = true) ∧
    ∃ offer, .modal (offer, id) (some decision) ∈ side.log
  answered : ∀ offer id decision, .modal (offer, id) (some decision) ∈ side.log →
    side.replies id = some decision ∧ .read (.ok offer) ∈ ownEvents id side.log
  decided : ∀ id decision, .decided (some decision) ∈ ownEvents id side.log →
    side.replies id = some decision

variable {side after : Receiving}

theorem Inv.initial (files : List PathBuf) : (Node.new files).receiving.Inv where
  facts := by intro id connection known; cases known
  absent := fun _ _ => rfl
  behind := le_refl 0
  live := rfl
  dropped := fun _ => rfl
  waiting := by intro offer id inside; cases inside
  distinct := List.nodup_nil
  replied := by intro id decision replied; cases replied
  answered := by intro offer id decision inside; cases inside
  decided := by intro id decision inside; cases inside

theorem Inv.frame (inv : side.Inv) (handlers : after.handlers = side.handlers)
    (isOpen : after.isOpen = side.isOpen) (requests : after.requests = side.requests)
    (replies : after.replies = side.replies) (behind : after.seen ≤ after.progress.version)
    (live : after.progress.closed = side.progress.closed)
    (own : ∀ id, ownEvents id after.log = ownEvents id side.log)
    (modals : ∀ request decision, .modal request (some decision) ∈ after.log ↔
      .modal request (some decision) ∈ side.log) : after.Inv where
  facts := by simpa only [handlers, own] using inv.facts
  absent := by simpa only [handlers, own] using inv.absent
  behind := behind
  live := live.trans inv.live
  dropped := by simpa only [isOpen, requests] using inv.dropped
  waiting := by simpa only [handlers, requests, replies] using inv.waiting
  distinct := by simpa only [requests] using inv.distinct
  replied := by simpa only [handlers, replies, modals] using inv.replied
  answered := by simpa only [replies, own, modals] using inv.answered
  decided := by simpa only [replies, own] using inv.decided

/-- One handler moves; if it waits for a decision, it gets the one it was sent. -/
theorem Inv.handle (inv : side.Inv) (known : side.handlers id = some connection)
    (moved : connection.step parse event = some next) (answers : side.Answers id event) :
    (side.handle id event next).Inv := by
  obtain ⟨_, move, same⟩ := Connection.step_move moved
  have remote : next.remote = connection.remote := by rw [same]
  constructor
  case facts =>
    intro other found known'
    rcases update_eq_some.mp known' with ⟨rfl, rfl⟩ | ⟨here, known'⟩
    · rw [remote]
      simpa [Receiving.handle] using Handler.facts_next (inv.facts other connection known) move
    · simpa [Receiving.handle, ownEvents_other here] using inv.facts other found known'
  case absent =>
    intro other unknown
    by_cases here : other = id
    · simp [Receiving.handle, here] at unknown
    · simp only [Receiving.handle, Function.update_of_ne here] at unknown
      simpa [Receiving.handle, ownEvents_other here] using inv.absent other unknown
  case behind => exact inv.behind
  case live => exact inv.live
  case dropped => exact inv.dropped
  case waiting =>
    intro offer other inside
    obtain ⟨unanswered, found, known', state⟩ := inv.waiting offer other inside
    refine ⟨unanswered, ?_⟩
    by_cases here : other = id
    · subst here
      obtain rfl := Option.some.inj (known'.symm.trans known)
      rw [state] at move
      rcases move.of_deciding with ⟨_, stays⟩ | ⟨decision, rfl⟩
      · exact ⟨next, by simp [Receiving.handle], stays⟩
      · cases decision with
        | none =>
            have empty := inv.dropped answers.1
            change (offer, other) ∈ side.requests at inside
            rw [empty] at inside
            cases inside
        | some decision => cases unanswered.symm.trans answers
    · exact ⟨found, by simpa [Receiving.handle, Function.update_of_ne here] using known', state⟩
  case distinct => exact inv.distinct
  case replied =>
    intro other decision replied
    obtain ⟨⟨found, known', offered⟩, offer, inside⟩ := inv.replied other decision replied
    refine ⟨?_, offer, .tail _ inside⟩
    by_cases here : other = id
    · subst here
      obtain rfl := Option.some.inj (known'.symm.trans known)
      exact ⟨next, by simp [Receiving.handle], move.hasOffered offered⟩
    · exact ⟨found, by simpa [Receiving.handle, Function.update_of_ne here] using known', offered⟩
  case answered =>
    intro offer other decision inside
    obtain ⟨replied, read⟩ := inv.answered offer other decision (by simpa [Receiving.handle] using inside)
    exact ⟨replied, ownEvents_subset read⟩
  case decided =>
    intro other decision inside
    by_cases here : other = id
    · subst here
      rcases List.mem_cons.mp (by simpa [Receiving.handle] using inside) with same | old
      · rw [← same] at answers
        exact answers
      · exact inv.decided other decision old
    · exact inv.decided other decision
        (by simpa [Receiving.handle, ownEvents_other here] using inside)

theorem Inv.connect (inv : side.Inv) (free : side.handlers id = none) :
    ({ side with handlers := Function.update side.handlers id (some (.new remote incoming)) } :
      Receiving).Inv := by
  have present {other : Nat} {connection : Connection}
      (known : side.handlers other = some connection) :
      Function.update side.handlers id (some (.new remote incoming)) other = some connection := by
    have distinct : other ≠ id := by
      rintro rfl
      cases free.symm.trans known
    simpa only [Function.update_of_ne distinct] using known
  constructor
  case facts =>
    intro other connection known
    rcases update_eq_some.mp known with ⟨rfl, rfl⟩ | ⟨_, known⟩
    · rw [inv.absent other free]
      exact Handler.facts_initial
    · exact inv.facts other connection known
  case absent =>
    intro other unknown
    by_cases here : other = id
    · simp [here] at unknown
    · exact inv.absent other (by simpa only [Function.update_of_ne here] using unknown)
  case behind => exact inv.behind
  case live => exact inv.live
  case dropped => exact inv.dropped
  case waiting =>
    intro offer other inside
    obtain ⟨unanswered, connection, known, state⟩ := inv.waiting offer other inside
    exact ⟨unanswered, connection, present known, state⟩
  case distinct => exact inv.distinct
  case replied =>
    intro other decision replied
    obtain ⟨⟨connection, known, offered⟩, asked⟩ := inv.replied other decision replied
    exact ⟨⟨connection, present known, offered⟩, asked⟩
  case answered => exact inv.answered
  case decided => exact inv.decided

theorem Inv.unanswered (inv : side.Inv) (known : side.handlers id = some connection)
    (early : connection.state.hasOffered = false) : side.replies id = none := by
  cases replied : side.replies id with
  | none => rfl
  | some decision =>
      obtain ⟨⟨other, known', offered⟩, _⟩ := inv.replied id decision replied
      obtain rfl := Option.some.inj (known.symm.trans known')
      cases early.symm.trans offered

/-- A request enters the queue together with the handler's step. -/
theorem Inv.enqueue (inv : side.Inv) (known : side.handlers id = some connection)
    (state : connection.state = .offering offer)
    (moved : connection.step parse (.offered true) = some next) (isOpen : side.isOpen = true) :
    ({ side.handle id (.offered true) next with offers := side.offers ++ [(offer, id)] } :
      Receiving).Inv := by
  have handled := inv.handle known moved trivial
  have unanswered := inv.unanswered known (by rw [state]; rfl)
  obtain ⟨offer, state', decides⟩ := (Connection.step_move moved).2.1.of_offered
  obtain rfl := Handler.offering.inj (state.symm.trans state')
  have requests : ({ side.handle id (.offered true) next with
      offers := side.offers ++ [(offer, id)] } : Receiving).requests =
        side.requests ++ [(offer, id)] := (List.append_assoc _ _ _).symm
  constructor
  case facts => exact handled.facts
  case absent => exact handled.absent
  case behind => exact handled.behind
  case live => exact handled.live
  case dropped =>
    intro closed
    cases isOpen.symm.trans closed
  case waiting =>
    intro asked other inside
    rw [requests, List.mem_append, List.mem_singleton] at inside
    rcases inside with old | new
    · exact handled.waiting asked other old
    · obtain ⟨rfl, rfl⟩ := Prod.mk.inj new
      exact ⟨unanswered, next, by simp [Receiving.handle], decides⟩
  case distinct =>
    rw [requests, List.map_append, List.nodup_append]
    refine ⟨inv.distinct, by simp, ?_⟩
    rintro _ inside last same rfl
    rw [List.map_singleton, List.mem_singleton] at same
    obtain ⟨⟨asked, other⟩, queued, rfl⟩ := List.mem_map.mp inside
    obtain ⟨_, found, known', waits⟩ := inv.waiting asked other queued
    subst same
    obtain rfl := Option.some.inj (known.symm.trans known')
    cases state.symm.trans waits
  case replied => exact handled.replied
  case answered => exact handled.answered
  case decided => exact handled.decided

/-- The user answers the request on display, and its handler is the one that waits. -/
theorem Inv.answer (inv : side.Inv) (pending : side.pending = some (offer, id))
    (decision : OfferDecision) (seen : Nat)
    (behind : seen ≤ side.progress.version) (status : Option ReceiveStatus) :
    ({ side with
      pending := none
      seen
      status
      replies := Function.update side.replies id (some decision)
      log := .modal (offer, id) (some decision) :: side.log } : Receiving).Inv := by
  have requests : side.requests = (offer, id) :: side.offers := by simp [Receiving.requests, pending]
  obtain ⟨unanswered, connection, known, state⟩ :=
    inv.waiting offer id (by rw [requests]; exact .head _)
  have stage := (inv.facts id connection known).stage
  rw [state] at stage
  obtain ⟨undecided, read, _⟩ := stage
  have distinct := inv.distinct
  rw [requests, List.map_cons, List.nodup_cons] at distinct
  constructor
  case facts =>
    simpa using inv.facts
  case absent =>
    simpa using inv.absent
  case behind => exact behind
  case live => exact inv.live
  case dropped =>
    intro closed
    have empty := inv.dropped closed
    rw [requests] at empty
    cases empty
  case waiting =>
    intro asked other inside
    have here : other ≠ id := by
      rintro rfl
      exact distinct.1 (List.mem_map.mpr ⟨_, inside, rfl⟩)
    obtain ⟨unanswered, waits⟩ := inv.waiting asked other (by rw [requests]; exact .tail _ inside)
    exact ⟨by simpa only [Function.update_of_ne here] using unanswered, waits⟩
  case distinct =>
    exact distinct.2
  case replied =>
    intro other given replied
    rcases update_eq_some.mp replied with ⟨rfl, rfl⟩ | ⟨_, replied⟩
    · exact ⟨⟨connection, known, by rw [state]; rfl⟩, offer, .head _⟩
    · obtain ⟨offered, asked, inside⟩ := inv.replied other given replied
      exact ⟨offered, asked, .tail _ inside⟩
  case answered =>
    intro asked other given inside
    rcases List.mem_cons.mp inside with same | old
    · cases same
      exact ⟨by simp, read⟩
    · obtain ⟨replied, read⟩ := inv.answered asked other given old
      have here : other ≠ id := by
        rintro rfl
        cases unanswered.symm.trans replied
      exact ⟨by simpa only [Function.update_of_ne here] using replied, read⟩
  case decided =>
    intro other given inside
    have replied := inv.decided other given (by simpa using inside)
    have here : other ≠ id := by
      rintro rfl
      cases unanswered.symm.trans replied
    simpa only [Function.update_of_ne here] using replied

theorem Inv.next (inv : side.Inv) (move : Move parse due side action after) : after.Inv := by
  cases move with
  | idle => exact inv
  | noted action entry quiet =>
      refine inv.frame rfl rfl rfl rfl inv.behind rfl (fun _ => ownEvents_quiet quiet) ?_
      intro request decision
      cases entry with
      | handler | modal => cases quiet
      | _ => simp
  | waited elapsed => exact inv.frame rfl rfl rfl rfl inv.behind rfl (fun _ => rfl) (by simp)
  | connected id remote incoming free => exact inv.connect free
  | handled id event connection next known moved answers => exact inv.handle known moved answers
  | offered id offer connection next known state moved isOpen =>
      exact inv.enqueue known state moved isOpen
  | posted id event bytes connection next known moved posts =>
      have answers : side.Answers id event := by
        cases event with
        | decided => cases posts
        | _ => trivial
      refine (inv.handle known moved answers).frame rfl rfl rfl rfl ?_ rfl (fun _ => rfl) (by simp)
      exact inv.behind.trans (Nat.le_succ _)
  | pulled input request offers isOpen empty queued =>
      refine inv.frame rfl rfl ?_ rfl inv.behind rfl (fun _ => rfl) (by simp)
      simp [requests, empty, queued]
  | polled => exact inv.frame rfl rfl rfl rfl (le_refl _) rfl (fun _ => rfl) (by simp)
  | aged => exact inv.frame rfl rfl rfl rfl inv.behind rfl (fun _ => rfl) (by simp)
  | asked => exact inv.frame rfl rfl rfl rfl inv.behind rfl (fun _ => rfl) (by simp)
  | declined input offer id due isOpen pending =>
      exact inv.answer pending .decline side.seen inv.behind side.status
  | accepted input offer id downloadDir due isOpen pending =>
      exact inv.answer pending (.accept downloadDir) _ (le_refl _) _
  | closed =>
      exact {
        facts := inv.facts
        absent := inv.absent
        behind := inv.behind
        live := inv.live
        dropped := fun _ => rfl
        waiting := by intro offer id inside; cases inside
        distinct := List.nodup_nil
        replied := inv.replied
        answered := inv.answered
        decided := inv.decided }

end Receiving

theorem Node.receiving_inv {env : Env} {node : Node}
    (run : Run (Steps (Node.step env)) (.new files) past node) : node.receiving.Inv :=
  run.invariant (P := fun node => node.receiving.Inv) (Receiving.Inv.initial files)
    fun inv stepped => inv.next (Node.step_receiving stepped)

namespace Receiving

/-- Each handler runs as a connection of its own, with the events that the log has of it. -/
def Runs (parse : String → Option BlobTicket) (side : Receiving) : Prop :=
  ∀ id connection, side.handlers id = some connection → ∃ remote incoming,
    Run (Steps (Connection.step parse)) (.new remote incoming) (ownEvents id side.log) connection

variable {side after : Receiving}

theorem Runs.handle (runs : side.Runs parse) (known : side.handlers id = some connection)
    (moved : connection.step parse event = some next) : (side.handle id event next).Runs parse := by
  intro other found known'
  rcases update_eq_some.mp known' with ⟨rfl, rfl⟩ | ⟨here, known'⟩
  · obtain ⟨remote, incoming, run⟩ := runs other connection known
    refine ⟨remote, incoming, ?_⟩
    simpa only [Receiving.handle, ownEvents_self] using run.next moved
  · simpa only [Receiving.handle, ownEvents_other here] using runs other found known'

theorem Runs.next (runs : side.Runs parse) (inv : side.Inv)
    (move : Move parse due side action after) : after.Runs parse := by
  cases move with
  | noted action entry quiet =>
      intro id connection known
      simpa only [ownEvents_quiet quiet] using runs id connection known
  | connected id remote incoming free =>
      intro other connection known
      rcases update_eq_some.mp known with ⟨rfl, rfl⟩ | ⟨_, known⟩
      · refine ⟨remote, incoming, ?_⟩
        rw [inv.absent other free]
        exact .start
      · exact runs other connection known
  | handled id event connection next known moved => exact runs.handle known moved
  | offered id offer connection next known state moved => exact runs.handle known moved
  | posted id event bytes connection next known moved => exact runs.handle known moved
  | _ => exact runs

end Receiving

theorem Node.handler_run {env : Env} {node : Node}
    (run : Run (Steps (Node.step env)) (.new files) past node) : node.receiving.Runs env.parse := by
  apply run.history (P := fun _ node => node.receiving.Runs env.parse)
  · intro id connection known
    cases known
  · intro past before action after run runs stepped
    exact runs.next (receiving_inv run) (step_receiving stepped)

end IrohShare
