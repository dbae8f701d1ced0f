import IrohShare.Transition.Budget
import IrohShare.Offering

/-! No request waits for ever: while the window is open and its user decides each offer that
is shown, the frames come to every request after a bounded number of their functions. -/
namespace IrohShare
open Wire Unix Channel Transition

variable {env : Env} {files : List PathBuf} {node after : Node} {id : Nat} {offer : Offer}
  {request : OfferRequest} {action : Action}

def FrameStage.position : FrameStage → Nat
  | .refreshPeers => 0
  | .refreshOffers => 1
  | .refreshSendStatus => 2
  | .refreshReceiveStatus => 3
  | .showHeader => 4
  | .showTicketModal => 5
  | .showPendingOffers => 6
  | .showContent => 7
  | .collectDroppedFiles => 8

/-- How many functions of the frames it takes to run the goal, this one included. -/
def FrameStage.distance (stage goal : FrameStage) : Nat :=
  (goal.position + 9 - stage.position) % 9 + 1

theorem FrameStage.distance_next (stage goal : FrameStage) (far : stage ≠ goal) :
    stage.next.distance goal + 1 = stage.distance goal := by
  cases stage <;> cases goal <;> first | rfl | exact absurd rfl far

theorem FrameStage.distance_bounds (stage goal : FrameStage) :
    0 < stage.distance goal ∧ stage.distance goal ≤ 9 := by
  unfold distance
  omega

def Action.frames : Action → Nat
  | .ui _ => 1
  | _ => 0

namespace Node

/-- The window stays open, and its user decides whenever an offer is shown. -/
def attended (node : Node) : Action → Bool
  | .ui input =>
    node.stage ≠ .showPendingOffers ∨ node.app.pendingOffers = none ∨ input.decision ≠ none
  | .close => false
  | _ => true

def requests (node : Node) : List OfferRequest := node.app.pendingOffers.toList ++ node.offers

/-- A frame in which nothing is shown passes the modal once more. -/
def idleFrame (node : Node) : Nat :=
  if node.app.pendingOffers = none ∧ node.stage.distance .showPendingOffers ≤ 5 then 9 else 0

/-- What is left until the request is decided, while it is the k-th one that waits. -/
def Due (request : OfferRequest) (node : Node) (left : Nat) : Prop :=
  ∃ k, node.requests[k]? = some request ∧
    left = 9 * k + node.stage.distance .showPendingOffers + node.idleFrame

def Decided (request : OfferRequest) (node : Node) : Prop :=
  ∃ decision, .modal request (some decision) ∈ node.log

theorem Frame.keeps (frame : Frame decodeString input node after)
    (early : node.stage ≠ .showPendingOffers) : after.requests = node.requests ∧
      (after.app.pendingOffers = none → node.app.pendingOffers = none) := by
  cases frame with
  | pulled request offers empty queued =>
    refine ⟨?_, fun _ => empty⟩
    simp [requests, empty, queued]
  | asked request due | declined offer id due | accepted offer id downloadDir due =>
    exact absurd due early
  | _ => exact ⟨rfl, id⟩

theorem step_joins (stepped : node.step env action = some after)
    (other : ∀ input, action ≠ .ui input) (stays : action ≠ .close) :
    after.stage = node.stage ∧ after.app.pendingOffers = node.app.pendingOffers ∧
      ∃ more, after.offers = node.offers ++ more := by
  cases step_move stepped with
  | framed input => exact absurd rfl (other input)
  | closed => exact absurd rfl stays
  | offered id offer => exact ⟨rfl, rfl, [(offer, id)], rfl⟩
  | _ => exact ⟨rfl, rfl, [], (List.append_nil _).symm⟩

theorem due_modal (due : node.stage = .showPendingOffers) (left : node.Due request budget)
    (decides : node.app.pendingOffers = none ∨ input.decision ≠ none) :
    let after := { node.showPendingOffers input with stage := node.stage.next }
    Decided request after ∨ ∃ rest, after.Due request rest ∧ rest + 1 ≤ budget := by
  obtain ⟨k, waits, rfl⟩ := left
  unfold showPendingOffers
  cases pending : node.app.pendingOffers with
  | none =>
    refine .inr ⟨9 * k + 9, ⟨k, ?_, ?_⟩, ?_⟩
    · exact waits
    · simp [due, FrameStage.next, FrameStage.distance, FrameStage.position, idleFrame]
    · simp [due, FrameStage.distance, FrameStage.position, idleFrame, pending]
  | some shown =>
    have answers : input.decision ≠ none := decides.resolve_left (by simp [pending])
    obtain ⟨decision, decided⟩ := Option.ne_none_iff_exists'.mp answers
    obtain ⟨offer, id⟩ := shown
    rw [requests, pending, Option.toList_some] at waits
    cases k with
    | zero =>
      obtain rfl : (offer, id) = request := by simpa using waits
      refine .inl ⟨decision, ?_⟩
      simp only [decided]
      cases decision <;> exact List.mem_cons_self
    | succ k =>
      refine .inr ⟨9 * k + 9, ⟨k, ?_, ?_⟩, ?_⟩
      · simp only [decided]
        cases decision <;> simpa [requests] using waits
      · simp only [decided]
        cases decision <;>
          simp [due, FrameStage.next, FrameStage.distance, FrameStage.position, idleFrame]
      · simp [due, FrameStage.distance, FrameStage.position, idleFrame, pending]
        omega

theorem refreshOffers_shows (waits : node.requests ≠ []) :
    node.refreshOffers.app.pendingOffers ≠ none := by
  unfold refreshOffers
  split
  · simp
  · rename_i idle
    cases pending : node.app.pendingOffers with
    | some request => simp
    | none =>
      cases queued : node.offers with
      | nil => exact absurd (by simp [requests, pending, queued]) waits
      | cons request offers => exact absurd queued (idle request offers pending)

theorem due_frame (early : node.stage ≠ .showPendingOffers) (left : node.Due request budget)
    (decodeString : String → Option EndpointAddr) (input : Input) :
    ∃ rest, Due request { node.ui decodeString input with stage := node.stage.next } rest ∧
      rest + 1 ≤ budget := by
  obtain ⟨k, waits, rfl⟩ := left
  have frame : Frame decodeString input node (node.ui decodeString input) := ui_frame
  obtain ⟨same, empty⟩ := frame.keeps early
  refine ⟨_, ⟨k, same.symm ▸ waits, rfl⟩, ?_⟩
  have nearer := node.stage.distance_next _ early
  have idle : idleFrame { node.ui decodeString input with stage := node.stage.next } ≤
      node.idleFrame := by
    unfold idleFrame
    split
    · rename_i passes
      have unshown := empty passes.1
      have close : node.stage.distance .showPendingOffers ≤ 6 := by
        have : node.stage.next.distance .showPendingOffers ≤ 5 := passes.2
        omega
      have pulled : node.stage ≠ .refreshOffers := by
        intro due
        have requested : node.requests ≠ [] := by
          intro nothing
          rw [nothing] at waits
          cases waits
        have shown : (node.ui decodeString input).app.pendingOffers = none := passes.1
        exact refreshOffers_shows requested (by simpa only [ui, due] using shown)
      have later : node.stage.distance .showPendingOffers ≤ 5 := by
        cases stage : node.stage with
        | refreshOffers => exact absurd stage pulled
        | _ => simp_all [FrameStage.distance, FrameStage.position]
      rw [if_pos ⟨unshown, later⟩]
    · exact Nat.zero_le _
  change 9 * k + node.stage.next.distance .showPendingOffers + _ + 1 ≤ _
  omega

theorem due_next (left : node.Due request budget) (attended : node.attended action = true)
    (stepped : node.step env action = some after) :
    Decided request after ∨ ∃ rest, after.Due request rest ∧ rest + action.frames ≤ budget := by
  cases action with
  | ui input =>
    simp only [step] at stepped
    split at stepped <;> cases stepped
    by_cases due : node.stage = .showPendingOffers
    · have decides : node.app.pendingOffers = none ∨ input.decision ≠ none := by
        simpa [Node.attended, due] using attended
      have same : node.ui env.decodeString input = node.showPendingOffers input := by
        simp only [ui, due]
      rw [same]
      exact due_modal due left decides
    · exact .inr (due_frame due left env.decodeString input)
  | close => cases attended
  | _ =>
    obtain ⟨k, waits, rfl⟩ := left
    obtain ⟨stage, pending, more, offers⟩ := step_joins stepped (by simp) (by simp)
    refine .inr ⟨_, ⟨k, ?_, rfl⟩, ?_⟩
    · rw [requests, pending, offers, ← List.append_assoc]
      exact List.getElem?_append_left (List.getElem?_eq_some_iff.mp waits).1 |>.trans waits
    · simp only [stage, idleFrame, pending, Action.frames]
      omega

theorem due_bounds (k : Nat) : 0 < 9 * k + node.stage.distance .showPendingOffers + node.idleFrame ∧
    9 * k + node.stage.distance .showPendingOffers + node.idleFrame ≤ 9 * (k + 2) := by
  have stage := node.stage.distance_bounds .showPendingOffers
  unfold idleFrame
  split <;> omega

/-- The k-th request that waits is decided before the frames have run their functions k + 2
times, whatever the handlers, the tasks and discovery do in between. -/
theorem decided_within (waits : node.requests[k]? = some request)
    (more : Run (Guarded (fun node action => node.attended action = true)
      (Steps (Node.step env))) node later after)
    (enough : 9 * (k + 2) ≤ spent Action.frames later) : Decided request after := by
  refine more.reaches (fun left guarded => due_next left guarded.1 guarded.2) ?_ ?_
    ⟨k, waits, rfl⟩ ((due_bounds k).2.trans enough)
  · rintro before action next ⟨decision, inside⟩ ⟨_, stepped⟩
    have one : Run (Steps (Node.step env)) before [action] next := .next .start stepped
    exact ⟨decision, (log_grows one).subset inside⟩
  · rintro next left ⟨place, _, rfl⟩
    exact (due_bounds place).1

/-- The request of a handler that waits for a decision has one of eleven places. -/
theorem waiting_place {connection : Connection}
    (run : Run (Steps (Node.step env)) (.new files) past node)
    (known : node.router.handlers id = some connection) (state : connection.state = .deciding offer)
    (isOpen : node.isOpen = true) (unanswered : node.replies id = none) :
    ∃ k, k ≤ 10 ∧ node.requests[k]? = some (offer, id) := by
  have offering := offering_inv run
  have stage := ((receiving_inv run).facts id connection known).stage
  rw [state] at stage
  obtain ⟨_, read, genuine, _⟩ := stage
  have queued : (offer, id) ∈ node.requests := by
    rcases offering.held isOpen id connection offer known read genuine with
      waits | queued | ⟨decision, replied⟩
    · cases state.symm.trans waits
    · exact queued
    · cases unanswered.symm.trans replied
  obtain ⟨k, waits⟩ := List.getElem?_of_mem queued
  have inRange := (List.getElem?_eq_some_iff.mp waits).1
  have size : node.requests.length ≤ 11 := by
    have bounded : node.offers.length ≤ 10 := offering.bounded
    rw [requests, List.length_append]
    cases node.app.pendingOffers <;> simp <;> omega
  exact ⟨k, by omega, waits⟩

end Node

/-- No offer starves: a handler that has handed its offer to an open window has its decision
after twelve frames at most, if the user decides each offer that is shown. -/
theorem offers_are_decided {connection : Connection}
    (run : Run (Steps (Node.step env)) (.new files) past node)
    (known : node.router.handlers id = some connection) (state : connection.state = .deciding offer)
    (isOpen : node.isOpen = true)
    (more : Run (Guarded (fun node action => node.attended action = true)
      (Steps (Node.step env))) node later after) (enough : 9 * 12 ≤ spent Action.frames later) :
    ∃ decision, after.replies id = some decision ∧ .modal (offer, id) (some decision) ∈ after.log := by
  have invAfter := Node.receiving_inv (run.trans more.unguard)
  have decided : Node.Decided (offer, id) after := by
    cases replied : node.replies id with
    | none =>
      obtain ⟨k, place, waits⟩ := Node.waiting_place run known state isOpen replied
      exact Node.decided_within waits more (by omega)
    | some decision =>
      have inv := Node.receiving_inv run
      have facts := inv.facts id connection known
      have stage := facts.stage
      rw [state] at stage
      obtain ⟨_, shown, modal⟩ := inv.replied id decision replied
      obtain rfl := facts.oneOffer _ _ stage.2.1 (inv.answered shown id decision modal).2
      exact ⟨decision, (Node.log_grows more.unguard).subset modal⟩
  obtain ⟨decision, modal⟩ := decided
  exact ⟨decision, (invAfter.answered offer id decision modal).1, modal⟩

def sampleFrames : List Action :=
  sampleFrame { decline := true } ++ (List.replicate 11 (sampleFrame {})).flatten

theorem offers_are_decided_sample : ∃ before after : Node, ∃ decision,
    before.replies 0 = none ∧ after.replies 0 = some decision ∧
      .modal (sampleOffer, 0) (some decision) ∈ after.log := by
  obtain ⟨before, run, waits, unanswered, isOpen, continues⟩ : ∃ before : Node,
      Run (Steps (Node.step sampleEnv)) (.new []) (sampleConnect 0 sampleOffer).reverse before ∧
      (before.router.handlers 0).map (·.state) = some (.deciding sampleOffer) ∧
      before.replies 0 = none ∧ before.isOpen = true ∧
      (execute (checked Node.attended (Node.step sampleEnv)) before sampleFrames).isSome = true := by
    apply execute_reaches
    decide +kernel
  obtain ⟨connection, known, state⟩ := Option.map_eq_some_iff.mp waits
  obtain ⟨after, done⟩ := Option.isSome_iff_exists.mp continues
  obtain ⟨decision, decided⟩ :=
    offers_are_decided run known state isOpen (execute_run done).of_checked (by decide)
  exact ⟨before, after, decision, unanswered, decided⟩

end IrohShare
