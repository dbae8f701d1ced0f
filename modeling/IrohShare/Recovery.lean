import IrohShare.Reporting
import IrohShare.Transition.Since

/-! When the window comes back from a failed receive. Nothing tells it that a handler
has failed, so it depends on the progress values that its refreshes find. -/
namespace IrohShare
open Wire Unix Channel Transition

variable {env : Env} {files : List PathBuf} {past : List Action} {node : Node} {id : Nat}

def Handler.isReturned : Handler → Bool
  | .returned _ => true
  | _ => false

def Event.saves : Event → Bool
  | .exported _ _ .saved => true
  | _ => false

def acceptedRequests (log : List Entry) : List OfferRequest := log.filterMap Entry.accepted

theorem owner_eq : owner log = (acceptedRequests log).head? := List.head?_filterMap.symm

theorem acceptedRequests_cons (unaccepted : entry.accepted = none) :
    acceptedRequests (entry :: log) = acceptedRequests log := by
  simp [acceptedRequests, unaccepted]

/-- The progress value posted last since the last acceptance, and the handler that posted it. -/
def freshPost (log : List Entry) : Option (Nat × UInt64) := lastPost (sinceAccepted log)

/-- It reaches the nonzero size that the offer accepted last claims. -/
def covered (log : List Entry) : Bool :=
  match owner log, freshPost log with
  | some (offer, _), some (_, value) => 0 < offer.filesize && offer.filesize ≤ value
  | _, _ => false

theorem freshPost_cons (unaccepted : entry.accepted = none) :
    freshPost (entry :: log) = entry.posted.or (freshPost log) := by
  rw [freshPost, sinceAccepted, List.takeWhile_cons, unaccepted]
  exact lastPost_cons entry

theorem freshPost_accepted (accepted : entry.accepted = some request) :
    freshPost (entry :: log) = none := by
  rw [freshPost, sinceAccepted, List.takeWhile_cons, accepted]
  rfl

theorem lastPost_of_fresh (posted : freshPost log = some post) : lastPost log = some post := by
  have parts : log = sinceAccepted log ++ log.dropWhile (·.accepted.isNone) :=
    List.takeWhile_append_dropWhile.symm
  rw [parts, lastPost, List.findSome?_append]
  exact Option.or_eq_some_iff.mpr (.inl posted)

theorem covered_iff (owned : owner log = some (offer, id)) (posted : freshPost log = some (actor, value)) :
    covered log = true ↔ 0 < offer.filesize ∧ offer.filesize ≤ value := by
  simp [covered, owned, posted]

theorem ReceiveStatus.of_expired {status : ReceiveStatus} (expired : status.expire now = none) :
    status.completedAt.isSome = true := by
  by_contra unfinished
  cases (expire_unfinished (by simpa using unfinished)).symm.trans expired

namespace Receiving

def returned (side : Receiving) (id : Nat) : Bool :=
  (side.handlers id).any (·.state.isReturned)

def idle (side : Receiving) : Bool :=
  (acceptedRequests side.log).all fun request => side.returned request.2

/-- An accepted handler has ended without exporting. -/
def failed (side : Receiving) : Bool :=
  (acceptedRequests side.log).any fun request =>
    side.returned request.2 && !(ownEvents request.2 side.log).any Event.saves

variable {side after : Receiving} {status : ReceiveStatus} {caught : Prop}

/-- A status is complete exactly if a refresh has caught such a value since the acceptance it
is from, and a value that has been seen is not missed. -/
structure Catches (side : Receiving) (caught : Prop) : Prop where
  complete : ∀ status, side.status = some status → (status.completedAt.isSome = true ↔ caught)
  cleared : side.status = none → owner side.log = none ∨ caught
  fresh : side.seen < side.progress.version → (freshPost side.log).isSome = true
  seen : side.seen = side.progress.version → covered side.log = true → caught

theorem Catches.frame (catches : side.Catches caught) (status : after.status = side.status)
    (seen : after.seen = side.seen) (progress : after.progress = side.progress)
    (owned : owner after.log = owner side.log)
    (posts : freshPost after.log = freshPost side.log) : after.Catches caught where
  complete := by simpa only [status] using catches.complete
  cleared := by simpa only [status, owned] using catches.cleared
  fresh := by simpa only [seen, progress, posts] using catches.fresh
  seen := by simpa only [seen, progress, covered, owned, posts] using catches.seen

/-- Entries that neither accept nor post leave the owner and its values alone. -/
theorem Catches.noted (catches : side.Catches caught) (status : after.status = side.status)
    (seen : after.seen = side.seen) (progress : after.progress = side.progress)
    (log : after.log = entry :: side.log) (unaccepted : entry.accepted = none)
    (unposted : entry.posted = none) : after.Catches caught := by
  refine catches.frame status seen progress ?_ ?_
  · rw [log, owner_cons, unaccepted, Option.none_or]
  · rw [log, freshPost_cons unaccepted, unposted, Option.none_or]

theorem Catches.next (catches : side.Catches caught) (inv : side.Inv)
    (move : Move parse due side action after)
    (elsewhere : ∀ input, action = .ui input → due ≠ .refreshReceiveStatus)
    (same : acceptedRequests after.log = acceptedRequests side.log) : after.Catches caught := by
  cases move with
  | polled input status due | aged input status due => exact absurd due (elsewhere input rfl)
  | accepted => exact absurd same (List.cons_ne_self _ _)
  | noted action entry quiet =>
      obtain ⟨unaccepted, unposted⟩ := Entry.quiet_accepted quiet
      exact catches.noted rfl rfl rfl rfl unaccepted unposted
  | handled id event connection next known moved answers silent =>
      exact catches.noted rfl rfl rfl rfl rfl (by simp [Entry.posted, silent])
  | offered | asked | declined => exact catches.noted rfl rfl rfl rfl rfl rfl
  | posted id event bytes connection next known moved posts =>
      have posted : Entry.posted (.handler id event) = some (id, bytes) := by
        simp [Entry.posted, posts]
      have fresh : freshPost (.handler id event :: side.log) = some (id, bytes) := by
        rw [freshPost_cons (by rfl), posted, Option.some_or]
      constructor
      case complete => exact catches.complete
      case cleared =>
        simpa only [Receiving.handle, owner_cons, Entry.accepted, Option.none_or] using
          catches.cleared
      case fresh =>
        intro _
        simp only [Receiving.handle, fresh, Option.isSome_some]
      case seen =>
        intro caughtUp
        have behind := inv.behind
        have caughtUp : side.seen = side.progress.version + 1 := caughtUp
        omega
  | idle | waited | connected | pulled | closed => exact catches.frame rfl rfl rfl rfl rfl

/-- A new acceptance starts anew. -/
theorem Catches.anew (move : Move parse due side action after)
    (grown : acceptedRequests after.log ≠ acceptedRequests side.log) (uncaught : ¬ caught) :
    after.Catches caught := by
  cases move with
  | accepted input offer id downloadDir =>
      constructor
      case complete =>
        intro status shown
        cases shown
        simpa using uncaught
      case cleared =>
        intro cleared
        cases cleared
      case fresh =>
        intro behind
        exact absurd behind (Nat.lt_irrefl _)
      case seen =>
        intro _ covers
        have unposted : freshPost (.modal (offer, id) (some (.accept downloadDir)) :: side.log) = none :=
          freshPost_accepted rfl
        simp [covered, unposted] at covers
  | noted action entry quiet =>
      exact absurd (acceptedRequests_cons (Entry.quiet_accepted quiet).1) grown
  | _ => exact absurd rfl grown

theorem Move.accepted_suffix (move : Move parse due side action after) :
    acceptedRequests side.log <:+ acceptedRequests after.log := by
  cases move with
  | noted action entry quiet =>
      have same : acceptedRequests (entry :: side.log) = acceptedRequests side.log :=
        acceptedRequests_cons (Entry.quiet_accepted quiet).1
      exact same.symm ▸ List.suffix_rfl
  | accepted => exact List.suffix_cons _ _
  | _ => exact List.suffix_rfl

/-- Without a further acceptance what is finished stays finished. -/
theorem Finished.next (finished : side.Finished) (move : Move parse due side action after)
    (same : acceptedRequests after.log = acceptedRequests side.log) : after.Finished := by
  cases move with
  | polled input status due shown =>
      intro later kept
      rw [ReceiveStatus.of_expire kept, ReceiveStatus.isSome_update]
      exact .inl (finished status shown)
  | aged input status due shown =>
      intro later kept
      rw [ReceiveStatus.of_expire kept]
      exact finished status shown
  | accepted => exact absurd same (List.cons_ne_self _ _)
  | _ => exact finished

end Receiving

namespace Node

/-- Since the last acceptance, a refresh has found that the value posted last since then
reaches the nonzero size that the accepted offer claims. -/
def Caught (env : Env) (files : List PathBuf) (past : List Action) (node : Node) : Prop :=
  Happened (Node.step env) (.new files) (fun node => acceptedRequests node.log)
    (fun node action => node.refreshes action = true ∧ covered node.log = true) past
    (acceptedRequests node.log)

theorem accepted_grows (more : Run (Steps (Node.step env)) node later after) :
    acceptedRequests node.log <:+ acceptedRequests after.log := by
  apply more.invariant (P := fun after => acceptedRequests node.log <:+ acceptedRequests after.log)
  · exact List.suffix_rfl
  · intro before action after grown stepped
    have grows : acceptedRequests before.log <:+ acceptedRequests after.log :=
      (step_receiving stepped).accepted_suffix
    exact grown.trans grows

theorem accepted_between (before : Run (Steps (Node.step env)) node earlier middle)
    (more : Run (Steps (Node.step env)) middle later after)
    (same : acceptedRequests after.log = acceptedRequests node.log) :
    acceptedRequests middle.log = acceptedRequests node.log := by
  have grown := accepted_grows more
  rw [same] at grown
  exact grown.eq_of_length_le (accepted_grows before).length_le

theorem finished_stays (more : Run (Steps (Node.step env)) node later after)
    (finished : node.receiving.Finished)
    (same : acceptedRequests after.log = acceptedRequests node.log) : after.receiving.Finished := by
  induction more with
  | start => exact finished
  | next rest stepped ih =>
      have still := accepted_between rest (Run.start.next stepped) same
      exact (ih still).next (step_receiving stepped) (same.trans still.symm)

/-- The refresh catches such a value, or leaves it to what was caught before. -/
theorem catches_refresh {caught : Prop} (catches : node.receiving.Catches caught)
    (inv : node.receiving.Inv) (statuses : node.receiving.StatusInv) :
    node.refreshReceiveStatus.receiving.Catches (covered node.log = true ∨ caught) := by
  unfold refreshReceiveStatus
  split
  · rename_i absent
    constructor
    case complete =>
      intro status shown
      cases absent.symm.trans shown
    case cleared => exact fun _ => (catches.cleared absent).imp_right .inr
    case fresh => exact catches.fresh
    case seen => exact fun _ covers => .inl covers
  · rename_i status shown
    obtain ⟨offer, id, owned, _, total⟩ := statuses.owned status shown
    split
    · rename_i changed
      have covers : covered node.log = true ↔
          0 < status.total ∧ status.total ≤ node.progress.value := by
        have behind : node.app.progressSeen < node.progress.version := by
          have seen := inv.behind
          have news : node.progress.version ≠ node.app.progressSeen := by
            simpa [Watch.hasChanged, Watch.closed_of_changed changed] using changed
          exact Nat.lt_of_le_of_ne seen (Ne.symm news)
        have owned : owner node.log = some (offer, id) := owned
        obtain ⟨⟨actor, value⟩, posted⟩ : ∃ post, freshPost node.log = some post :=
          Option.isSome_iff_exists.mp (catches.fresh behind)
        have latest : node.progress.value = value := by
          have latest := statuses.latest
          rw [show lastPost node.receiving.log = _ from lastPost_of_fresh posted] at latest
          exact latest
        rw [covered_iff owned posted, total, latest]
      constructor
      case complete =>
        intro later kept
        rw [ReceiveStatus.of_expire kept, ReceiveStatus.isSome_update,
          catches.complete status shown, covers, or_comm]
      case cleared =>
        intro cleared
        have complete := ReceiveStatus.isSome_update.mp (ReceiveStatus.of_expired cleared)
        rw [catches.complete status shown, ← covers] at complete
        exact .inr complete.symm
      case fresh =>
        intro behind
        exact absurd behind (Nat.lt_irrefl _)
      case seen => exact fun _ covers => .inl covers
    · rename_i unchanged
      have seen : node.progress.version = node.app.progressSeen :=
        Watch.version_of_unchanged inv.live (Bool.eq_false_of_not_eq_true unchanged)
      have known : covered node.log = true ∨ caught ↔ caught :=
        or_iff_right_of_imp (catches.seen seen.symm)
      constructor
      case complete =>
        intro later kept
        rw [ReceiveStatus.of_expire kept, known]
        exact catches.complete status shown
      case cleared =>
        intro cleared
        exact .inr (.inr ((catches.complete status shown).mp (ReceiveStatus.of_expired cleared)))
      case fresh => exact catches.fresh
      case seen => exact fun _ covers => .inl covers

theorem caught_cons (run : Run (Steps (Node.step env)) (.new files) past node)
    (same : acceptedRequests after.log = acceptedRequests node.log) :
    Caught env files (action :: past) after ↔
      node.refreshes action = true ∧ covered node.log = true ∨ Caught env files past node := by
  unfold Caught
  rw [same, happened_cons run, and_iff_right rfl]

theorem uncaught_anew (run : Run (Steps (Node.step env)) (.new files) past node)
    (stepped : node.step env action = some after)
    (grown : acceptedRequests after.log ≠ acceptedRequests node.log) :
    ¬ Caught env files (action :: past) after := by
  intro caught
  rcases (happened_cons run).mp caught with ⟨marked, _⟩ | earlier
  · exact grown marked.symm
  · obtain ⟨_, middle, _, later, _, rest, marked, _⟩ := earlier.earlier run
    have back := accepted_between rest (Run.start.next stepped) marked.symm
    exact grown (marked.symm.trans back.symm)

theorem catches (run : Run (Steps (Node.step env)) (.new files) past node) :
    node.receiving.Catches (Caught env files past node) := by
  apply run.history (P := fun past node => node.receiving.Catches (Caught env files past node))
  · constructor
    case complete =>
      intro status shown
      cases shown
    case cleared => exact fun _ => .inl rfl
    case fresh => exact fun behind => absurd behind (Nat.lt_irrefl _)
    case seen =>
      intro _ covers
      cases covers
  · intro past before action after run catches stepped
    have move := step_receiving stepped
    by_cases same : acceptedRequests after.log = acceptedRequests before.log
    · rw [caught_cons run same]
      by_cases refreshes : before.refreshes action = true
      · rw [and_iff_right refreshes]
        cases action with
        | ui input =>
            rw [step_refresh (of_decide_eq_true refreshes) stepped]
            exact catches_refresh catches (receiving_inv run) (status_inv run)
        | _ => cases refreshes
      · rw [or_iff_right fun caught => refreshes caught.1]
        refine catches.next (receiving_inv run) move ?_ same
        rintro input rfl due
        exact refreshes (decide_eq_true due)
    · exact .anew move same (uncaught_anew run stepped same)

/-- Once an offer has been accepted, a refresh leaves nothing unfinished exactly if it
catches such a value or an earlier one has. -/
theorem refreshed_iff (run : Run (Steps (Node.step env)) (.new files) past node)
    (owned : owner node.log = some request) (due : node.stage = .refreshReceiveStatus)
    (stepped : node.step env (.ui input) = some after) :
    after.receiving.Finished ↔ covered node.log = true ∨ Caught env files past node := by
  have catches := catches_refresh (catches run) (receiving_inv run) (status_inv run)
  have log := (refresh_catches_up (receiving_inv run)).1
  rw [← step_refresh due stepped] at catches log
  constructor
  · intro finished
    cases shown : after.receiving.status with
    | none =>
        rcases catches.cleared shown with unowned | caught
        · rw [log, owned] at unowned
          cases unowned
        · exact caught
    | some status => exact (catches.complete status shown).mp (finished status shown)
  · intro caught status shown
    exact (catches.complete status shown).mpr caught

end Node

def lastOwn (id : Nat) (log : List Entry) : Option UInt64 :=
  (ownEvents id log).findSome? Event.posts

/-- While one handler is alone, the value posted last is its own. -/
theorem lastOwn_cons (alone : ∀ other value, entry.posted = some (other, value) → other = id) :
    (lastOwn id (entry :: log)).map (id, ·) = entry.posted.or ((lastOwn id log).map (id, ·)) := by
  unfold lastOwn
  cases entry with
  | handler actor event =>
      by_cases here : id = actor
      · subst here
        rw [ownEvents_self, List.findSome?_cons]
        cases posts : event.posts with
        | none => simp [Entry.posted, posts]
        | some value => simp [Entry.posted, posts]
      · rw [ownEvents_other here]
        cases posts : event.posts with
        | none => simp [Entry.posted, posts]
        | some value => exact absurd (alone actor value (by simp [Entry.posted, posts])).symm here
  | _ => rfl

theorem Handler.Facts.unposted (facts : Handler.Facts remote log state)
    (undecided : ∀ decision, .decided decision ∉ log) : log.findSome? Event.posts = none := by
  refine List.findSome?_eq_none_iff.mpr fun event inside => ?_
  by_contra posts
  have transfer : event.isTransfer = true := by
    cases event with
    | published | replaced => rfl
    | _ => exact absurd rfl posts
  obtain ⟨_, _, _, approved, _⟩ := facts.transfers event inside transfer
  exact undecided _ approved.chosen

/-- As long as no other handler posts, what has been posted since the acceptance is what
the accepted handler has posted. -/
def Credits (log : List Entry) : Prop := ∀ offer id, owner log = some (offer, id) → Alone id log →
  freshPost log = (lastOwn id log).map (id, ·)

theorem Credits.cons (credits : Credits log) (unaccepted : entry.accepted = none) :
    Credits (entry :: log) := by
  intro offer id owned alone
  rw [owner_cons, unaccepted, Option.none_or] at owned
  rw [freshPost_cons unaccepted, lastOwn_cons fun _ _ => alone.head unaccepted,
    credits offer id owned (alone.of_cons unaccepted)]

theorem Receiving.credits_next {side after : Receiving} (credits : Credits side.log)
    (inv : side.Inv) (move : Move parse due side action after) : Credits after.log := by
  cases move with
  | noted action entry quiet => exact credits.cons (Entry.quiet_accepted quiet).1
  | accepted input offer id downloadDir due isOpen pending =>
      intro other actor owned _
      obtain ⟨rfl, rfl⟩ := Prod.mk.inj (Option.some.inj owned)
      obtain ⟨_, connection, known, state⟩ :=
        inv.waiting offer id (by simp [requests, pending])
      have facts := inv.facts id connection known
      have stage := facts.stage
      rw [state] at stage
      rw [freshPost_accepted (by rfl), lastOwn, ownEvents_modal, facts.unposted stage.1,
        Option.map_none]
  | handled | offered | posted | asked | declined => exact credits.cons rfl
  | _ => exact credits

theorem Node.credits (run : Run (Steps (Node.step env)) (.new files) past node) :
    Credits node.log := by
  apply run.history (P := fun _ node => Credits node.log)
  · intro offer id owned
    cases owned
  · intro past before action after run credits stepped
    exact Receiving.credits_next credits (receiving_inv run) (step_receiving stepped)

def Event.opens : Event → Bool
  | .opened _ _ ok => ok
  | _ => false

def Handler.isOpened : Handler → Bool
  | .downloading _ _ .checking | .downloading _ _ .opening => false
  | .downloading .. => true
  | _ => false

theorem Handler.Move.isOpened (move : Handler.Move remote state event next)
    (opened : next.isOpened = true) : event.opens = true ∨ state.isOpened = true := by
  cases move with
  | lost => exact .inr opened
  | greeted =>
      unfold download at opened
      split at opened <;> cases opened
  | downloading move =>
      cases move with
      | opened => exact .inl rfl
      | absent => cases opened
      | blocked | unopened => cases opened
      | _ => exact .inr rfl
  | _ => cases opened

theorem Handler.Move.opened_of_posts (move : Handler.Move remote state event next)
    (posts : event.posts = some bytes) : state.isOpened = true := by
  cases move with
  | downloading move =>
      cases move with
      | published | replaced => rfl
      | _ => cases posts
  | _ => cases posts

theorem opened_of_posts
    (run : Run (Steps (Connection.step parse)) (.new remote incoming) log connection)
    (inside : event ∈ log) (posts : event.posts = some bytes) : log.any Event.opens = true := by
  have opens : (connection.state.isOpened = true → log.any Event.opens = true) ∧
      ∀ event ∈ log, event.posts.isSome = true → log.any Event.opens = true := by
    apply run.history (P := fun log connection =>
      (connection.state.isOpened = true → log.any Event.opens = true) ∧
        ∀ event ∈ log, event.posts.isSome = true → log.any Event.opens = true)
    · constructor
      · intro opened
        cases opened
      · intro event inside
        cases inside
    · rintro log before event after _ ⟨running, posted⟩ stepped
      have move := (Connection.step_move stepped).2.1
      simp only [List.any_cons, Bool.or_eq_true]
      refine ⟨fun opened => (move.isOpened opened).imp_right running, fun other inside posts => .inr ?_⟩
      rcases List.mem_cons.mp inside with rfl | old
      · obtain ⟨bytes, posts⟩ := Option.isSome_iff_exists.mp posts
        exact running (move.opened_of_posts posts)
      · exact posted other old posts
  exact opens.2 event inside (Option.isSome_of_eq_some posts)

theorem Alone.of_append (alone : Alone id (front ++ log)) (unaccepted : acceptedRequests front = []) :
    Alone id log := by
  induction front with
  | nil => exact alone
  | cons entry front ih =>
    have none := List.filterMap_eq_nil_iff.mp unaccepted
    exact ih (alone.of_cons (none entry (.head _)))
      (List.filterMap_eq_nil_iff.mpr fun _ inside => none _ (.tail _ inside))

namespace Node

/-- While no other handler posts, it is the accepted handler's own last value that counts. -/
theorem covered_alone (run : Run (Steps (Node.step env)) (.new files) past node)
    (owned : owner node.log = some (offer, id)) (alone : Alone id node.log) :
    covered node.log = true ↔ ∃ value, lastOwn id node.log = some value ∧
      0 < offer.filesize ∧ offer.filesize ≤ value := by
  have credits := credits run offer id owned alone
  cases own : lastOwn id node.log with
  | none =>
      rw [own, Option.map_none] at credits
      simp [covered, credits]
  | some value =>
      rw [own, Option.map_some] at credits
      simp [covered_iff owned credits]

theorem uncovered (run : Run (Steps (Node.step env)) (.new files) past node)
    (owned : owner node.log = some (offer, id)) (alone : Alone id node.log)
    (unopened : (ownEvents id node.log).any Event.opens = false) : covered node.log = false := by
  have unposted : lastOwn id node.log = none := by
    refine List.findSome?_eq_none_iff.mpr fun event inside => ?_
    by_contra posts
    obtain ⟨bytes, posts⟩ := Option.ne_none_iff_exists'.mp posts
    cases known : node.router.handlers id with
    | none =>
        have silent : ownEvents id node.log = [] := (receiving_inv run).absent id known
        rw [silent] at inside
        cases inside
    | some connection =>
        obtain ⟨_, _, own⟩ := handler_run run id connection known
        cases unopened.symm.trans (opened_of_posts own inside posts)
  rw [← Bool.not_eq_true, covered_alone run owned alone, unposted]
  rintro ⟨value, posted, _⟩
  cases posted

theorem unopened_uncaught (run : Run (Steps (Node.step env)) (.new files) past node)
    (owned : owner node.log = some (offer, id)) (alone : Alone id node.log)
    (unopened : (ownEvents id node.log).any Event.opens = false) : ¬ Caught env files past node := by
  intro caught
  obtain ⟨_, middle, _, later, before, rest, marked, _, covers⟩ := caught.earlier run
  obtain ⟨front, grown⟩ := log_grows rest
  rw [← grown] at alone unopened
  have unaccepted : acceptedRequests front = [] := by
    have same : acceptedRequests middle.log = acceptedRequests node.log := marked
    rw [← grown, acceptedRequests, acceptedRequests, List.filterMap_append] at same
    exact List.self_eq_append_left.mp same
  have owned : owner middle.log = some (offer, id) := by
    rw [owner_eq, marked, ← owner_eq, owned]
  rw [ownEvents, List.filterMap_append, List.any_append, Bool.or_eq_false_iff] at unopened
  cases covers.symm.trans (uncovered before owned (alone.of_append unaccepted) unopened.2)

end Node

/-- A handler that ends before it has opened its download, and so without posting, leaves
the window stuck if nobody else posts. -/
theorem unopened_receive_strands (run : Run (Steps (Node.step env)) (.new files) past before)
    (owned : owner before.log = some (offer, id)) (alone : Alone id before.log)
    (unopened : (ownEvents id before.log).any Event.opens = false)
    (due : before.stage = .refreshReceiveStatus)
    (stepped : before.step env (.ui input) = some after) : ¬ after.receiving.Finished := by
  rw [Node.refreshed_iff run owned due stepped, Node.uncovered run owned alone unopened]
  simpa using Node.unopened_uncaught run owned alone unopened

theorem Receiving.owner_of_failed {side : Receiving} (failed : side.failed = true) :
    ∃ request, owner side.log = some request := by
  obtain ⟨request, accepted, _⟩ := List.any_eq_true.mp failed
  rw [owner_eq, ← Option.isSome_iff_exists, List.isSome_head?]
  exact List.ne_nil_of_mem accepted

/-- Whatever has failed: from a refresh on nothing unfinished is shown until the next
acceptance exactly if this refresh, or one since the last acceptance, found that the value
posted last since then reaches the nonzero size that the accepted offer claims. -/
theorem failed_receive_recovers_iff (run : Run (Steps (Node.step env)) (.new files) past before)
    (failed : before.receiving.failed = true) (due : before.stage = .refreshReceiveStatus)
    (stepped : before.step env (.ui input) = some after) :
    (∀ later node, Run (Steps (Node.step env)) after later node →
        acceptedRequests node.log = acceptedRequests after.log → node.receiving.Finished) ↔
      covered before.log = true ∨ Node.Caught env files past before := by
  obtain ⟨request, owned⟩ := Receiving.owner_of_failed failed
  rw [← Node.refreshed_iff run owned due stepped]
  constructor
  · intro always
    exact always [] after .start rfl
  · intro finished later node more same
    exact Node.finished_stays more finished same

/-- An accepted handler runs into this error, ends, and a frame comes to its refresh. -/
def sampleFailure (events : List Event) : List Action :=
  sampleConnect 0 sampleOffer ++ sampleFrame sampleAccept ++ events.map (.handler 0) ++
  List.replicate 3 (.ui {})

/-- The whole file arrives, but the export fails. -/
def sampleUnexported : List Event :=
  sampleFetch 12 ++ (DownloadStatus.progress 12).bytes.map .wrote ++
  [.item none, .exported sampleTicket.hash sampleTarget (.failed false), .wrote 4,
    .finished true, .closed]

theorem failed_receive_recovers_sample : ∃ before after : Node,
    before.receiving.failed = true ∧ before.step sampleEnv (.ui {}) = some after ∧
      ∀ later node, Run (Steps (Node.step sampleEnv)) after later node →
        acceptedRequests node.log = acceptedRequests after.log → node.receiving.Finished := by
  obtain ⟨before, run, failed, due, covers, continues⟩ : ∃ before : Node,
      Run (Steps (Node.step sampleEnv)) (.new []) (sampleFailure sampleUnexported).reverse before ∧
      before.receiving.failed = true ∧ before.stage = .refreshReceiveStatus ∧
      covered before.log = true ∧ (before.step sampleEnv (.ui {})).isSome = true := by
    apply execute_reaches
    decide +kernel
  obtain ⟨after, stepped⟩ := Option.isSome_iff_exists.mp continues
  exact ⟨before, after, failed, stepped,
    (failed_receive_recovers_iff run failed due stepped).mpr (.inl covers)⟩

/-- The sender has given up before its offer is accepted; the window waits forever. -/
theorem refused_receive_strands : ∃ before after : Node,
    Run (Steps (Node.step sampleEnv)) (.new [])
      (sampleFailure [.decided (some (.accept sampleDir)), .lost, .writeFailed]).reverse before ∧
    before.receiving.idle = true ∧ before.receiving.failed = true ∧
    before.stage = .refreshReceiveStatus ∧ before.step sampleEnv (.ui {}) = some after ∧
    ¬ after.receiving.Finished := by
  obtain ⟨before, run, idle, failed, due, shown⟩ : ∃ before : Node,
      Run (Steps (Node.step sampleEnv)) (.new [])
        (sampleFailure [.decided (some (.accept sampleDir)), .lost, .writeFailed]).reverse before ∧
      before.receiving.idle = true ∧ before.receiving.failed = true ∧
      before.stage = .refreshReceiveStatus ∧
      (before.step sampleEnv (.ui {})).map (·.app.receiveStatus) =
        some (some ⟨sampleOffer.filename, 0, 12, none⟩) := by
    apply execute_reaches
    decide +kernel
  obtain ⟨after, stepped, shown⟩ := Option.map_eq_some_iff.mp shown
  refine ⟨before, after, run, idle, failed, due, stepped, fun finished => ?_⟩
  cases finished _ shown

end IrohShare
