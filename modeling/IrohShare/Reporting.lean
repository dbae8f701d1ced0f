import IrohShare.Completion

/-! A successful receive with no other transfer active is reported as complete
exactly when the offer claims a nonzero size. -/
namespace IrohShare
open Wire Unix Channel Transition

variable {env : Env} {files : List PathBuf} {past : List Action} {node : Node}
  {id : Nat} {log : List Entry}

def sinceAccepted (log : List Entry) : List Entry := log.takeWhile (·.accepted.isNone)

/-- Only this handler has posted progress since the last acceptance. -/
def Alone (id : Nat) (log : List Entry) : Prop :=
  ∀ entry ∈ sinceAccepted log, ∀ other value, entry.posted = some (other, value) → other = id

theorem Alone.of_cons (alone : Alone id (entry :: log)) (unaccepted : entry.accepted = none) :
    Alone id log := by
  intro old inside
  refine alone old ?_
  simp only [sinceAccepted, List.takeWhile_cons, unaccepted]
  exact .tail _ inside

theorem Alone.head (alone : Alone id (entry :: log)) (unaccepted : entry.accepted = none)
    (posted : entry.posted = some (other, value)) : other = id := by
  refine alone entry ?_ other value posted
  simp only [sinceAccepted, List.takeWhile_cons, unaccepted]
  exact .head _

theorem owner_origin (owned : owner log = some request) :
    ∃ downloadDir, .modal request (some (.accept downloadDir)) ∈ log := by
  obtain ⟨entry, inside, accepted⟩ := List.exists_of_findSome?_eq_some owned
  unfold Entry.accepted at accepted
  split at accepted <;> cases accepted
  exact ⟨_, inside⟩

theorem Handler.Move.of_published (move : Handler.Move remote state (.published bytes true) next) :
    ∃ offer target, state = .downloading offer target (.publishing bytes) := by
  cases move with
  | downloading move =>
      cases move
      exact ⟨_, _, rfl⟩

namespace Receiving

variable {side after : Receiving} {connection : Connection} {status : ReceiveStatus}

theorem Inv.owner_offer (inv : side.Inv) (owned : owner side.log = some (offer, id)) :
    .read (.ok offer) ∈ ownEvents id side.log := by
  obtain ⟨downloadDir, inside⟩ := owner_origin owned
  exact (inv.answered _ _ _ inside).2

/-- After the download of the owner has returned, it posts its offer's size only. -/
theorem Inv.post_of_replaced {next : Connection} (inv : side.Inv) (invAfter : after.Inv)
    (known : side.handlers id = some connection)
    (moved : connection.step parse event = some next) (posts : event.posts = some bytes)
    (own : ownEvents id after.log = event :: ownEvents id side.log)
    (owned : owner after.log = some (offer, id))
    (knownAfter : after.handlers id = some next)
    (replaced : .replaced filesize ∈ ownEvents id after.log) : bytes = offer.filesize := by
  have facts := inv.facts id connection known
  have move := (Connection.step_move moved).2.1
  rw [own] at replaced
  cases event with
  | published value ok =>
      cases ok with
      | false => cases posts
      | true =>
          have old : .replaced filesize ∈ ownEvents id side.log := by simpa using replaced
          obtain ⟨other, target, state⟩ := move.of_published
          have stage := facts.stage
          rw [state] at stage
          cases stage.2.mp (facts.lastly filesize old)
  | replaced value =>
      have factsAfter := invAfter.facts id next knownAfter
      obtain ⟨other, _, _, approved, _, serves⟩ :=
        factsAfter.transfers (.replaced value) (by rw [own]; exact .head _) rfl
      obtain rfl := factsAfter.oneOffer _ _ approved.read (invAfter.owner_offer owned)
      exact (Option.some.inj posts).symm.trans serves
  | _ => cases posts

/-- Nothing unfinished is shown. -/
def Finished (side : Receiving) : Prop :=
  ∀ status, side.status = some status → status.completedAt.isSome = true

structure ReportInv (side : Receiving) : Prop where
  reported : ∀ offer id filesize, owner side.log = some (offer, id) → Alone id side.log →
    .replaced filesize ∈ ownEvents id side.log → 0 < offer.filesize →
    side.progress.value = offer.filesize ∧ (side.seen < side.progress.version ∨ side.Finished)
  empty : ∀ offer id, owner side.log = some (offer, id) → offer.filesize = 0 →
    ∃ status, side.status = some status ∧ status.completedAt = none ∧ status.total = 0

theorem ReportInv.frame (report : side.ReportInv) (status : after.status = side.status)
    (progress : after.progress = side.progress) (seen : after.seen = side.seen)
    (owned : owner after.log = owner side.log)
    (alone : ∀ id, Alone id after.log → Alone id side.log)
    (own : ∀ id filesize, .replaced filesize ∈ ownEvents id after.log →
      .replaced filesize ∈ ownEvents id side.log) : after.ReportInv := by
  constructor
  · intro offer id filesize owner' alone' replaced positive
    rw [owned] at owner'
    obtain ⟨value, finished⟩ :=
      report.reported offer id filesize owner' (alone id alone') (own id filesize replaced) positive
    rw [progress, seen]
    refine ⟨value, finished.imp_right fun finished shown found => ?_⟩
    exact finished shown (status.symm.trans found)
  · rw [owned, status]
    exact report.empty

theorem ReportInv.post (report : side.ReportInv) (inv : side.Inv)
    (known : side.handlers id = some connection)
    (moved : connection.step parse event = some next) (posts : event.posts = some bytes)
    (invAfter : ({ side.handle id event next with progress := side.progress.send bytes } :
      Receiving).Inv) :
    ({ side.handle id event next with progress := side.progress.send bytes } :
      Receiving).ReportInv := by
  have same : owner (.handler id event :: side.log) = owner side.log := owner_cons _
  constructor
  · intro offer other filesize owned alone replaced positive
    have posted : Entry.posted (.handler id event) = some (id, bytes) := by
      simp [Entry.posted, posts]
    have here : id = other := alone.head rfl posted
    subst here
    have value := inv.post_of_replaced invAfter known moved posts ownEvents_self owned
      (by simp [Receiving.handle]) replaced
    exact ⟨value, .inl (Nat.lt_succ_of_le inv.behind)⟩
  · intro offer other owned
    exact report.empty offer other (same.symm.trans owned)

theorem ReportInv.poll (report : side.ReportInv) (statuses : side.StatusInv)
    (shown : side.status = some status) :
    ({ side with
      seen := side.progress.version
      status := (status.update side.progress.value side.now).expire side.now } :
        Receiving).ReportInv := by
  constructor
  · intro offer id filesize owned alone replaced positive
    obtain ⟨value, _⟩ := report.reported offer id filesize owned alone replaced positive
    refine ⟨value, .inr fun later kept => ?_⟩
    obtain ⟨other, otherId, owned', _, total⟩ := statuses.owned status shown
    obtain ⟨rfl, rfl⟩ := Prod.mk.inj (Option.some.inj (owned.symm.trans owned'))
    rw [ReceiveStatus.of_expire kept, ReceiveStatus.isSome_update, total, value]
    exact .inr ⟨positive, UInt64.le_refl _⟩
  · intro offer id owned zero
    obtain ⟨other, found, unfinished, total⟩ := report.empty offer id owned zero
    obtain rfl := Option.some.inj (shown.symm.trans found)
    refine ⟨_, ReceiveStatus.expire_update unfinished, ?_, total⟩
    simp [ReceiveStatus.update, unfinished, total]

theorem ReportInv.next (report : side.ReportInv) (inv : side.Inv) (statuses : side.StatusInv)
    (move : Move parse due side action after) : after.ReportInv := by
  have invAfter := inv.next move
  cases move with
  | noted action entry quiet =>
      obtain ⟨unaccepted, _⟩ := Entry.quiet_accepted quiet
      refine report.frame rfl rfl rfl ?_ (fun _ alone => alone.of_cons unaccepted) ?_
      · rw [owner_cons, unaccepted, Option.none_or]
      · intro id filesize replaced
        simpa only [ownEvents_quiet quiet] using replaced
  | handled actor event connection next known moved answers silent =>
      refine report.frame rfl rfl rfl (owner_cons _) (fun _ alone => alone.of_cons rfl) ?_
      intro id filesize replaced
      by_cases here : id = actor
      · subst here
        rcases List.mem_cons.mp (by simpa [Receiving.handle] using replaced) with rfl | old
        · cases silent
        · exact old
      · simpa [Receiving.handle, ownEvents_other here] using replaced
  | offered actor =>
      refine report.frame rfl rfl rfl (owner_cons _) (fun _ alone => alone.of_cons rfl) ?_
      intro id filesize replaced
      by_cases here : id = actor
      · subst here
        simpa [Receiving.handle] using replaced
      · simpa [Receiving.handle, ownEvents_other here] using replaced
  | posted id event bytes connection next known moved posts =>
      exact report.post inv known moved posts invAfter
  | polled input status due shown => exact report.poll statuses shown
  | aged input status due shown unchanged =>
      constructor
      · intro offer id filesize owned alone replaced positive
        obtain ⟨value, behind | finished⟩ :=
          report.reported offer id filesize owned alone replaced positive
        · have seen : side.progress.version = side.seen :=
            Watch.version_of_unchanged inv.live unchanged
          omega
        · refine ⟨value, .inr fun later kept => ?_⟩
          rw [ReceiveStatus.of_expire kept]
          exact finished status shown
      · intro offer id owned zero
        obtain ⟨other, found, unfinished, total⟩ := report.empty offer id owned zero
        obtain rfl := Option.some.inj (shown.symm.trans found)
        exact ⟨status, ReceiveStatus.expire_unfinished unfinished, unfinished, total⟩
  | asked | declined =>
      exact report.frame rfl rfl rfl (owner_cons _) (fun _ alone => alone.of_cons rfl)
        (fun _ _ => id)
  | accepted input offer id downloadDir due isOpen pending =>
      constructor
      · intro other otherId filesize owned alone replaced
        obtain ⟨rfl, rfl⟩ := Prod.mk.inj (Option.some.inj owned)
        have waiting : (offer, id) ∈ side.requests := by simp [requests, pending]
        obtain ⟨_, connection, known, state⟩ := inv.waiting offer id waiting
        have facts := inv.facts id connection known
        have stage := facts.stage
        rw [state] at stage
        exact absurd (facts.lastly filesize replaced) (facts.undecided_unsaved stage.1)
      · intro other otherId owned zero
        obtain ⟨rfl, rfl⟩ := Prod.mk.inj (Option.some.inj owned)
        exact ⟨_, rfl, rfl, zero⟩
  | idle | waited | connected | pulled | closed => exact ⟨report.reported, report.empty⟩

end Receiving
theorem Node.report_inv (run : Run (Steps (Node.step env)) (.new files) past node) :
    node.receiving.ReportInv := by
  apply run.history (P := fun _ node => node.receiving.ReportInv)
  · constructor
    · intro offer id filesize owned
      cases owned
    · intro offer id owned
      cases owned
  · intro past before action after run report stepped
    exact report.next (receiving_inv run) (status_inv run) (step_receiving stepped)

/-- In some state of the run the request's status was shown as complete. -/
def WasComplete (env : Env) (files : List PathBuf) (past : List Action) (request : OfferRequest) :
    Prop :=
  ∃ earlier before status, earlier <:+ past ∧
    Run (Steps (Node.step env)) (.new files) earlier before ∧ owner before.log = some request ∧
    before.app.receiveStatus = some status ∧ status.completedAt.isSome = true

/-- A status only disappears when it is complete. -/
theorem Receiving.Move.cleared {status : ReceiveStatus} (move : Move parse due side action after)
    (shown : side.status = some status) (cleared : after.status = none) :
    status.completedAt.isSome = true := by
  by_contra unfinished
  have unfinished : status.completedAt = none := by simpa using unfinished
  cases move with
  | polled input found due same =>
      obtain rfl := Option.some.inj (same.symm.trans shown)
      cases (ReceiveStatus.expire_update unfinished).symm.trans cleared
  | aged input found due same =>
      obtain rfl := Option.some.inj (same.symm.trans shown)
      cases (ReceiveStatus.expire_unfinished unfinished).symm.trans cleared
  | accepted => cases cleared
  | _ => cases shown.symm.trans cleared

/-- A move that makes a new owner shows its status. -/
theorem Receiving.Move.owner_kept (move : Move parse due side action after)
    (cleared : after.status = none) : owner after.log = owner side.log := by
  cases move with
  | noted action entry quiet =>
      rw [owner_cons, (Entry.quiet_accepted quiet).1, Option.none_or]
  | accepted => cases cleared
  | handled | offered | posted | asked | declined => exact owner_cons _
  | _ => rfl

theorem Node.cleared_was_complete (run : Run (Steps (Node.step env)) (.new files) past node)
    (owned : owner node.log = some request) (cleared : node.app.receiveStatus = none) :
    WasComplete env files past request := by
  revert owned cleared
  apply run.history (P := fun past node => owner node.log = some request →
    node.app.receiveStatus = none → WasComplete env files past request)
  · intro owned
    cases owned
  · intro past before action after run was stepped owned cleared
    have move := Node.step_receiving stepped
    have owned : owner before.log = some request := (move.owner_kept cleared).symm.trans owned
    cases shown : before.app.receiveStatus with
    | none =>
        obtain ⟨earlier, state, status, suffix, rest⟩ := was owned shown
        exact ⟨earlier, state, status, suffix.trans (List.suffix_cons _ _), rest⟩
    | some status =>
        exact ⟨past, before, status, List.suffix_cons _ _, run, owned, shown,
          move.cleared shown cleared⟩

/-- The request's status is shown as complete, or was so before it was cleared. -/
def Reported (env : Env) (files : List PathBuf) (past : List Action) (node : Node)
    (request : OfferRequest) : Prop :=
  (∃ status, node.app.receiveStatus = some status ∧ status.completedAt.isSome = true) ∨
    node.app.receiveStatus = none ∧ WasComplete env files past request

/-- A refresh that shows a status has seen the latest progress value. -/
theorem Node.refresh_catches_up (inv : node.receiving.Inv) :
    node.refreshReceiveStatus.receiving.log = node.log ∧
      (node.refreshReceiveStatus.receiving.status = none ∨
        node.refreshReceiveStatus.receiving.seen =
          node.refreshReceiveStatus.receiving.progress.version) := by
  unfold refreshReceiveStatus
  split
  · rename_i absent
    exact ⟨rfl, .inl absent⟩
  · split
    · exact ⟨rfl, .inr rfl⟩
    · rename_i unchanged
      have seen := Watch.version_of_unchanged inv.live (Bool.eq_false_of_not_eq_true unchanged)
      exact ⟨rfl, .inr seen.symm⟩

/-- After its handler's download has returned, a refresh reports the offer accepted last
as complete exactly when its size is not zero, unless another transfer is active. -/
theorem receive_reported_iff (run : Run (Steps (Node.step env)) (.new files) past node)
    (accepted : owner node.log = some (offer, id)) (alone : Alone id node.log)
    (returned : .replaced filesize ∈ ownEvents id node.log)
    (due : node.stage = .refreshReceiveStatus)
    (stepped : node.step env (.ui input) = some after) :
    Reported env files (.ui input :: past) after (offer, id) ↔ 0 < offer.filesize := by
  have reportAfter := Node.report_inv (run.next stepped)
  have refreshed := Node.step_refresh due stepped
  obtain ⟨log, shows⟩ := Node.refresh_catches_up (Node.receiving_inv run)
  rw [← refreshed] at log shows
  have owned : owner after.receiving.log = some (offer, id) := by rwa [log]
  constructor
  · intro reported
    by_contra zero
    have zero : offer.filesize = 0 := by simpa using zero
    obtain ⟨status, shown, unfinished, _⟩ := reportAfter.empty offer id owned zero
    rcases reported with ⟨other, shown', complete⟩ | ⟨cleared, _⟩
    · obtain rfl := Option.some.inj (shown.symm.trans shown')
      simp [unfinished] at complete
    · cases shown.symm.trans cleared
  · intro positive
    cases shown : after.app.receiveStatus with
    | none => exact .inr ⟨shown, Node.cleared_was_complete (run.next stepped) owned shown⟩
    | some status =>
        obtain ⟨_, behind | finished⟩ := reportAfter.reported offer id filesize owned
          (by rwa [log]) (by rwa [log]) positive
        · rcases shows with cleared | caughtUp
          · cases shown.symm.trans cleared
          · omega
        · exact .inl ⟨status, shown, finished status shown⟩

def sampleServe (offer : Offer) : List Event :=
  [.decided (some (.accept sampleDir)), .wrote 1, .existed sampleTarget (some false),
    .opened sampleTicket.hash sampleTicket.addr.id true, .item none, sampleExport,
    .replaced offer.filesize]

/-- The offer is received, and the next frame comes to its refresh. -/
def sampleReceived (offer : Offer) : List Action :=
  sampleConnect 0 offer ++ sampleFrame sampleAccept ++ (sampleServe offer).map (.handler 0) ++
  List.replicate 3 (.ui {})

/-- What the refresh after `sampleReceived` starts from and leaves. -/
def sampleRefresh (offer : Offer) (status : Option ReceiveStatus) (node : Node) : Prop :=
  owner node.log = some (offer, 0) ∧
    (sinceAccepted node.log).filterMap Entry.posted = [(0, offer.filesize)] ∧
    .replaced offer.filesize ∈ ownEvents 0 node.log ∧ node.stage = .refreshReceiveStatus ∧
    (node.step sampleEnv (.ui {})).map (·.app.receiveStatus) = some status

instance : Decidable (sampleRefresh offer status node) := by
  unfold sampleRefresh
  infer_instance

theorem sampleRefresh_alone (refresh : sampleRefresh offer status node) : Alone 0 node.log := by
  intro entry inside other value posted
  have member := List.mem_filterMap.mpr ⟨entry, inside, posted⟩
  rw [refresh.2.1, List.mem_singleton] at member
  exact congrArg Prod.fst member

theorem sampleReceived_run (offer : Offer) (status : Option ReceiveStatus)
    (runs : (execute (Node.step sampleEnv) (.new []) (sampleReceived offer)).map
      (fun node => decide (sampleRefresh offer status node)) = some true) : ∃ node after : Node,
    Run (Steps (Node.step sampleEnv)) (.new []) (sampleReceived offer).reverse node ∧
    sampleRefresh offer status node ∧ node.step sampleEnv (.ui {}) = some after ∧
    after.app.receiveStatus = status := by
  obtain ⟨node, done, facts⟩ := Option.map_eq_some_iff.mp runs
  have refresh := of_decide_eq_true facts
  obtain ⟨after, stepped, shown⟩ := Option.map_eq_some_iff.mp refresh.2.2.2.2
  exact ⟨node, after, execute_run done, refresh, stepped, shown⟩

theorem receive_reported_sample : ∃ after : Node,
    after.app.receiveStatus = some ⟨sampleOffer.filename, 12, 12, some 0⟩ ∧
    (Reported sampleEnv [] (.ui {} :: (sampleReceived sampleOffer).reverse) after (sampleOffer, 0) ↔
      0 < sampleOffer.filesize) := by
  obtain ⟨node, after, run, refresh, stepped, shown⟩ :=
    sampleReceived_run sampleOffer (some ⟨sampleOffer.filename, 12, 12, some 0⟩)
      (by decide +kernel)
  exact ⟨after, shown, receive_reported_iff run refresh.1 (sampleRefresh_alone refresh)
    refresh.2.2.1 refresh.2.2.2.1 stepped⟩

def sampleEmpty : Offer := ⟨"notes.txt", 0, sampleTicket⟩

/-- An empty file is received, but its status stays unfinished. -/
theorem empty_receive_unreported : ∃ node after : Node,
    Run (Steps (Node.step sampleEnv)) (.new []) (sampleReceived sampleEmpty).reverse node ∧
    owner node.log = some (sampleEmpty, 0) ∧ Alone 0 node.log ∧
    .replaced 0 ∈ ownEvents 0 node.log ∧ node.stage = .refreshReceiveStatus ∧
    node.step sampleEnv (.ui {}) = some after ∧
    ¬ Reported sampleEnv [] (.ui {} :: (sampleReceived sampleEmpty).reverse) after
      (sampleEmpty, 0) := by
  obtain ⟨node, after, run, refresh, stepped, shown⟩ :=
    sampleReceived_run sampleEmpty (some ⟨"notes.txt", 0, 0, none⟩) (by decide +kernel)
  refine ⟨node, after, run, refresh.1, sampleRefresh_alone refresh, refresh.2.2.1,
    refresh.2.2.2.1, stepped, ?_⟩
  rintro (⟨status, found, complete⟩ | ⟨cleared, _⟩)
  · obtain rfl := Option.some.inj (shown.symm.trans found)
    cases complete
  · cases shown.symm.trans cleared

end IrohShare
