import IrohShare.Approval
import IrohShare.Selecting

/-! The peer list: the watch carries the devices whose last event announced them, and a
refresh of the window shows exactly these, whatever was conflated in between. -/
namespace IrohShare
open Wire Unix Channel Transition

variable {env : Env} {files : List PathBuf} {past : List Action} {node after : Node}
  {id : EndpointId} {log : List Entry}

/-- What an event tells about a device: its name and address, or that it is gone. -/
def DiscoveryEvent.tells (id : EndpointId) : DiscoveryEvent → Option (Option Peer)
  | .discovered info =>
    if info.endpointId = id then
      info.userData.map fun name => some (name, info.intoEndpointAddr)
    else none
  | .expired endpointId => if endpointId = id then some none else none
  | .other => none

def Entry.tells (id : EndpointId) : Entry → Option (Option Peer)
  | .discovery event => event.tells id
  | _ => none

/-- The device according to the last event that tells something about it. -/
def live (id : EndpointId) (log : List Entry) : Option Peer :=
  (log.findSome? (Entry.tells id)).join

/-- The list has one entry for each live device, with its last name and address. -/
def ListsLive (log : List Entry) (peers : List Peer) : Prop :=
  (peers.map (·.2.id)).Nodup ∧ ∀ id peer, peer ∈ peers ∧ peer.2.id = id ↔ live id log = some peer

theorem live_cons (entry : Entry) :
    live id (entry :: log) = (entry.tells id).getD (live id log) := by
  unfold live
  rw [List.findSome?_cons]
  cases entry.tells id <;> rfl

theorem live_quiet {entry : Entry} (quiet : entry.tells id = none) :
    live id (entry :: log) = live id log := by
  rw [live_cons, quiet, Option.getD_none]

/-- A list of the live devices does not have one that is gone. -/
theorem ListsLive.unlisted_iff (lists : ListsLive log peers) :
    Lists peers id = false ↔ live id log = none := by
  rw [← Bool.not_eq_true, lists_iff, Option.eq_none_iff_forall_not_mem]
  constructor
  · intro absent peer found
    obtain ⟨inside, same⟩ := (lists.2 id peer).mpr found
    exact absent ⟨peer, inside, same⟩
  · rintro gone ⟨peer, inside, same⟩
    exact gone peer ((lists.2 id peer).mp ⟨inside, same⟩)

theorem tells_none (unpublished : discover peers event = none) : event.tells id = none := by
  cases event with
  | discovered info =>
      have unnamed : info.userData = none := Option.map_eq_none_iff.mp unpublished
      simp [DiscoveryEvent.tells, unnamed]
  | expired => cases unpublished
  | other => rfl

/-- The map follows what each event tells. -/
theorem lookup_discover (published : discover peers event = some discovered) :
    discovered.lookup id = (event.tells id).getD (peers.lookup id) := by
  cases event with
  | discovered info =>
      obtain ⟨name, named, rfl⟩ := Option.map_eq_some_iff.mp published
      by_cases same : info.endpointId = id
      · subst same
        rw [AList.lookup_insert, DiscoveryEvent.tells, if_pos rfl, named]
        rfl
      · rw [AList.lookup_insert_ne (Ne.symm same), DiscoveryEvent.tells, if_neg same]
        rfl
  | expired endpointId =>
      cases published
      by_cases same : endpointId = id
      · subst same
        rw [AList.lookup_erase, DiscoveryEvent.tells, if_pos rfl]
        rfl
      · rw [AList.lookup_erase_ne (Ne.symm same), DiscoveryEvent.tells, if_neg same]
        rfl
  | other => cases published

theorem tells_id {event : DiscoveryEvent} (tells : event.tells id = some (some peer)) :
    peer.2.id = id := by
  cases event with
  | discovered info =>
      simp only [DiscoveryEvent.tells] at tells
      split at tells
      · rename_i same
        obtain ⟨name, _, told⟩ := Option.map_eq_some_iff.mp tells
        cases told
        exact same
      · cases tells
  | expired endpointId =>
      simp only [DiscoveryEvent.tells] at tells
      split at tells <;> cases tells
  | other => cases tells

theorem live_id (found : live id log = some peer) : peer.2.id = id := by
  induction log with
  | nil => cases found
  | cons entry log ih =>
    rw [live_cons] at found
    cases tells : entry.tells id with
    | none =>
        rw [tells, Option.getD_none] at found
        exact ih found
    | some said =>
        rw [tells, Option.getD_some] at found
        subst found
        cases entry with
        | discovery event => exact tells_id tells
        | _ => cases tells

/-- A map that holds the live devices lists them under distinct ids. -/
theorem PeerMap.listsLive {peers : PeerMap} (lists : peers.Lists values)
    (holds : ∀ id, peers.lookup id = live id log) : ListsLive log values := by
  have keyed {id : EndpointId} {peer : Peer} (found : peers.lookup id = some peer) :
      peer.2.id = id := live_id ((holds id).symm.trans found)
  constructor
  · have keys : (peers.entries.map Sigma.snd).map (·.2.id) = peers.keys := by
      rw [List.map_map]
      exact List.map_congr_left fun entry inside => keyed (AList.mem_lookup_iff.mpr inside)
    rw [(List.Perm.map _ lists).nodup_iff, keys]
    exact peers.keys_nodup
  · intro id peer
    rw [PeerMap.mem_lists lists]
    constructor
    · rintro ⟨⟨other, found⟩, rfl⟩
      rw [keyed found, ← holds]
      exact found
    · intro found
      exact ⟨⟨id, (holds id).trans found⟩, live_id found⟩

/-- The map holds the live devices, an open watch lists the map, and the window shows
what it has seen of the watch. -/
structure Node.Listing (node : Node) : Prop where
  holds : ∀ id, node.discovered.lookup id = live id node.log
  lists : node.peers.closed = false → node.discovered.Lists node.peers.value
  behind : node.app.peersSeen ≤ node.peers.version
  seen : node.app.peersSeen = node.peers.version → node.app.peers = node.peers.value
  pulses : ∀ name ∈ node.app.peerPulseStarted.map Prod.fst, name ∈ node.app.peers.map Prod.fst

theorem Node.Listing.frame (listing : node.Listing) (discovered : after.discovered = node.discovered)
    (peers : after.peers = node.peers) (seen : after.app.peersSeen = node.app.peersSeen)
    (listed : after.app.peers = node.app.peers)
    (pulses : ∀ name ∈ after.app.peerPulseStarted.map Prod.fst,
      name ∈ node.app.peers.map Prod.fst)
    (said : ∀ id, live id after.log = live id node.log) : after.Listing where
  holds := by simpa only [discovered, said] using listing.holds
  lists := by simpa only [discovered, peers] using listing.lists
  behind := by simpa only [peers, seen] using listing.behind
  seen := by simpa only [peers, seen, listed] using listing.seen
  pulses := by simpa only [listed] using pulses

theorem pulse_names {peers : List Peer} {pulses : List (String × Nat)}
    (inside : name ∈ (peers.foldl (fun pulses (name, _) =>
      if pulses.any (·.1 = name) then pulses else (name, now) :: pulses) pulses).map Prod.fst) :
    name ∈ pulses.map Prod.fst ∨ name ∈ peers.map Prod.fst := by
  induction peers generalizing pulses with
  | nil => exact .inl inside
  | cons peer peers ih =>
    obtain ⟨listed, address⟩ := peer
    rw [List.foldl_cons] at inside
    rcases ih inside with before | later
    · dsimp only at before
      by_cases pulsing : pulses.any (·.1 = listed) = true
      · rw [if_pos pulsing] at before
        exact .inl before
      · rw [if_neg pulsing] at before
        rcases List.mem_cons.mp before with rfl | before
        · exact .inr (.head _)
        · exact .inl before
    · exact .inr (.tail _ later)

theorem Node.Listing.framed (listing : node.Listing) (frame : Frame decodeString input node after) :
    after.Listing := by
  cases frame with
  | refreshed due changed =>
      refine ⟨listing.holds, listing.lists, le_refl _, fun _ => rfl, ?_⟩
      intro name inside
      obtain ⟨pulse, kept, rfl⟩ := List.mem_map.mp inside
      obtain ⟨peer, listed, same⟩ := List.any_eq_true.mp (List.mem_filter.mp kept).2
      exact List.mem_map.mpr ⟨peer, listed, of_decide_eq_true same⟩
  | listed hidden unselected =>
      refine listing.frame rfl rfl rfl rfl (fun name inside => ?_) fun _ => rfl
      exact (pulse_names inside).elim (listing.pulses name) id
  | consumed | asked | declined | accepted =>
      exact listing.frame rfl rfl rfl rfl listing.pulses fun _ => live_quiet rfl
  | _ => exact listing.frame rfl rfl rfl rfl listing.pulses fun _ => rfl

theorem Node.Listing.next (listing : node.Listing) (move : Move env node action after) :
    after.Listing := by
  cases move with
  | framed input after isOpen frame =>
      exact (listing.framed frame).frame rfl rfl rfl rfl (listing.framed frame).pulses fun _ => rfl
  | ignored event order live found =>
      exact listing.frame rfl rfl rfl rfl listing.pulses fun _ => live_quiet (tells_none found)
  | announced event order discovered live found lists =>
      have holds (id : EndpointId) : discovered.lookup id =
          IrohShare.live id (.discovery event :: node.log) := by
        rw [lookup_discover found, listing.holds, live_cons]
        rfl
      by_cases isOpen : node.isOpen = true
      · refine ⟨holds, ?_, ?_, ?_, listing.pulses⟩
        · simpa only [if_pos isOpen, Watch.send_value] using fun _ => lists
        · simpa only [if_pos isOpen, Watch.send_version] using listing.behind.trans (Nat.le_succ _)
        · intro same
          have behind := listing.behind
          simp only [if_pos isOpen, Watch.send_version] at same
          omega
      · refine ⟨holds, ?_, ?_, ?_, listing.pulses⟩
        · intro open_
          simp [if_neg isOpen] at open_
        · simpa only [if_neg isOpen] using listing.behind
        · simpa only [if_neg isOpen] using listing.seen
  | ended =>
      exact ⟨listing.holds, (fun open_ => by cases open_), listing.behind, listing.seen,
        listing.pulses⟩
  | handled | offered | posted | worked | published | reported =>
      exact listing.frame rfl rfl rfl rfl listing.pulses fun _ => live_quiet rfl
  | connected | waited | closed =>
      exact listing.frame rfl rfl rfl rfl listing.pulses fun _ => rfl

theorem Node.listing (run : Run (Steps (Node.step env)) (.new files) past node) : node.Listing := by
  apply run.invariant (P := Node.Listing)
  · refine ⟨fun _ => rfl, fun _ => .nil, le_refl _, fun _ => rfl, ?_⟩
    intro name inside
    cases inside
  · intro before action after listing stepped
    exact listing.next (step_move stepped)

/-- Only a refresh that finds a new publication changes the list. -/
theorem Node.step_peers (stepped : node.step env action = some after) :
    after.app.peers = if node.picksUp action then node.peers.value else node.app.peers := by
  cases action with
  | ui input =>
      by_cases due : node.stage = .refreshPeers
      · simp only [step] at stepped
        split at stepped <;> cases stepped
        simp only [ui, due, refreshPeers, picksUp, true_and, decide_eq_true_eq]
        split <;> rfl
      · have unrefreshed : node.picksUp (.ui input) = false := by simp [picksUp, due]
        rw [unrefreshed]
        cases step_move stepped with
        | framed _ after isOpen frame =>
            cases frame with
            | refreshed refreshes => exact absurd refreshes due
            | _ => rfl
  | _ => cases step_move stepped <;> rfl

/-- Right after a refresh the window shows what is in the watch. -/
theorem Node.Listing.refreshed (listing : node.Listing) (due : node.stage = .refreshPeers)
    (live : node.peers.closed = false) (stepped : node.step env (.ui input) = some after) :
    after.app.peers = node.peers.value := by
  rw [step_peers stepped]
  split
  · rfl
  · rename_i unchanged
    have unchanged : node.peers.hasChanged node.app.peersSeen = false := by
      simpa [picksUp, due] using unchanged
    exact listing.seen (Watch.version_of_unchanged live unchanged).symm

/-- The device was selected, and since then nothing else was, and no refresh has
found a new publication. -/
def SelectedSince (env : Env) (files : List PathBuf) (past : List Action) (node : Node)
    (device : Device) : Prop :=
  ∃ earlier before action chosen later, past = later ++ action :: earlier ∧
    Run (Steps (Node.step env)) (.new files) earlier before ∧
    before.selects env action = some device ∧ before.step env action = some chosen ∧
    Run (Guarded (fun state action => state.picksUp action = false ∧
      state.selects env action = none) (Steps (Node.step env))) chosen later node

/-- A selected device that is not listed has been selected since the last publication
that was picked up. -/
theorem Node.selected_since (run : Run (Steps (Node.step env)) (.new files) past node)
    (selected : node.app.selectedPeer = some device)
    (unlisted : Lists node.app.peers device.2.id = false) :
    SelectedSince env files past node device := by
  revert selected unlisted
  apply run.history (P := fun past node => node.app.selectedPeer = some device →
    Lists node.app.peers device.2.id = false → SelectedSince env files past node device)
  · intro selected
    cases selected
  · intro past before action after run since stepped selected unlisted
    rw [step_selected stepped] at selected
    rw [step_peers stepped] at unlisted
    unfold nextSelected at selected
    by_cases found : before.picksUp action = true
    · rw [if_pos found] at selected unlisted
      have listed := (Option.filter_eq_some_iff.mp selected).2
      cases unlisted.symm.trans listed
    rw [if_neg found] at selected unlisted
    by_cases back : before.goesBack action = true
    · rw [if_pos back] at selected
      cases selected
    rw [if_neg back] at selected
    cases choice : before.selects env action with
    | some chosen =>
        obtain rfl : chosen = device := by simpa [choice] using selected
        exact ⟨past, before, action, after, [], rfl, run, choice, stepped, .start⟩
    | none =>
        rw [choice, Option.none_or] at selected
        obtain ⟨earlier, origin, choosing, chosen, later, rfl, rest, selects, first, quiet⟩ :=
          since selected unlisted
        exact ⟨earlier, origin, choosing, chosen, action :: later, rfl, rest, selects, first,
          quiet.next ⟨⟨Bool.eq_false_of_not_eq_true found, choice⟩, stepped⟩⟩

/-- The window shows the live devices. -/
structure Node.ShowsLive (env : Env) (files : List PathBuf) (past : List Action) (node : Node) :
    Prop where
  published : node.app.peers.Perm node.peers.value
  peers : ListsLive node.log node.app.peers
  pulses : ∀ pulse ∈ node.app.peerPulseStarted, ∃ peer ∈ node.app.peers, peer.1 = pulse.1
  selected : ∀ device, node.app.selectedPeer = some device →
    Lists node.app.peers device.2.id = false → SelectedSince env files past node device

/-- After each event the watch of a live discovery lists the live devices, and so does
the window right after its refresh, however the events and frames are interleaved. -/
theorem peers_are_live (run : Run (Steps (Node.step env)) (.new files) past node) :
    (node.peers.closed = false → ListsLive node.log node.peers.value) ∧
    ∀ input after, node.stage = .refreshPeers → node.peers.closed = false →
      node.step env (.ui input) = some after → after.ShowsLive env files (.ui input :: past) := by
  have listing := Node.listing run
  refine ⟨fun live => PeerMap.listsLive (listing.lists live) listing.holds, ?_⟩
  intro input after due live stepped
  have later := run.next stepped
  have listing' := Node.listing later
  have peers : after.peers = node.peers := by
    cases Node.step_move stepped with
    | framed _ after isOpen frame => cases frame <;> rfl
  have shown : after.app.peers = after.peers.value := by
    rw [listing.refreshed due live stepped, peers]
  have watched : ListsLive after.log after.peers.value :=
    PeerMap.listsLive (listing'.lists (by rw [peers]; exact live)) listing'.holds
  refine ⟨by rw [shown], by rw [shown]; exact watched, ?_, ?_⟩
  · intro pulse inside
    exact List.mem_map.mp (listing'.pulses pulse.1 (List.mem_map_of_mem inside))
  · intro device selected unlisted
    exact Node.selected_since later selected unlisted

def sampleDesk : EndpointInfo := ⟨sampleTicket.addr.id, ["10.0.0.7"], some "desk"⟩

def samplePhone : EndpointInfo := ⟨⟨9⟩, [], some "phone"⟩

def sampleEvents : List Action :=
  [.discovery (.discovered ⟨sampleTicket.addr.id, [], some "laptop"⟩)
    [("laptop", ⟨sampleTicket.addr.id, []⟩)],
  .discovery (.discovered sampleDesk) [("desk", sampleDesk.intoEndpointAddr)],
  .discovery (.discovered ⟨⟨7⟩, [], none⟩) [],
  .discovery (.discovered samplePhone)
    [("phone", samplePhone.intoEndpointAddr), ("desk", sampleDesk.intoEndpointAddr)],
  .discovery (.expired samplePhone.endpointId) [("desk", sampleDesk.intoEndpointAddr)]]

theorem peers_are_live_sample : ∃ node after : Node,
    Run (Steps (Node.step sampleEnv)) (.new []) sampleEvents.reverse node ∧
    node.peers.value = [("desk", sampleDesk.intoEndpointAddr)] ∧
    ListsLive node.log node.peers.value ∧
    node.step sampleEnv (.ui {}) = some after ∧
    after.ShowsLive sampleEnv [] (.ui {} :: sampleEvents.reverse) := by
  obtain ⟨node, run, value, live, due, isOpen⟩ : ∃ node : Node,
      Run (Steps (Node.step sampleEnv)) (.new []) sampleEvents.reverse node ∧
      node.peers.value = [("desk", sampleDesk.intoEndpointAddr)] ∧
      node.peers.closed = false ∧ node.stage = .refreshPeers ∧ node.isOpen = true := by
    apply execute_reaches
    decide +kernel
  obtain ⟨after, stepped⟩ : ∃ after, node.step sampleEnv (.ui {}) = some after := by
    rw [Node.step, if_pos isOpen]
    exact ⟨_, rfl⟩
  obtain ⟨published, refreshed⟩ := peers_are_live run
  exact ⟨node, after, run, value, published live, stepped,
    refreshed {} after due live stepped⟩

end IrohShare
