import IrohShare.NodeMoves

/-! Where the names of devices come from: every peer the program lists was announced
by a discovery event with that name and that endpoint id. -/
namespace IrohShare
open Wire Unix Channel Transition

structure Discovering where
  discovered : PeerMap
  peers : Watch (List Peer)
  listed : List Peer
  log : List Entry

def Node.discovering (node : Node) : Discovering :=
  ⟨node.discovered, node.peers, node.app.peers, node.log⟩

namespace Discovering

/-- The moves of discovery: other steps only add entries to the log. -/
inductive Move : Discovering → Discovering → Prop where
  | logged (side : Discovering) (log : List Entry) (grown : side.log <:+ log) :
      Move side { side with log }
  | refreshed (side : Discovering) : Move side { side with listed := side.peers.value }
  | published (side : Discovering) (event : DiscoveryEvent) (discovered : PeerMap)
      (order : List Peer) (peers : Watch (List Peer))
      (found : discover side.discovered event = some discovered) (lists : discovered.Lists order)
      (sent : peers.value = order ∨ peers.value = side.peers.value) :
      Move side { side with discovered, peers, log := .discovery event :: side.log }
  | ended (side : Discovering) : Move side { side with peers := { side.peers with closed := true } }

theorem Move.idle (side : Discovering) : Move side side := .logged side side.log List.suffix_rfl

theorem Move.noted (side : Discovering) (entry : Entry) :
    Move side { side with log := entry :: side.log } := .logged side _ (List.suffix_cons _ _)

end Discovering

/-- Only `refresh_peers` takes from discovery. -/
theorem Node.Frame.discovering (frame : Frame decodeString input node after) :
    Discovering.Move node.discovering after.discovering := by
  cases frame with
  | refreshed => exact .refreshed _
  | consumed | asked | declined | accepted => exact .noted _ _
  | _ => exact .idle _

/-- Every step of the program is a move of discovery. -/
theorem Node.step_discovering {env : Env} {node after : Node} (stepped : node.step env action = some after) :
    Discovering.Move node.discovering after.discovering := by
  cases step_move stepped with
  | framed input after isOpen frame => exact frame.discovering
  | announced event order discovered live found lists =>
      refine .published node.discovering event discovered order _ found lists ?_
      split
      · exact .inl rfl
      · exact .inr rfl
  | ended => exact .ended _
  | connected | waited | closed => exact .idle _
  | handled | offered | posted | worked | published | reported | ignored => exact .noted _ _

def Announced (log : List Entry) (peer : Peer) : Prop :=
  ∃ info, .discovery (.discovered info) ∈ log ∧ info.userData = some peer.1 ∧
    peer.2 = info.intoEndpointAddr

theorem Announced.mono (announced : Announced log peer) (grown : log <:+ longer) :
    Announced longer peer := by
  obtain ⟨info, inside, named, address⟩ := announced
  exact ⟨info, grown.subset inside, named, address⟩

theorem discover_announced {peers : PeerMap}
    (known : ∀ id peer, peers.lookup id = some peer → Announced log peer)
    (found : discover peers event = some discovered) :
    ∀ id peer, discovered.lookup id = some peer → Announced (.discovery event :: log) peer := by
  intro id peer listed
  cases event with
  | discovered info =>
      obtain ⟨name, named, rfl⟩ := Option.map_eq_some_iff.mp found
      by_cases same : id = info.endpointId
      · subst same
        rw [AList.lookup_insert, Option.some.injEq] at listed
        subst listed
        exact ⟨info, .head _, named, rfl⟩
      · rw [AList.lookup_insert_ne same] at listed
        exact (known id peer listed).mono (List.suffix_cons _ _)
  | expired endpointId =>
      cases found
      by_cases same : id = endpointId
      · rw [same, AList.lookup_erase] at listed
        cases listed
      · rw [AList.lookup_erase_ne same] at listed
        exact (known id peer listed).mono (List.suffix_cons _ _)
  | other => cases found

theorem PeerMap.mem_lists {peers : PeerMap} (lists : peers.Lists values) :
    peer ∈ values ↔ ∃ id, peers.lookup id = some peer := by
  rw [List.Perm.mem_iff lists, List.mem_map]
  constructor
  · rintro ⟨⟨id, peer⟩, inside, rfl⟩
    exact ⟨id, AList.mem_lookup_iff.mpr inside⟩
  · rintro ⟨id, found⟩
    exact ⟨⟨id, peer⟩, AList.mem_lookup_iff.mp found, rfl⟩

structure Discovering.Inv (side : Discovering) : Prop where
  known : ∀ id peer, side.discovered.lookup id = some peer → Announced side.log peer
  sent : ∀ peer ∈ side.peers.value, Announced side.log peer
  listed : ∀ peer ∈ side.listed, Announced side.log peer

theorem Discovering.Inv.next (inv : side.Inv) (move : Discovering.Move side after) : after.Inv := by
  cases move with
  | logged log grown =>
      exact ⟨fun id peer found => (inv.known id peer found).mono grown,
        fun peer inside => (inv.sent peer inside).mono grown,
        fun peer inside => (inv.listed peer inside).mono grown⟩
  | refreshed => exact ⟨inv.known, inv.sent, inv.sent⟩
  | published event discovered order peers found lists sent =>
      have known := discover_announced inv.known found
      refine ⟨known, fun peer inside => ?_, fun peer inside => ?_⟩
      · rcases sent with same | same
        · obtain ⟨id, found⟩ := (PeerMap.mem_lists lists).mp (same ▸ inside)
          exact known id peer found
        · exact (inv.sent peer (same ▸ inside)).mono (List.suffix_cons _ _)
      · exact (inv.listed peer inside).mono (List.suffix_cons _ _)
  | ended => exact ⟨inv.known, inv.sent, inv.listed⟩

/-- In every reachable state each listed device was announced. -/
theorem Node.discovering_inv {env : Env} {node : Node}
    (run : Run (Steps (Node.step env)) (.new files) past node) : node.discovering.Inv := by
  apply run.invariant (P := fun node => node.discovering.Inv)
  · constructor
    · intro id peer found
      cases found
    · intro peer inside
      cases inside
    · intro peer inside
      cases inside
  · intro before action after inv stepped
    exact inv.next (Node.step_discovering stepped)

end IrohShare
