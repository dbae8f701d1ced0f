import IrohShare.Listing

/-! A device chosen by ticket need not be on the local network, but the refresh of the
peer list drops every selection that local discovery does not list. -/
namespace IrohShare
open Wire Unix Channel Transition

variable {env : Env} {files : List PathBuf} {past later : List Action} {node after : Node}
  {id : EndpointId} {device : Device}

def Action.tells (id : EndpointId) : Action → Option (Option Peer)
  | .discovery event _ => event.tells id
  | _ => none

/-- The user neither goes back nor selects another device, and discovery is about
other devices. -/
def Node.undisturbed (env : Env) (device : Device) (node : Node) (action : Action) : Bool :=
  !node.goesBack action && (node.selects env action).all (· = device) &&
    (action.tells device.2.id).isNone

namespace Node

theorem step_live (stepped : node.step env action = some after) :
    live id after.log = (action.tells id).getD (live id node.log) := by
  cases step_move stepped with
  | framed input after isOpen frame =>
      cases frame with
      | consumed | asked | declined | accepted => exact live_quiet rfl
      | _ => rfl
  | ignored | announced => exact live_cons _
  | handled | offered | posted | worked | published | reported => exact live_quiet rfl
  | connected | ended | waited | closed => rfl

theorem step_closed (stepped : node.step env action = some after)
    (live : after.peers.closed = false) : node.peers.closed = false := by
  cases step_move stepped with
  | framed input after isOpen frame => cases frame <;> exact live
  | announced event order discovered before => exact before
  | ended => cases live
  | _ => exact live

theorem undisturbed_iff : node.undisturbed env device action = true ↔
    node.goesBack action = false ∧
    (∀ chosen, node.selects env action = some chosen → chosen = device) ∧
    action.tells device.2.id = none := by
  simp only [undisturbed, Bool.and_eq_true, Bool.not_eq_true', Option.isNone_iff_eq_none, and_assoc]
  refine and_congr_right fun _ => and_congr_left fun _ => ?_
  cases node.selects env action <;> simp

theorem unannounced (run : Run (Steps (Node.step env)) (.new files) past node)
    (unlisted : Lists node.peers.value device.2.id = false)
    (rest : Run (Steps (checked (Node.undisturbed env device) (Node.step env))) node later after)
    (open_ : after.peers.closed = false) : live device.2.id after.log = none := by
  revert open_
  apply rest.invariant (P := fun state => state.peers.closed = false →
    live device.2.id state.log = none)
  · intro open_
    have listing := Node.listing run
    exact (PeerMap.listsLive (listing.lists open_) listing.holds).unlisted_iff.mp unlisted
  · intro before action after quiet stepped open_
    obtain ⟨guarded, stepped⟩ := checked_eq_some.mp stepped
    rw [step_live stepped, (undisturbed_iff.mp guarded).2.2, Option.getD_none]
    exact quiet (step_closed stepped open_)

/-- Without a new publication the selection stays, with one it is dropped. -/
theorem stays_iff (run : Run (Steps (Node.step env)) (.new files) past node)
    (unlisted : Lists node.peers.value device.2.id = false)
    (rest : Run (Steps (checked (Node.undisturbed env device) (Node.step env))) node later before)
    (selected : before.app.selectedPeer = some device)
    (stepped : checked (Node.undisturbed env device) (Node.step env) before action = some after) :
    after.app.selectedPeer = some device ↔ before.picksUp action = false := by
  obtain ⟨guarded, stepped⟩ := checked_eq_some.mp stepped
  obtain ⟨stays, same, _⟩ := undisturbed_iff.mp guarded
  rw [step_selected stepped, nextSelected, selected]
  by_cases found : before.picksUp action = true
  · have open_ : before.peers.closed = false := by
      cases action with
      | ui input => exact Watch.closed_of_changed (of_decide_eq_true found).2
      | _ => cases found
    have listing := Node.listing (run.trans rest.of_checked.unguard)
    have absent : Lists before.peers.value device.2.id = false :=
      (PeerMap.listsLive (listing.lists open_) listing.holds).unlisted_iff.mpr
        (unannounced run unlisted rest open_)
    simp [found, absent]
  · have found : before.picksUp action = false := Bool.eq_false_of_not_eq_true found
    rw [found, stays]
    cases choice : before.selects env action with
    | none => simp
    | some chosen => simp [same chosen choice]

end Node

/-- A selected device that discovery has not listed stays selected, in every state of a
run that leaves it alone, exactly when no refresh of the run finds a new publication. -/
theorem ticket_device_stays_iff (run : Run (Steps (Node.step env)) (.new files) past node)
    (selected : node.app.selectedPeer = some device)
    (unlisted : Lists node.peers.value device.2.id = false)
    (rest : Run (Steps (checked (Node.undisturbed env device) (Node.step env))) node later after) :
    (∀ earlier state, earlier <:+ later →
      Run (Steps (checked (Node.undisturbed env device) (Node.step env))) node earlier state →
      state.app.selectedPeer = some device) ↔
    ∀ action earlier state, action :: earlier <:+ later →
      Run (Steps (checked (Node.undisturbed env device) (Node.step env))) node earlier state →
      state.picksUp action = false := by
  apply always_iff_guarded rest (P := fun state => state.app.selectedPeer = some device) selected
  intro later before action after rest here stepped
  exact Node.stays_iff run unlisted rest here stepped

def sampleTicketEnv : Env := ⟨fun path => path, sampleParse, fun _ => some sampleTicket.addr⟩

def sampleSelect : List Action :=
  List.replicate 4 (.ui {}) ++
    [.ui { useTicket := true }, .ui { typed := some " ticket ", ticketAction := some true }]

/-- The frame ends, another device is announced, and the next frame begins. -/
def sampleOther : List Action :=
  List.replicate 3 (.ui {}) ++
    [.discovery (.discovered samplePhone) [("phone", samplePhone.intoEndpointAddr)], .ui {}]

def sampleDevice : Device := ("Ticket device", sampleTicket.addr)

theorem sampleSelect_run : ∃ node after : Node,
    Run (Steps (Node.step sampleTicketEnv)) (.new []) sampleSelect.reverse node ∧
    node.app.selectedPeer = some sampleDevice ∧ node.peers.value = [] ∧ node.log = [] ∧
    Run (Steps (checked (Node.undisturbed sampleTicketEnv sampleDevice)
      (Node.step sampleTicketEnv))) node sampleOther.reverse after ∧
    after.app.selectedPeer = none := by
  have drops : (execute (Node.step sampleTicketEnv) (.new []) sampleSelect).bind (fun node =>
      (execute (checked (Node.undisturbed sampleTicketEnv sampleDevice)
        (Node.step sampleTicketEnv)) node sampleOther).map fun after => decide
          (node.app.selectedPeer = some sampleDevice ∧ node.peers.value = [] ∧ node.log = [] ∧
            after.app.selectedPeer = none)) = some true := by
    decide +kernel
  obtain ⟨node, done, drops⟩ := Option.bind_eq_some_iff.mp drops
  obtain ⟨after, rest, facts⟩ := Option.map_eq_some_iff.mp drops
  obtain ⟨selected, value, log, dropped⟩ := of_decide_eq_true facts
  exact ⟨node, after, execute_run done, selected, value, log, execute_run rest, dropped⟩

theorem ticket_device_stays_sample : ∃ node : Node,
    Run (Steps (Node.step sampleTicketEnv)) (.new []) sampleSelect.reverse node ∧
    ((∀ earlier state, earlier <:+ sampleOther.reverse →
      Run (Steps (checked (Node.undisturbed sampleTicketEnv sampleDevice)
        (Node.step sampleTicketEnv))) node earlier state →
      state.app.selectedPeer = some sampleDevice) ↔
    ∀ action earlier state, action :: earlier <:+ sampleOther.reverse →
      Run (Steps (checked (Node.undisturbed sampleTicketEnv sampleDevice)
        (Node.step sampleTicketEnv))) node earlier state → state.picksUp action = false) := by
  obtain ⟨node, after, run, selected, value, _, rest, _⟩ := sampleSelect_run
  exact ⟨node, run, ticket_device_stays_iff run selected (by rw [value]; rfl) rest⟩

/-- No device was ever discovered when the ticket was used; the announcement of another
one drops the ticket's device. -/
theorem ticket_device_dropped : ∃ node after : Node,
    Run (Steps (Node.step sampleTicketEnv)) (.new []) sampleSelect.reverse node ∧
    node.app.selectedPeer = some sampleDevice ∧ node.log = [] ∧
    Run (Steps (checked (Node.undisturbed sampleTicketEnv sampleDevice)
      (Node.step sampleTicketEnv))) node sampleOther.reverse after ∧
    after.app.selectedPeer ≠ some sampleDevice := by
  obtain ⟨node, after, run, selected, _, log, rest, dropped⟩ := sampleSelect_run
  exact ⟨node, after, run, selected, log, rest, by simp [dropped]⟩

end IrohShare
