import IrohShare.Command
import IrohShare.CliProofs
import IrohShare.Listing

/-! Whom `Command::Send` sends to: the holder of the ticket, or the device that is selected
by its number in a list of all devices that were there when the list was printed. -/
namespace IrohShare
open Wire Unix Channel Transition Buffered

variable {env : Env} {shell : Shell} {files : List PathBuf} {stdin : List Bytes}
  {given : Option EndpointAddr} {past : List SendAction} {command after : SendCommand}
  {node later : Node} {devices : List Peer} {endpointAddr : EndpointAddr}

theorem dropWhile_padded {pad text : List Char} (blank : ∀ char ∈ pad, isWhitespace char = true)
    (solid : ∀ char, text.head? = some char → isWhitespace char = false) :
    (pad ++ text).dropWhile isWhitespace = text := by
  rw [List.dropWhile_append_of_pos blank]
  cases text with
  | nil => rfl
  | cons char text => exact List.dropWhile_cons_of_neg (by simp [solid char rfl])

theorem trim_padded {before text after : List Char} (some : text ≠ [])
    (solid : ∀ char ∈ text, isWhitespace char = false)
    (front : ∀ char ∈ before, isWhitespace char = true)
    (back : ∀ char ∈ after, isWhitespace char = true) :
    trim (String.ofList (before ++ text ++ after)) = String.ofList text := by
  have first (char : Char) (head : (text ++ after).head? = Option.some char) :
      isWhitespace char = false := by
    rw [List.head?_append_of_ne_nil _ some] at head
    exact solid char (List.mem_of_mem_head? head)
  have last (char : Char) (head : text.reverse.head? = Option.some char) :
      isWhitespace char = false :=
    solid char (List.mem_reverse.mp (List.mem_of_mem_head? head))
  rw [trim, String.toList_ofList, List.append_assoc, dropWhile_padded front first,
    List.reverse_append, dropWhile_padded (fun char inside => back char (List.mem_reverse.mp inside))
      last, List.reverse_reverse]

theorem solid_of_isDigit {char : Char} (digit : char.isDigit = true) :
    isWhitespace char = false := by
  have bounds : 48 ≤ char.val ∧ char.val ≤ 57 := by simpa [Char.isDigit] using digit
  have low := UInt32.le_iff_toNat_le.mp bounds.1
  have high := UInt32.le_iff_toNat_le.mp bounds.2
  simp only [isWhitespace, decide_eq_false_iff_not, UInt32.le_iff_toNat_le, ← UInt32.toNat_inj]
  simp at low high ⊢
  omega

theorem selected_device (selected : selectDevice devices line = .ok endpointAddr) :
    ∃ input k name, line = utf8 input ∧ Spells (trim input) (k + 1) ∧
      devices[k]? = some (name, endpointAddr) := by
  unfold selectDevice at selected
  split at selected
  · cases selected
  rename_i input decoded
  split at selected
  · cases selected
  · cases selected
  rename_i idx parsed
  split at selected
  · cases selected
  rename_i name address found
  cases selected
  have spelled := (parseUnsigned_eq_some (by decide)).mp parsed
  exact ⟨input, idx, name, (utf8_of_fromUtf8 decoded).symm, spelled.1, found⟩

/-- A line selects a device exactly if it spells its number; the printed line of the device
begins with that number, which may be typed in any white space. -/
theorem numbers_select (fits : devices.length < 2 ^ 64) :
    (∀ line endpointAddr, selectDevice devices line = .ok endpointAddr ↔
      ∃ input k name, line = utf8 input ∧ Spells (trim input) (k + 1) ∧
        devices[k]? = some (name, endpointAddr)) ∧
    ∀ k name endpointAddr, devices[k]? = some (name, endpointAddr) →
      (receiverLines devices)[k]? = some (toString (k + 1) ++ ". " ++ name) ∧
      ∀ before after, (∀ char ∈ before, isWhitespace char = true) →
        (∀ char ∈ after, isWhitespace char = true) → selectDevice devices
          (utf8 (String.ofList (before ++ (toString (k + 1)).toList ++ after))) =
            .ok endpointAddr := by
  have selects (line : Bytes) (endpointAddr : EndpointAddr) :
      selectDevice devices line = .ok endpointAddr ↔ ∃ input k name, line = utf8 input ∧
        Spells (trim input) (k + 1) ∧ devices[k]? = some (name, endpointAddr) := by
    refine ⟨selected_device, ?_⟩
    rintro ⟨input, k, name, rfl, spelled, found⟩
    have inside : k < devices.length := (List.getElem?_eq_some_iff.mp found).1
    have parsed : parseUsize (trim input) = some (k + 1) :=
      (parseUnsigned_eq_some (by decide)).mpr ⟨spelled, by omega⟩
    simp only [selectDevice, fromUtf8_utf8, parsed, found]
  refine ⟨selects, fun k name endpointAddr found => ⟨?_, fun before after front back => ?_⟩⟩
  · rw [receiverLines, List.getElem?_mapIdx, found]
    rfl
  · refine (selects _ _).mpr ⟨_, k, name, rfl, ?_, found⟩
    have digits : (toString (k + 1)).toList = Nat.toDigits 10 (k + 1) := Nat.toList_repr
    have solid : ∀ char ∈ (toString (k + 1)).toList, isWhitespace char = false := by
      rw [digits]
      exact fun char inside =>
        solid_of_isDigit (Nat.isDigit_of_mem_toDigits (by decide) (by decide) inside)
    rw [trim_padded (digits ▸ Nat.toDigits_ne_nil) solid front back, String.ofList_toList]
    exact spells_toString (k + 1)

def sampleDevices : List Peer :=
  [("phone", samplePhone.intoEndpointAddr), ("desk", sampleDesk.intoEndpointAddr)]

theorem numbers_select_sample :
    (receiverLines sampleDevices)[1]? = some "2. desk" ∧
      selectDevice sampleDevices (utf8 "2\n") = .ok sampleDesk.intoEndpointAddr := by
  have few : sampleDevices.length < 2 ^ 64 := by decide
  obtain ⟨line, typed⟩ := (numbers_select few).2 1 "desk" _ rfl
  have blank : ∀ char ∈ ['\n'], isWhitespace char = true := by simp [isWhitespace]
  exact ⟨line, typed [] ['\n'] (by simp) blank⟩

theorem parseArguments_send (parsed : parseArguments shell args = .ok (.send filename given)) :
    args = ["send", filename] ∧ given = none ∨
      ∃ ticketStr endpointAddr, args = ["send", filename, ticketStr] ∧
        shell.decodeString ticketStr = .ok endpointAddr ∧ given = some endpointAddr := by
  unfold parseArguments at parsed
  split at parsed
  case h_2 name ticketStr =>
    split at parsed
    · rename_i address decoded
      cases parsed
      exact .inr ⟨ticketStr, address, rfl, decoded, rfl⟩
    · cases parsed
  case h_3 name =>
    cases parsed
    exact .inl ⟨rfl, rfl⟩
  case h_4 =>
    cases found : shell.currentDir <;> rw [found] at parsed <;> cases parsed
  case h_5 downloadDir =>
    cases found : shell.absolute downloadDir <;> rw [found] at parsed <;> cases parsed
  all_goals cases parsed

/-- The map of discovery has the live devices, and the watch of a running program lists it. -/
structure Node.Surveyed (node : Node) : Prop where
  holds : ∀ id, node.discovered.lookup id = live id node.log
  lists : node.isOpen = true → node.discovered.Lists node.peers.value

theorem Node.Surveyed.next (surveyed : node.Surveyed) (background : action.background = true)
    (move : Move env node action later) : later.Surveyed ∧ later.isOpen = node.isOpen := by
  cases move with
  | announced event order discovered live found lists =>
    refine ⟨⟨fun id => ?_, fun isOpen => ?_⟩, rfl⟩
    · rw [lookup_discover found, surveyed.holds, live_cons]
      rfl
    · rw [if_pos isOpen]
      exact lists
  | ignored event order live found =>
    refine ⟨⟨fun id => ?_, surveyed.lists⟩, rfl⟩
    have silent : (Entry.discovery event).tells id = none := tells_none found
    exact (surveyed.holds id).trans (live_quiet silent).symm
  | handled | offered | posted =>
    refine ⟨⟨fun id => ?_, surveyed.lists⟩, rfl⟩
    exact (surveyed.holds id).trans (live_quiet rfl).symm
  | connected | ended | waited => exact ⟨⟨surveyed.holds, surveyed.lists⟩, rfl⟩
  | framed | worked | published | reported | closed => cases background

namespace SendCommand

/-- The receiver list was printed with all devices that were there at that moment. -/
def Prompted (env : Env) (start : SendCommand) (past : List SendAction) (devices : List Peer) :
    Prop :=
  ∃ earlier before later, past = later ++ .wakes :: earlier ∧
    Run (Steps (step env)) start earlier before ∧ ListsLive before.runtime.log devices

/-- The first line of the input spelled the number of this device in the printed list. -/
def Selected (env : Env) (start : SendCommand) (past : List SendAction)
    (endpointAddr : EndpointAddr) : Prop :=
  ∃ devices input k name, Prompted env start past devices ∧
    firstLine newline start.stdin.flatten = utf8 input ∧ Spells (trim input) (k + 1) ∧
    devices[k]? = some (name, endpointAddr)

/-- The moves of the command, one for each outcome of its steps. -/
inductive Move (env : Env) : SendCommand → SendAction → SendCommand → Prop where
  | runtime (command : SendCommand) (action : Action) (runtime : Node)
      (background : action.background = true)
      (moved : command.runtime.step env action = some runtime) :
      Move env command (.runtime action) { command with runtime }
  | found (command : SendCommand) (searching : command.point = .searching) :
      Move env command .finds { command with point := .sleeping command.runtime.now }
  | woke (command : SendCommand) (since : Nat) (sleeping : command.point = .sleeping since) :
      Move env command .wakes { command with point := .choosing command.runtime.peers.value }
  | chose (command : SendCommand) (devices : List Peer) (endpointAddr : EndpointAddr)
      (choosing : command.point = .choosing devices)
      (selected : selectDevice devices (firstLine newline command.stdin.flatten) =
        .ok endpointAddr) : Move env command .chooses
        { command with
          point := .sending endpointAddr .preparing
          stdin := (readUntil newline command.stdin).2 }
  | worked (command : SendCommand) (event : TaskEvent) (endpointAddr : EndpointAddr)
      (task state : TaskState) (progress : Watch UInt64)
      (sending : command.point = .sending endpointAddr task)
      (moved : task.step event = some state) : Move env command (.task event)
        { command with
          runtime := { command.runtime with progress }
          point := .sending endpointAddr state }
  | ended (command : SendCommand) (action : SendAction) (result : Except Error Unit)
      (left : List Bytes) : Move env command action ({ command with stdin := left }.finish result)

theorem publish_some (published : publish node event = some later) :
    ∃ progress, later = { node with progress } := by
  unfold publish at published
  split at published <;> cases published
  · exact ⟨_, rfl⟩
  · exact ⟨node.progress, rfl⟩

theorem step_move (stepped : command.step env action = some after) :
    Move env command action after := by
  cases action with
  | runtime action =>
    simp only [step] at stepped
    split at stepped
    · rename_i background
      obtain ⟨runtime, moved, rfl⟩ := Option.map_eq_some_iff.mp stepped
      exact .runtime command action runtime background moved
    · cases stepped
  | finds =>
    simp only [step] at stepped
    split at stepped
    · rename_i searching
      unfold find at stepped
      split at stepped
      · cases stepped
        exact .found command searching
      · split at stepped <;> cases stepped
        exact .ended command _ _ command.stdin
    · cases stepped
  | wakes =>
    simp only [step] at stepped
    split at stepped
    · rename_i since sleeping
      split at stepped <;> cases stepped
      exact .woke command since sleeping
    · cases stepped
  | chooses =>
    simp only [step] at stepped
    split at stepped
    · rename_i devices choosing
      cases stepped
      unfold choose
      dsimp only
      rw [readUntil_fst]
      split
      · rename_i endpointAddr selected
        exact .chose command devices endpointAddr choosing selected
      · exact .ended command _ _ _
    · cases stepped
  | task event =>
    simp only [step] at stepped
    split at stepped
    · rename_i endpointAddr task sending
      obtain ⟨runtime, published, worked⟩ := Option.bind_eq_some_iff.mp stepped
      obtain ⟨state, moved, rfl⟩ := Option.map_eq_some_iff.mp worked
      obtain ⟨progress, rfl⟩ := publish_some published
      exact .worked command event endpointAddr task state progress sending moved
    · cases stepped
  | returns =>
    simp only [step] at stepped
    split at stepped <;> cases stepped
    exact .ended command _ _ command.stdin

/-- Where standard input is unread, what was printed, and whence the address comes. -/
def Stage (env : Env) (start : SendCommand) (given : Option EndpointAddr)
    (past : List SendAction) (command : SendCommand) : Prop :=
  match command.point with
  | .searching | .sleeping _ => given = none ∧ command.stdin = start.stdin
  | .choosing devices =>
    given = none ∧ command.stdin = start.stdin ∧ Prompted env start past devices
  | .sending endpointAddr _ =>
    given = some endpointAddr ∨ given = none ∧ Selected env start past endpointAddr
  | .ended _ => True

structure Inv (env : Env) (start : SendCommand) (given : Option EndpointAddr)
    (past : List SendAction) (command : SendCommand) : Prop where
  surveyed : command.runtime.Surveyed
  running : (∀ result, command.point ≠ .ended result) → command.runtime.isOpen = true
  stage : Stage env start given past command

variable {start : SendCommand}

theorem Prompted.cons (prompted : Prompted env start past devices) (action : SendAction) :
    Prompted env start (action :: past) devices := by
  obtain ⟨earlier, before, later, rfl, run, lists⟩ := prompted
  exact ⟨earlier, before, action :: later, rfl, run, lists⟩

theorem Selected.cons (selected : Selected env start past endpointAddr) (action : SendAction) :
    Selected env start (action :: past) endpointAddr := by
  obtain ⟨devices, input, k, name, prompted, choice⟩ := selected
  exact ⟨devices, input, k, name, prompted.cons action, choice⟩

theorem Stage.cons (stage : Stage env start given past command) (action : SendAction)
    (point : after.point = command.point) (stdin : after.stdin = command.stdin) :
    Stage env start given (action :: past) after := by
  unfold Stage at stage ⊢
  rw [point, stdin]
  cases here : command.point with
  | searching | sleeping since =>
    rw [here] at stage
    exact stage
  | choosing devices =>
    rw [here] at stage
    exact ⟨stage.1, stage.2.1, stage.2.2.cons action⟩
  | sending endpointAddr task =>
    rw [here] at stage
    exact stage.imp id (And.imp id (Selected.cons · action))
  | ended result => trivial

theorem Inv.next (run : Run (Steps (step env)) start past command)
    (inv : Inv env start given past command) (move : Move env command action after) :
    Inv env start given (action :: past) after := by
  have going {point : SendPoint} (here : command.point = point)
      (running : ∀ result, point ≠ .ended result) : command.runtime.isOpen = true :=
    inv.running (here ▸ running)
  have stage := inv.stage
  cases move with
  | runtime action runtime background moved =>
    obtain ⟨surveyed, isOpen⟩ := inv.surveyed.next background (Node.step_move moved)
    exact ⟨surveyed, fun running => isOpen.trans (inv.running running), stage.cons _ rfl rfl⟩
  | found searching =>
    refine ⟨inv.surveyed, fun _ => going searching (by simp), ?_⟩
    rw [Stage, searching] at stage
    exact stage
  | woke since sleeping =>
    have isOpen := going sleeping (by simp)
    refine ⟨inv.surveyed, fun _ => isOpen, ?_⟩
    rw [Stage, sleeping] at stage
    exact ⟨stage.1, stage.2, past, command, [], rfl, run,
      PeerMap.listsLive (inv.surveyed.lists isOpen) inv.surveyed.holds⟩
  | chose devices endpointAddr choosing selected =>
    refine ⟨inv.surveyed, fun _ => going choosing (by simp), .inr ?_⟩
    rw [Stage, choosing] at stage
    obtain ⟨unnamed, unread, prompted⟩ := stage
    rw [unread] at selected
    obtain ⟨input, k, name, line, spelled, found⟩ := selected_device selected
    exact ⟨unnamed, devices, input, k, name, prompted.cons _, line, spelled, found⟩
  | worked event endpointAddr task state progress sending moved =>
    refine ⟨⟨inv.surveyed.holds, inv.surveyed.lists⟩, fun _ => going sending (by simp), ?_⟩
    rw [Stage, sending] at stage
    exact stage.imp id (And.imp id (Selected.cons · _))
  | ended action result left =>
    refine ⟨⟨inv.surveyed.holds, fun isOpen => by cases isOpen⟩, fun running => ?_, trivial⟩
    exact absurd rfl (running result)

theorem inv (run : Run (Steps (step env)) (new files stdin given) past command) :
    Inv env (new files stdin given) given past command := by
  apply run.history (P := Inv env (new files stdin given) given)
  · cases given with
    | none => exact ⟨⟨fun _ => rfl, fun _ => .nil⟩, fun _ => rfl, rfl, rfl⟩
    | some endpointAddr => exact ⟨⟨fun _ => rfl, fun _ => .nil⟩, fun _ => rfl, .inl rfl⟩
  · intro past before action after run inv stepped
    exact inv.next run (step_move stepped)

end SendCommand

/-- The sender of `Command::Send` is run for the ticket of the command line, or else for the
device whose number was typed, in a list of exactly the devices that were there. -/
theorem send_goes_to_selected
    (parsed : parseArguments shell args = .ok (.send filename given))
    (run : Run (Steps (SendCommand.step env)) (.new files stdin given) past command)
    (sending : command.point = .sending endpointAddr task) :
    (∃ ticketStr, args = ["send", filename, ticketStr] ∧
        shell.decodeString ticketStr = .ok endpointAddr) ∨
      args = ["send", filename] ∧
        SendCommand.Selected env (.new files stdin none) past endpointAddr := by
  have stage := (SendCommand.inv run).stage
  rw [SendCommand.Stage, sending] at stage
  rcases parseArguments_send parsed with ⟨rfl, rfl⟩ | ⟨ticketStr, address, rfl, decoded, rfl⟩
  · rcases stage with named | ⟨_, selected⟩
    · cases named
    · exact .inr ⟨rfl, selected⟩
  · rcases stage with named | ⟨unnamed, _⟩
    · cases named
      exact .inl ⟨ticketStr, rfl, decoded⟩
    · cases unnamed

def sampleNumbered : List SendAction :=
  [SendAction.runtime (.discovery (.discovered sampleDesk) [("desk", sampleDesk.intoEndpointAddr)]),
    .finds, .runtime (.discovery (.discovered samplePhone) sampleDevices), .runtime (.tick 2000),
    .wakes, .chooses]

theorem send_goes_to_selected_sample :
    SendCommand.Selected sampleEnv (.new [] [utf8 "2\n"] none) sampleNumbered.reverse
      sampleDesk.intoEndpointAddr := by
  obtain ⟨command, run, sending⟩ : ∃ command : SendCommand,
      Run (Steps (SendCommand.step sampleEnv)) (.new [] [utf8 "2\n"] none)
        sampleNumbered.reverse command ∧
      command.point = .sending sampleDesk.intoEndpointAddr .preparing := by
    apply execute_reaches
    decide +kernel
  have shell : Shell := ⟨fun _ => .error "", .error .io, fun _ => .error .io⟩
  have parsed : parseArguments shell ["send", "notes.txt"] = .ok (.send "notes.txt" none) := rfl
  rcases send_goes_to_selected parsed run sending with ⟨ticketStr, same, _⟩ | ⟨_, selected⟩
  · cases same
  · exact selected

end IrohShare
