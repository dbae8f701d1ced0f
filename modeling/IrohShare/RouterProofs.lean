import IrohShare.Router
import IrohShare.ReceiverProofs
import IrohShare.Transition.Family

/-! What every run of the router keeps: each handler runs as if alone, and an
export overwrites a file exactly when it loses the race with another handler. -/
namespace IrohShare
open Wire Unix Transition

variable {parse : String → Option BlobTicket} {resolve : PathBuf → PathBuf}
  {files : List PathBuf} {past : List RouterAction} {id : Nat}

def RouterAction.own (id : Nat) : RouterAction → Option Event
  | .handler actor event => if actor = id then some event else none
  | .connect .. => none

namespace Router

theorem step_handler {router : Router}
    (stepped : router.step resolve parse (.handler id event) = some after) :
    router.grants resolve event = true ∧ ∃ connection next,
      router.handlers id = some connection ∧ connection.step parse event = some next ∧
      after = ⟨Function.update router.handlers id (some next),
        event.creates.toList.map resolve ++ router.files⟩ := by
  simp only [step] at stepped
  split at stepped
  · rename_i granted
    obtain ⟨connection, found, stepped⟩ := Option.bind_eq_some_iff.mp stepped
    obtain ⟨next, moved, rfl⟩ := Option.map_eq_some_iff.mp stepped
    exact ⟨granted, connection, next, found, moved, rfl⟩
  · cases stepped

theorem step_connect {router : Router}
    (stepped : router.step resolve parse (.connect id remote incoming) = some after) :
    router.handlers id = none ∧ after = { router with
      handlers := Function.update router.handlers id (some (.new remote incoming)) } := by
  simp only [step] at stepped
  split at stepped
  · rename_i free
    cases stepped
    exact ⟨free, rfl⟩
  · cases stepped

/-- Each handler of the router runs as a connection of its own. -/
theorem connection_run
    (run : Run (Steps (Router.step resolve parse)) (.new files) past router) :
    (∀ id, router.handlers id = none → past.filterMap (RouterAction.own id) = []) ∧
    ∀ id connection, router.handlers id = some connection → ∃ remote incoming,
      Run (Steps (Connection.step parse)) (.new remote incoming)
        (past.filterMap (RouterAction.own id)) connection := by
  apply run.history (P := fun past router =>
    (∀ id, router.handlers id = none → past.filterMap (RouterAction.own id) = []) ∧
    ∀ id connection, router.handlers id = some connection → ∃ remote incoming,
      Run (Steps (Connection.step parse)) (.new remote incoming)
        (past.filterMap (RouterAction.own id)) connection)
  · exact ⟨fun _ _ => rfl, fun _ _ found => by cases found⟩
  · rintro past before action after _ ⟨silent, alone⟩ stepped
    cases action with
    | connect actor remote incoming =>
        obtain ⟨free, rfl⟩ := step_connect stepped
        refine ⟨fun id unknown => ?_, fun id connection found => ?_⟩
        · by_cases same : id = actor
          · simp [same] at unknown
          · exact silent id (by simpa [Function.update_of_ne same] using unknown)
        · rcases update_eq_some.mp found with ⟨rfl, rfl⟩ | ⟨_, found⟩
          · refine ⟨remote, incoming, ?_⟩
            have silent := silent id free
            rw [List.filterMap_cons_none rfl, silent]
            exact .start
          · exact alone id connection found
    | handler actor event =>
        obtain ⟨_, connection, next, known, moved, rfl⟩ := step_handler stepped
        refine ⟨fun id unknown => ?_, fun id other found => ?_⟩
        · by_cases same : id = actor
          · simp [same] at unknown
          · have unknown := silent id (by simpa [Function.update_of_ne same] using unknown)
            simpa [RouterAction.own, Ne.symm same] using unknown
        · rcases update_eq_some.mp found with ⟨rfl, rfl⟩ | ⟨same, found⟩
          · obtain ⟨remote, incoming, run⟩ := alone id connection known
            refine ⟨remote, incoming, ?_⟩
            simpa [RouterAction.own] using run.next moved
          · obtain ⟨remote, incoming, run⟩ := alone id other found
            refine ⟨remote, incoming, ?_⟩
            simpa [RouterAction.own, Ne.symm same] using run

end Router

/-- The await points of `download` between its check and the end of its export. -/
def Download.inWindow : Download → Bool
  | .checking | .replacing => false
  | _ => true

/-- A handler between its check and its export whose target exists has been raced,
and what was created stays. -/
structure Router.Inv (resolve : PathBuf → PathBuf) (past : List RouterAction)
    (router : Router) : Prop where
  raced : ∀ id connection offer target point, router.handlers id = some connection →
    connection.state = .downloading offer target point → point.inWindow = true →
    resolve target ∈ router.files → Raced resolve past id target
  created : ∀ id event target, .handler id event ∈ past → event.creates = some target →
    resolve target ∈ router.files

theorem clears_eq_false (kept : actor = id → ∀ path, event ≠ .existed path (some false)) :
    (RouterAction.handler actor event).clears id = false := by
  unfold RouterAction.clears
  split
  · rename_i same
    cases same
    simpa using fun same => kept same _ rfl
  · rfl

theorem sinceCleared_cons (kept : action.clears id = false) :
    sinceCleared id (action :: past) = action :: sinceCleared id past := by
  simp [sinceCleared, kept]

theorem Raced.cons (raced : Raced resolve past id target) (kept : action.clears id = false) :
    Raced resolve (action :: past) id target := by
  obtain ⟨other, event, path, distinct, inside, creates, same⟩ := raced
  rw [Raced, sinceCleared_cons kept]
  exact ⟨other, event, path, distinct, .tail _ inside, creates, same⟩

theorem Raced.mem (raced : Raced resolve past id target) : ∃ other event path,
    .handler other event ∈ past ∧ event.creates = some path ∧ resolve path = resolve target := by
  obtain ⟨other, event, path, _, inside, creates, same⟩ := raced
  exact ⟨other, event, path, (List.takeWhile_prefix _).subset inside, creates, same⟩

/-- A handler enters the window by its check, and inside it creates nothing. -/
theorem Handler.Move.window (move : Handler.Move remote state event next)
    (here : next = .downloading offer target point) (inside : point.inWindow = true) :
    event = .existed target (some false) ∨
      (∀ path, event ≠ .existed path (some false)) ∧ event.creates = none ∧
        ∃ before, state = .downloading offer target before ∧ before.inWindow = true := by
  cases move with
  | lost state => exact .inr ⟨by simp, rfl, point, here, inside⟩
  | greeted offer downloadDir =>
      unfold download at here
      split at here <;> cases here
      cases inside
  | downloading move =>
      cases move with
      | absent => cases here; exact .inl rfl
      | saved => cases here; cases inside
      | opened | ended | progressed | skipped | published | reported | reporting =>
          cases here
          exact .inr ⟨by simp, rfl, _, rfl, rfl⟩
      | _ => cases here
  | _ => cases here

/-- A handler that creates a file is at its export, whose target that file is. -/
theorem Handler.Move.exporting (move : Handler.Move remote state event next)
    (creates : event.creates = some target) :
    ∃ offer, state = .downloading offer target .exporting := by
  cases move with
  | downloading move =>
      cases move with
      | saved => exact ⟨_, by rw [Option.some.inj creates]⟩
      | unsaved opened =>
          cases opened with
          | false => cases creates
          | true => exact ⟨_, by rw [Option.some.inj creates]⟩
      | _ => cases creates
  | _ => cases creates

theorem Router.inv_next (inv : Router.Inv resolve past before)
    (stepped : before.step resolve parse action = some after) :
    Router.Inv resolve (action :: past) after := by
  cases action with
  | connect actor remote incoming =>
      obtain ⟨free, rfl⟩ := step_connect stepped
      constructor
      · intro id connection offer target point found state inside present
        rcases update_eq_some.mp found with ⟨rfl, rfl⟩ | ⟨_, found⟩
        · cases state
        · exact (inv.raced id connection offer target point found state inside present).cons rfl
      · intro id event target old creates
        exact inv.created id event target (by simpa using old) creates
  | handler actor event =>
      obtain ⟨granted, connection, next, known, moved, rfl⟩ := step_handler stepped
      have move := (Connection.step_move moved).2.1
      constructor
      · intro id other offer target point found state inside present
        simp only [List.mem_append, List.mem_map, Option.mem_toList] at present
        rcases update_eq_some.mp found with ⟨rfl, rfl⟩ | ⟨same, found⟩
        · rcases move.window state inside with rfl | ⟨kept, created, point, was, inside⟩
          · have absent : resolve target ∉ before.files := by simpa [grants] using granted
            simp [Event.creates, absent] at present
          · have present : resolve target ∈ before.files := by simpa [created] using present
            exact (inv.raced id connection offer target point known was inside present).cons
              (clears_eq_false fun _ => kept)
        · have kept : (RouterAction.handler actor event).clears id = false :=
            clears_eq_false fun same' => absurd same'.symm same
          rcases present with ⟨path, creates, resolved⟩ | present
          · refine ⟨actor, event, path, Ne.symm same, ?_, creates, resolved⟩
            rw [sinceCleared_cons kept]
            exact .head _
          · exact (inv.raced id other offer target point found state inside present).cons kept
      · intro id old target inside creates
        simp only [List.mem_append, List.mem_map, Option.mem_toList]
        rcases List.mem_cons.mp inside with same | inside
        · cases same
          exact .inl ⟨target, creates, rfl⟩
        · exact .inr (inv.created id old target inside creates)

theorem Router.inv (run : Run (Steps (Router.step resolve parse)) (.new files) past router) :
    Router.Inv resolve past router := by
  apply run.history (P := Router.Inv resolve)
  · constructor
    · intro id connection offer target point found
      cases found
    · intro id event target inside
      cases inside
  · intro past before action after _ inv stepped
    exact inv_next inv stepped

/-- One step: what an export replaces was created since the check. -/
theorem Router.overwrites_iff (inv : Router.Inv resolve past before)
    (stepped : before.step resolve parse action = some after) :
    before.Overwrites resolve action ↔ action.LosesRace resolve past := by
  cases action with
  | connect => exact Iff.rfl
  | handler id event =>
      obtain ⟨_, connection, next, known, moved, _⟩ := step_handler stepped
      have move := (Connection.step_move moved).2.1
      constructor
      · rintro ⟨target, creates, present⟩
        obtain ⟨offer, state⟩ := move.exporting creates
        exact ⟨target, creates, inv.raced id connection offer target _ known state rfl present⟩
      · rintro ⟨target, creates, raced⟩
        obtain ⟨other, event, path, inside, created, same⟩ := raced.mem
        exact ⟨target, creates, same ▸ inv.created other event path inside created⟩

/-- A run in which no export overwrites a file is one in which no export loses the
race: the check alone protects every file that was there before. -/
theorem never_overwrites_iff
    (run : Run (Steps (Router.step resolve parse)) (.new files) past router) :
    (∀ action earlier before, action :: earlier <:+ past →
      Run (Steps (Router.step resolve parse)) (.new files) earlier before →
        ¬ before.Overwrites resolve action) ↔
    ∀ action earlier, action :: earlier <:+ past → ¬ action.LosesRace resolve earlier := by
  have exactly : ∀ action earlier before, action :: earlier <:+ past →
      Run (Steps (Router.step resolve parse)) (.new files) earlier before →
        (before.Overwrites resolve action ↔ action.LosesRace resolve earlier) := by
    rintro action earlier before ⟨later, rfl⟩ upTo
    obtain ⟨after, throughAction, _⟩ := run.split
    cases throughAction with
    | next rest last =>
        obtain rfl := rest.unique upTo
        exact Router.overwrites_iff (Router.inv rest) last
  constructor
  · rintro never action earlier inside loses
    obtain ⟨later, rfl⟩ := inside
    obtain ⟨after, throughAction, _⟩ := run.split
    cases throughAction with
    | @next _ before _ _ rest last =>
        exact never action earlier before ⟨later, rfl⟩ rest
          ((exactly action earlier before ⟨later, rfl⟩ rest).mpr loses)
  · intro unraced action earlier before inside upTo overwrites
    exact unraced action earlier inside ((exactly action earlier before inside upTo).mp overwrites)

def sampleSecond : Offer := ⟨"notes.txt", 5, sampleTicket⟩

def sampleTarget : PathBuf := ⟨utf8 "/home/me/notes.txt"⟩

def sampleCheck (offer : Offer) : List Event :=
  [.acceptBi true, .read (.ok offer), .offered true,
    .decided (some (.accept sampleDir)), .wrote 1, .existed sampleTarget (some false)]

def sampleExport : Event := .exported sampleTicket.hash sampleTarget .saved

def sampleDownload : List Event :=
  [.opened sampleTicket.hash sampleTicket.addr.id true, .item none]

/-- Two offers are accepted; both handlers check before the first one exports. -/
def sampleRace : List RouterAction :=
  [.connect 0 sampleTicket.addr.id (sampleOffer.encode sampleText),
    .connect 1 sampleTicket.addr.id (sampleSecond.encode sampleText)] ++
  (sampleCheck sampleOffer).map (.handler 0) ++ (sampleCheck sampleSecond).map (.handler 1) ++
  sampleDownload.map (.handler 0) ++ [.handler 0 sampleExport] ++ sampleDownload.map (.handler 1)

def sampleStep : Router → RouterAction → Option Router := Router.step (fun path => path) sampleParse

theorem sampleRace_run : ∃ before after, before.files = [sampleTarget] ∧
    Run (Steps sampleStep) (.new []) sampleRace.reverse before ∧
    sampleStep before (.handler 1 sampleExport) = some after := by
  obtain ⟨before, run, files, continues⟩ : ∃ before,
      Run (Steps sampleStep) (.new []) sampleRace.reverse before ∧
      before.files = [sampleTarget] ∧
      (sampleStep before (.handler 1 sampleExport)).isSome = true := by
    apply execute_reaches
    decide +kernel
  obtain ⟨after, stepped⟩ := Option.isSome_iff_exists.mp continues
  exact ⟨before, after, files, run, stepped⟩

theorem never_overwrites_sample : ∃ router,
    Run (Steps sampleStep) (.new []) (.handler 1 sampleExport :: sampleRace.reverse) router ∧
    ((∀ action earlier before, action :: earlier <:+ .handler 1 sampleExport :: sampleRace.reverse →
      Run (Steps sampleStep) (.new []) earlier before →
        ¬ before.Overwrites (fun path => path) action) ↔
    ∀ action earlier, action :: earlier <:+ .handler 1 sampleExport :: sampleRace.reverse →
      ¬ action.LosesRace (fun path => path) earlier) := by
  obtain ⟨before, after, _, run, stepped⟩ := sampleRace_run
  exact ⟨after, run.next stepped, never_overwrites_iff (run.next stepped)⟩

/-- The second export replaces the file the first one saved. -/
theorem second_export_overwrites : ∃ router,
    Run (Steps sampleStep) (.new []) (.handler 1 sampleExport :: sampleRace.reverse) router ∧
    ¬ ∀ action earlier before, action :: earlier <:+ .handler 1 sampleExport :: sampleRace.reverse →
      Run (Steps sampleStep) (.new []) earlier before →
        ¬ before.Overwrites (fun path => path) action := by
  obtain ⟨before, after, files, run, stepped⟩ := sampleRace_run
  refine ⟨after, run.next stepped, fun never => ?_⟩
  exact never _ _ before (List.suffix_refl _) run ⟨sampleTarget, rfl, by simp [files]⟩

end IrohShare
