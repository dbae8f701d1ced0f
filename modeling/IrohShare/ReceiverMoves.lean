import IrohShare.Receiver

/-! The moves of the receiver's handler as relations with one constructor for each
outcome, so that invariants of its runs are proved by named cases. -/
namespace IrohShare
open Wire Unix

variable {parse : String → Option BlobTicket}

/-- The moves of `Download.step`, one for each of its outcomes. -/
inductive Download.Move (offer : Offer) (target : PathBuf) :
    Download → Event → Download ⊕ Except Error Unit → Prop where
  | absent : Move offer target .checking (.existed target (some false)) (.inl .opening)
  | blocked (found : Option Bool) (error : Error) :
      Move offer target .checking (.existed target found) (.inr (.error error))
  | opened : Move offer target .opening
      (.opened offer.ticket.hash offer.ticket.addr.id true) (.inl .downloading)
  | unopened (error : Error) : Move offer target .opening
      (.opened offer.ticket.hash offer.ticket.addr.id false) (.inr (.error error))
  | ended : Move offer target .downloading (.item none) (.inl .exporting)
  | progressed (bytes : UInt64) : Move offer target .downloading
      (.item (some (.progress bytes))) (.inl (.publishing bytes))
  | broke (item : DownloadProgressItem) (error : Error) :
      Move offer target .downloading (.item (some item)) (.inr (.error error))
  | skipped : Move offer target .downloading (.item (some .other)) (.inl .downloading)
  | published (bytes : UInt64) : Move offer target (.publishing bytes) (.published bytes true)
      (.inl (.reporting (DownloadStatus.progress bytes).bytes))
  | unpublished (bytes : UInt64) (error : Error) :
      Move offer target (.publishing bytes) (.published bytes false) (.inr (.error error))
  | reported (byte : UInt8) : Move offer target (.reporting [byte]) (.wrote byte) (.inl .downloading)
  | reporting (byte : UInt8) (pending : Bytes) (more : pending ≠ []) :
      Move offer target (.reporting (byte :: pending)) (.wrote byte) (.inl (.reporting pending))
  | unreported (pending : Bytes) (error : Error) :
      Move offer target (.reporting pending) .writeFailed (.inr (.error error))
  | saved : Move offer target .exporting (.exported offer.ticket.hash target .saved)
      (.inl .replacing)
  | unsaved (opened : Bool) (error : Error) : Move offer target .exporting
      (.exported offer.ticket.hash target (.failed opened)) (.inr (.error error))
  | replaced : Move offer target .replacing (.replaced offer.filesize) (.inr (.ok ()))

theorem Download.step_move {point : Download} (stepped : point.step offer target event = some next) :
    Download.Move offer target point event next := by
  cases point with
  | checking =>
      cases event with
      | existed path found =>
          simp only [Download.step] at stepped
          by_cases same : path = target
          · subst same
            rw [if_pos rfl] at stepped
            rcases found with _ | _ | _ <;> cases stepped
            · exact .blocked _ _
            · exact .absent
            · exact .blocked _ _
          · rw [if_neg same] at stepped
            cases stepped
      | _ => cases stepped
  | opening =>
      cases event with
      | opened hash provider ok =>
          simp only [Download.step] at stepped
          by_cases same : hash = offer.ticket.hash ∧ provider = offer.ticket.addr.id
          · rw [if_pos same] at stepped
            obtain ⟨rfl, rfl⟩ := same
            cases ok <;> cases stepped
            · exact .unopened _
            · exact .opened
          · rw [if_neg same] at stepped
            cases stepped
      | _ => cases stepped
  | downloading =>
      cases event with
      | item item =>
          obtain rfl := Option.some.inj stepped
          rcases item with _ | item
          · exact .ended
          · cases item with
            | progress bytes => exact .progressed bytes
            | error | downloadError => exact .broke _ _
            | other => exact .skipped
      | _ => cases stepped
  | publishing bytes =>
      cases event with
      | published value ok =>
          simp only [Download.step] at stepped
          by_cases same : value = bytes
          · rw [if_pos same] at stepped
            subst same
            cases ok <;> cases stepped
            · exact .unpublished _ _
            · exact .published _
          · rw [if_neg same] at stepped
            cases stepped
      | _ => cases stepped
  | reporting pending =>
      cases event with
      | wrote value =>
          cases pending with
          | nil => cases stepped
          | cons byte pending =>
              simp only [Download.step] at stepped
              by_cases same : value = byte
              · rw [if_pos same] at stepped
                subst same
                cases pending with
                | nil => cases stepped; exact .reported _
                | cons _ _ => cases stepped; exact .reporting _ _ (by simp)
              · rw [if_neg same] at stepped
                cases stepped
      | writeFailed =>
          cases pending <;> cases stepped <;> exact .unreported _ _
      | _ => cases pending <;> cases stepped
  | exporting =>
      cases event with
      | exported hash path result =>
          simp only [Download.step] at stepped
          by_cases same : hash = offer.ticket.hash ∧ path = target
          · rw [if_pos same] at stepped
            obtain ⟨rfl, rfl⟩ := same
            cases result <;> cases stepped
            · exact .saved
            · exact .unsaved _ _
          · rw [if_neg same] at stepped
            cases stepped
      | _ => cases stepped
  | replacing =>
      cases event with
      | replaced filesize =>
          simp only [Download.step] at stepped
          by_cases same : filesize = offer.filesize
          · rw [if_pos same] at stepped
            subst same
            cases stepped
            exact .replaced
          · rw [if_neg same] at stepped
            cases stepped
      | _ => cases stepped

/-- The moves of `Handler.step`, one for each of its outcomes. -/
inductive Handler.Move (remote : EndpointId) : Handler → Event → Handler → Prop where
  | lost (state : Handler) : Move remote state .lost state
  | connected : Move remote .accepting (.acceptBi true) .reading
  | unconnected (result : Except AcceptError Unit) :
      Move remote .accepting (.acceptBi false) (.returned result)
  | read (offer : Offer) (authentic : offer.ticket.addr.id = remote) :
      Move remote .reading (.read (.ok offer)) (.offering offer)
  | notAllowed (offer : Offer) (foreign : offer.ticket.addr.id ≠ remote) :
      Move remote .reading (.read (.ok offer)) (.returned (.error .notAllowed))
  | unread (error : Error) :
      Move remote .reading (.read (.error error)) (.returned (.error (.user error)))
  | offered (offer : Offer) : Move remote (.offering offer) (.offered true) (.deciding offer)
  | unoffered (offer : Offer) (error : AcceptError) :
      Move remote (.offering offer) (.offered false) (.returned (.error error))
  | chosen (offer : Offer) (downloadDir : PathBuf) : Move remote (.deciding offer)
      (.decided (some (.accept downloadDir))) (.accepted offer downloadDir)
  | turnedDown (offer : Offer) (answer : Option OfferDecision)
      (not : answer = some .decline ∨ answer = none) :
      Move remote (.deciding offer) (.decided answer) .declining
  | declined : Move remote .declining (.wrote 0) (.finishing (.error .notAllowed))
  | undeclined : Move remote .declining .writeFailed (.finishing (.error .notAllowed))
  | greeted (offer : Offer) (downloadDir : PathBuf) :
      Move remote (.accepted offer downloadDir) (.wrote 1) (download downloadDir offer)
  | ungreeted (offer : Offer) (downloadDir : PathBuf) (error : AcceptError) :
      Move remote (.accepted offer downloadDir) .writeFailed (.returned (.error error))
  | downloading (move : Download.Move offer target point event next) :
      Move remote (.downloading offer target point) event (Handler.resume offer target next)
  | completed : Move remote .completing (.wrote 3) (.finishing (.ok ()))
  | uncompleted (error : AcceptError) :
      Move remote .completing .writeFailed (.returned (.error error))
  | failed (error : Error) :
      Move remote (.failing error) (.wrote 4) (.finishing (.error (.user error)))
  | unfailed (error : Error) (other : AcceptError) :
      Move remote (.failing error) .writeFailed (.returned (.error other))
  | finished (result : Except AcceptError Unit) (ok : Bool) :
      Move remote (.finishing result) (.finished ok) (.closing result)
  | unfinished (error : AcceptError) :
      Move remote (.finishing (.ok ())) (.finished false) (.returned (.error error))
  | closed (result : Except AcceptError Unit) :
      Move remote (.closing result) .closed (.returned result)

theorem Event.afterWrite_cases {event : Event}
    (stepped : event.afterWrite due next failed = some state) :
    (∃ byte, event = .wrote byte ∧ [byte] = due ∧ state = next) ∨
      event = .writeFailed ∧ state = failed := by
  cases event with
  | wrote byte =>
      change (if [byte] = due then some next else none) = some state at stepped
      by_cases same : [byte] = due
      · rw [if_pos same] at stepped
        exact .inl ⟨byte, rfl, same, (Option.some.inj stepped).symm⟩
      · rw [if_neg same] at stepped
        cases stepped
  | writeFailed => exact .inr ⟨rfl, (Option.some.inj stepped).symm⟩
  | _ => cases stepped

theorem Handler.step_move {state : Handler} (stepped : state.step remote event = some next) :
    Handler.Move remote state event next := by
  unfold Handler.step at stepped
  by_cases lost : event = .lost
  · rw [if_pos lost] at stepped
    subst lost
    obtain rfl := Option.some.inj stepped
    exact .lost _
  rw [if_neg lost] at stepped
  cases state with
  | accepting =>
      cases event with
      | acceptBi ok =>
          cases ok <;> cases stepped
          · exact .unconnected _
          · exact .connected
      | _ => cases stepped
  | reading =>
      cases event with
      | read result =>
          obtain rfl := Option.some.inj stepped
          cases result with
          | error error => exact .unread error
          | ok offer =>
              simp only [onRead]
              by_cases authentic : offer.ticket.addr.id = remote
              · rw [if_neg (not_not_intro authentic)]
                exact .read _ authentic
              · rw [if_pos authentic]
                exact .notAllowed _ authentic
      | _ => cases stepped
  | offering offer =>
      cases event with
      | offered ok =>
          cases ok <;> cases stepped
          · exact .unoffered _ _
          · exact .offered _
      | _ => cases stepped
  | deciding offer =>
      cases event with
      | decided decision =>
          obtain rfl := Option.some.inj stepped
          rcases decision with _ | decision
          · exact .turnedDown _ _ (.inr rfl)
          · cases decision with
            | accept downloadDir => exact .chosen _ _
            | decline => exact .turnedDown _ _ (.inl rfl)
      | _ => cases stepped
  | declining =>
      rcases Event.afterWrite_cases stepped with ⟨byte, rfl, same, rfl⟩ | ⟨rfl, rfl⟩
      · cases same
        exact .declined
      · exact .undeclined
  | accepted offer downloadDir =>
      rcases Event.afterWrite_cases stepped with ⟨byte, rfl, same, rfl⟩ | ⟨rfl, rfl⟩
      · cases same
        exact .greeted _ _
      · exact .ungreeted _ _ _
  | downloading offer target point =>
      obtain ⟨result, moved, rfl⟩ := Option.map_eq_some_iff.mp stepped
      exact .downloading (Download.step_move moved)
  | completing =>
      rcases Event.afterWrite_cases stepped with ⟨byte, rfl, same, rfl⟩ | ⟨rfl, rfl⟩
      · cases same
        exact .completed
      · exact .uncompleted _
  | failing error =>
      rcases Event.afterWrite_cases stepped with ⟨byte, rfl, same, rfl⟩ | ⟨rfl, rfl⟩
      · cases same
        exact .failed _
      · exact .unfailed _ _
  | finishing result =>
      cases event with
      | finished ok =>
          obtain rfl := Option.some.inj stepped
          rcases result with error | _ <;> cases ok
          · exact .finished _ _
          · exact .finished _ _
          · exact .unfinished _
          · exact .finished _ _
      | _ => cases stepped
  | closing result =>
      cases event with
      | closed =>
          obtain rfl := Option.some.inj stepped
          exact .closed _
      | _ => cases stepped
  | returned => cases stepped

theorem Connection.step_move {connection : Connection}
    (stepped : connection.step parse event = some next) :
    connection.admits parse event = true ∧
      Handler.Move connection.remote connection.state event next.state ∧
      next = { connection with
        written := connection.written ++ event.bytes
        broken := connection.broken || event = .lost
        state := next.state } := by
  unfold Connection.step at stepped
  split at stepped
  · rename_i admitted
    obtain ⟨state, moved, rfl⟩ := Option.map_eq_some_iff.mp stepped
    exact ⟨admitted, Handler.step_move moved, rfl⟩
  · cases stepped

end IrohShare
